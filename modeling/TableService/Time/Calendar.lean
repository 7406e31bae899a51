/-!
# The calendar

- `Date`: year, month and day of the proleptic Gregorian calendar.
- `Date.ofDay`, `Date.toDay`: the date of a day counted from 1970-01-01, and back.

Years are counted from March inside a cycle of 400 years, so that a leap day ends its year.
-/

namespace TableService

/-- A day by its name. Months and days count from 1; there is a year 0. -/
structure Date where
  year : Int
  month : Int
  day : Int
deriving DecidableEq

namespace Date

/-- Days in a cycle of 400 years. -/
abbrev cycleDays : Int := 146097

/-- Days from the first of March of the year 0 to 1970-01-01. -/
abbrev epochOffset : Int := 719468

/-- Days before year `y` of a cycle. -/
def daysBeforeYear (y : Int) : Int :=
  365 * y + y / 4 - y / 100

/-- Days before month `m` of a year, March being month 0. -/
def daysBeforeMonth (m : Int) : Int :=
  (153 * m + 2) / 5

/-- The date of a day, counted from 1970-01-01. -/
def ofDay (n : Int) : Date :=
  let z := n + epochOffset
  let inCycle := z % cycleDays
  let y := (inCycle - inCycle / 1460 + inCycle / 36524 - inCycle / 146096) / 365
  let inYear := inCycle - daysBeforeYear y
  let m := (5 * inYear + 2) / 153
  let month := if m < 10 then m + 3 else m - 9
  { year := 400 * (z / cycleDays) + y + (if month ≤ 2 then 1 else 0)
    month
    day := inYear - daysBeforeMonth m + 1 }

/-- The day of a date. It is meant for valid dates, but any three numbers have one. -/
def toDay (d : Date) : Int :=
  let y := if d.month ≤ 2 then d.year - 1 else d.year
  let m := if d.month ≤ 2 then d.month + 9 else d.month - 3
  cycleDays * (y / 400) + daysBeforeYear (y % 400) + daysBeforeMonth m + (d.day - 1) - epochOffset

/-- Whether the year has 366 days. -/
def isLeap (year : Int) : Bool :=
  year % 4 = 0 && (year % 100 ≠ 0 || year % 400 = 0)

/-- The number of days of a month from 1 to 12. -/
def monthLength (year month : Int) : Int :=
  if month = 2 then (if isLeap year then 29 else 28)
  else if month = 4 ∨ month = 6 ∨ month = 9 ∨ month = 11 then 30
  else 31

/-- Whether there is such a date. -/
def Valid (d : Date) : Prop :=
  1 ≤ d.month ∧ d.month ≤ 12 ∧ 1 ≤ d.day ∧ d.day ≤ monthLength d.year d.month

instance (d : Date) : Decidable d.Valid :=
  inferInstanceAs (Decidable (_ ∧ _ ∧ _ ∧ _))

example : ofDay 0 = ⟨1970, 1, 1⟩ ∧ ofDay 11016 = ⟨2000, 2, 29⟩ ∧
    ofDay (-719529) = ⟨-1, 12, 31⟩ := by
  decide

end Date

end TableService
