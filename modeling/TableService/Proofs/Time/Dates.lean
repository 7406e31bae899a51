import Mathlib.Tactic.Common
import Mathlib.Tactic.IntervalCases
import TableService.Time.Calendar

/-!
# Days and their dates

- `Date.exists_years`: how many centuries, spans of four years and years of a cycle are over at a
  day of it, and how many days of the year. Only a leap year has a day 365.
- `Date.ofDay_spec`: the date of a day by its cycle, its year in it and its day in the year, each
  counted from March.
- `Date.toDay_ofDay`, `Date.valid_ofDay`: a day is the day of its date, which the calendar has.
-/

namespace TableService.Date

/-! ## Years of a cycle -/

/-- Years of a cycle that end with a leap day. They are counted from March, so that this day is in
the next calendar year. -/
def EndsWithLeapDay (y : Int) : Prop :=
  (y + 1) % 4 = 0 ∧ ((y + 1) % 100 ≠ 0 ∨ (y + 1) % 400 = 0)

/-- The last century of a cycle is one day longer than the others, the last span of four years of
the others one day shorter, and the last year of a span of four years one day longer. -/
theorem exists_years {c : Int} (h0 : 0 ≤ c) (hlt : c < cycleDays) :
    ∃ g h i r : Int, (0 ≤ g ∧ g ≤ 3) ∧ (0 ≤ h ∧ h ≤ 24) ∧ (0 ≤ i ∧ i ≤ 3) ∧ (0 ≤ r ∧ r ≤ 365) ∧
      c = 36524 * g + 1461 * h + 365 * i + r ∧ (r = 365 → i = 3 ∧ (h = 24 → g = 3)) := by
  obtain ⟨g, hg, hcentury⟩ : ∃ g : Int, (0 ≤ g ∧ g ≤ 3) ∧
      0 ≤ c - 36524 * g ∧ (c - 36524 * g < 36524 ∨ g = 3 ∧ c - 36524 * g ≤ 36524) :=
    ⟨min 3 (c / 36524), by omega, by simp only [cycleDays] at hlt; omega⟩
  generalize hcentury' : c - 36524 * g = century at hcentury
  obtain ⟨h, hh, hspan⟩ : ∃ h : Int, (0 ≤ h ∧ h ≤ 24) ∧
      0 ≤ century - 1461 * h ∧ century - 1461 * h ≤ 1460 :=
    ⟨century / 1461, by omega, by omega⟩
  generalize hspan' : century - 1461 * h = span at hspan
  obtain ⟨i, hi, hyear⟩ : ∃ i : Int, (0 ≤ i ∧ i ≤ 3) ∧
      0 ≤ span - 365 * i ∧ (span - 365 * i < 365 ∨ i = 3 ∧ span - 365 * i = 365) :=
    ⟨min 3 (span / 365), by omega, by omega⟩
  exact ⟨g, h, i, span - 365 * i, hg, hh, hi, by omega, by omega, by omega⟩

/-- The year of a cycle that a day of it is in. -/
def yearOf (c : Int) : Int :=
  (c - c / 1460 + c / 36524 - c / 146096) / 365

theorem yearOf_spec {c : Int} (h0 : 0 ≤ c) (hlt : c < cycleDays) :
    (0 ≤ yearOf c ∧ yearOf c ≤ 399) ∧
      (0 ≤ c - daysBeforeYear (yearOf c) ∧ c - daysBeforeYear (yearOf c) ≤ 365) ∧
      (c - daysBeforeYear (yearOf c) = 365 → EndsWithLeapDay (yearOf c)) := by
  obtain ⟨g, h, i, r, hg, hh, hi, hr, hc, hleap⟩ := exists_years h0 hlt
  have hyear : yearOf c = 100 * g + 4 * h + i := by
    -- only the very last day of a cycle counts as a fifth century, and as a second cycle
    have hcenturies : c / 36524 - c / 146096 = g := by
      have hrest : c / 146096 = 0 ∨ c = 146096 := by omega
      omega
    -- four years of 365 days are over a little too early, but never before the last of them
    have hspans : c / 1460 = 25 * g + h ∧ r ≤ 364 ∨ c / 1460 = 25 * g + h + 1 ∧ 1 ≤ r := by omega
    rw [yearOf]
    omega
  have hdays : daysBeforeYear (yearOf c) = c - r := by
    rw [hyear, daysBeforeYear]
    omega
  rw [hdays, hyear]
  refine ⟨by omega, by omega, fun hlast => ?_⟩
  unfold EndsWithLeapDay
  omega

/-! ## Months of a year -/

/-- The month of a year that a day of it is in, March being month 0. -/
def monthOf (r : Int) : Int :=
  (5 * r + 2) / 153

/-- The date that a day of a year has, both counted from March. -/
def ofMarch (year r : Int) : Date :=
  let m := monthOf r
  let month := if m < 10 then m + 3 else m - 9
  ⟨year + (if month ≤ 2 then 1 else 0), month, r - daysBeforeMonth m + 1⟩

theorem monthOf_spec {r : Int} (h0 : 0 ≤ r) (hle : r ≤ 365) :
    (0 ≤ monthOf r ∧ monthOf r ≤ 11) ∧ daysBeforeMonth (monthOf r) ≤ r ∧
      r < daysBeforeMonth (monthOf r + 1) := by
  unfold monthOf daysBeforeMonth
  omega

theorem ofMarch_of_lt (year : Int) {r : Int} (h0 : 0 ≤ monthOf r) (hlt : monthOf r < 10) :
    ofMarch year r = ⟨year, monthOf r + 3, r - daysBeforeMonth (monthOf r) + 1⟩ := by
  have hlate : ¬ monthOf r + 3 ≤ 2 := by omega
  simp only [ofMarch, if_pos hlt, if_neg hlate, Int.add_zero]

/-- January and February are in the next calendar year. -/
theorem ofMarch_of_ge (year : Int) {r : Int} (hge : 10 ≤ monthOf r) (hle : monthOf r ≤ 11) :
    ofMarch year r = ⟨year + 1, monthOf r - 9, r - daysBeforeMonth (monthOf r) + 1⟩ := by
  have hearly : monthOf r - 9 ≤ 2 := by omega
  simp only [ofMarch, if_neg (Int.not_lt.mpr hge), if_pos hearly]

theorem toDay_ofMarch {q y r : Int} (hy : 0 ≤ y ∧ y ≤ 399) (hr : 0 ≤ r ∧ r ≤ 365) :
    (ofMarch (400 * q + y) r).toDay = cycleDays * q + daysBeforeYear y + r - epochOffset := by
  obtain ⟨hm, -⟩ := monthOf_spec hr.1 hr.2
  have hcycle : (400 * q + y) / 400 = q := by omega
  have hyear : (400 * q + y) % 400 = y := by omega
  rcases Int.lt_or_le (monthOf r) 10 with hlt | hge
  · have hlate : ¬ monthOf r + 3 ≤ 2 := by omega
    rw [ofMarch_of_lt _ hm.1 hlt]
    simp only [toDay, if_neg hlate, Int.add_sub_cancel, hcycle, hyear]
    omega
  · have hearly : monthOf r - 9 ≤ 2 := by omega
    rw [ofMarch_of_ge _ hge hm.2]
    simp only [toDay, if_pos hearly, Int.add_sub_cancel, Int.sub_add_cancel, hcycle, hyear]
    omega

theorem isLeap_of_endsWithLeapDay {q y : Int} (h : EndsWithLeapDay y) :
    isLeap (400 * q + y + 1) = true := by
  unfold EndsWithLeapDay at h
  simp only [isLeap, Bool.and_eq_true, Bool.or_eq_true, decide_eq_true_eq]
  omega

/-- Each month ends where the next one begins, and February at the end of the year. -/
theorem valid_ofMarch {q y r : Int} (hr : 0 ≤ r ∧ r ≤ 365) (hleap : r = 365 → EndsWithLeapDay y) :
    (ofMarch (400 * q + y) r).Valid := by
  obtain ⟨hm, hbegin, hend⟩ := monthOf_spec hr.1 hr.2
  rcases Int.lt_or_le (monthOf r) 10 with hlt | hge
  · rw [ofMarch_of_lt _ hm.1 hlt]
    have hlength (year : Int) : monthLength year (monthOf r + 3) =
        daysBeforeMonth (monthOf r + 1) - daysBeforeMonth (monthOf r) := by
      obtain ⟨h0, -⟩ := hm
      generalize monthOf r = m at h0 hlt
      interval_cases m <;> rfl
    unfold Valid
    dsimp only
    rw [hlength]
    omega
  · rw [ofMarch_of_ge _ hge hm.2]
    unfold Valid
    generalize monthOf r = m at hge hm hbegin hend
    obtain rfl | rfl : m = 10 ∨ m = 11 := by omega
    · unfold monthLength daysBeforeMonth at *
      dsimp only
      omega
    · -- February
      show 1 ≤ (2 : Int) ∧ (2 : Int) ≤ 12 ∧ 1 ≤ r - 337 + 1 ∧
        r - 337 + 1 ≤ if isLeap (400 * q + y + 1) then 29 else 28
      replace hbegin : 337 ≤ r := hbegin
      by_cases hlast : r = 365
      · rw [if_pos (isLeap_of_endsWithLeapDay (hleap hlast))]
        omega
      · split <;> omega

/-! ## Days and dates -/

/-- The year of a day in its cycle and the day in that year, both counted from March. -/
theorem ofDay_spec (n : Int) :
    ∃ q y r : Int, n + epochOffset = cycleDays * q + daysBeforeYear y + r ∧ (0 ≤ y ∧ y ≤ 399) ∧
      (0 ≤ r ∧ r ≤ 365) ∧ (r = 365 → EndsWithLeapDay y) ∧ ofDay n = ofMarch (400 * q + y) r := by
  have h0 : 0 ≤ (n + epochOffset) % cycleDays := Int.emod_nonneg _ (by decide)
  have hlt : (n + epochOffset) % cycleDays < cycleDays := Int.emod_lt_of_pos _ (by decide)
  obtain ⟨hy, hr, hleap⟩ := yearOf_spec h0 hlt
  refine ⟨(n + epochOffset) / cycleDays, yearOf ((n + epochOffset) % cycleDays), _, ?_, hy, hr,
    hleap, rfl⟩
  have hsplit := Int.mul_ediv_add_emod (n + epochOffset) cycleDays
  omega

/-- A day is the day of its date. -/
theorem toDay_ofDay (n : Int) : (ofDay n).toDay = n := by
  obtain ⟨q, y, r, hn, hy, hr, -, hdate⟩ := ofDay_spec n
  rw [hdate, toDay_ofMarch hy hr]
  omega

theorem valid_ofDay (n : Int) : (ofDay n).Valid := by
  obtain ⟨q, y, r, -, -, hr, hleap, hdate⟩ := ofDay_spec n
  rw [hdate]
  exact valid_ofMarch hr hleap

end TableService.Date
