import TableService.Number.Limits

/-!
# Points in time and spans

- `Instant`: a second since 1970 and the nanoseconds within it. A leap second shares the second
  before it and has `10 ^ 9` nanoseconds or more.
- `Span`: a signed number of nanoseconds, at most `2 ^ 63 - 1` milliseconds either way.
- `Instant.add?`: the time a span later, unless it is out of range.
-/

namespace TableService

/-- Nanoseconds in a second. -/
abbrev giga : Nat := 1000000000

/-- A length of time, with a sign. -/
structure Span where
  nanos : Int
  natAbs_le : nanos.natAbs ≤ (limit63 - 1) * 1000000
deriving DecidableEq

namespace Span

/-- A span of so many nanoseconds, if there is one. -/
def ofNanos? (n : Int) : Option Span :=
  if h : n.natAbs ≤ (limit63 - 1) * 1000000 then some ⟨n, h⟩ else none

/-- Whole seconds, and nanoseconds counted forward from them. -/
def ofParts? (seconds : Int) (nanos : Nat) : Option Span :=
  if nanos < giga then ofNanos? (seconds * giga + nanos) else none

/-- The longest span. -/
def longest : Span := ⟨(limit63 - 1) * 1000000, by decide⟩

/-- The largest whole number of seconds in a span. -/
def longestSeconds : Nat := 9223372036854775

/-- A span of whole seconds; what is longer than the longest span is cut to it. -/
def ofSeconds (n : Nat) : Span :=
  if h : n ≤ longestSeconds then
    ⟨n * giga, by simp only [longestSeconds, giga, limit63] at *; omega⟩
  else longest

/-- Whole seconds toward zero, for a span that is not negative. -/
def wholeSeconds (d : Span) : Int := d.nanos / giga

/-- The nanoseconds behind the whole seconds. -/
def restNanos (d : Span) : Int := d.nanos % giga

end Span

/-- The first and the last second of the calendar: its years go from -262143 to 262142. -/
abbrev firstSecond : Int := -8334601228800

/-- The last second of the year 262142. -/
abbrev lastSecond : Int := 8210266876799

/-- A point in time. Any second may be lengthened by a leap second here, also one within a
minute. -/
structure Instant where
  second : Int
  nano : Nat
  first_le : firstSecond ≤ second
  le_last : second ≤ lastSecond
  nano_lt : nano < 2 * giga
deriving DecidableEq

namespace Instant

/-- The time with these numbers, if it is in range. -/
def of? (second : Int) (nano : Nat) : Option Instant :=
  if h : firstSecond ≤ second ∧ second ≤ lastSecond ∧ nano < 2 * giga then
    some ⟨second, nano, h.1, h.2.1, h.2.2⟩
  else none

/-- The greatest time that is not in a leap second. -/
def latest : Instant := ⟨lastSecond, 999999999, by decide, by decide, by decide⟩

instance : LE Instant :=
  ⟨fun a b => a.second < b.second ∨ a.second = b.second ∧ a.nano ≤ b.nano⟩

theorem le_def (a b : Instant) :
    a ≤ b ↔ a.second < b.second ∨ a.second = b.second ∧ a.nano ≤ b.nano := Iff.rfl

instance (a b : Instant) : Decidable (a ≤ b) :=
  inferInstanceAs (Decidable (a.second < b.second ∨ a.second = b.second ∧ a.nano ≤ b.nano))

theorem le_refl (a : Instant) : a ≤ a := by simp [le_def]

theorem le_trans {a b c : Instant} (hab : a ≤ b) (hbc : b ≤ c) : a ≤ c := by
  simp only [le_def] at *; omega

theorem le_total (a b : Instant) : a ≤ b ∨ b ≤ a := by
  simp only [le_def]; omega

/-- A number of nanoseconds since 1970, without leap seconds. -/
def ofNanos? (n : Int) : Option Instant :=
  of? (n / giga) (n % giga).toNat

/-- Within a leap second the span moves the nanoseconds only. Who leaves it forward goes on from the
second before it, and who leaves it backward from the second after it. -/
def add? (t : Instant) (d : Span) : Option Instant :=
  if t.nano < giga then ofNanos? (t.second * giga + t.nano + d.nanos)
  else if 2 * giga ≤ t.nano + d.nanos then
    ofNanos? (t.second * giga + (t.nano - giga : Nat) + d.nanos)
  else if d.nanos ≤ -giga then ofNanos? ((t.second + 1) * giga + (t.nano - giga : Nat) + d.nanos)
  else of? t.second (t.nano + d.nanos).toNat

end Instant

end TableService
