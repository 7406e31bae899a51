import Mathlib.Data.Prod.Lex
import TableService.Time.Instant

/-!
# So many seconds later

- `Moment`: a time in a calendar without end. `Instant.moment` is the place of an instant in it.
- `Instant.later`: the moment so many whole seconds later. A leap second is left behind by it.
- `Instant.moment_getD_add?`: to add a span of whole seconds, and to take the latest time if there
  is none, comes to that moment, or to the latest time if that is before it.
-/

namespace TableService

/-- The second since 1970, and the nanoseconds within it. -/
abbrev Moment := ℤ ×ₗ ℕ

/-! ## Spans of whole seconds -/

namespace Span

/-- One second more is longer than the longest span. -/
theorem longestSeconds_spec :
    (longestSeconds * giga : ℤ) ≤ longest.nanos ∧
      longest.nanos < (longestSeconds + 1 : ℤ) * giga := by decide

theorem nanos_ofSeconds_of_le {n : ℕ} (h : n ≤ longestSeconds) :
    (ofSeconds n).nanos = n * giga := by
  rw [ofSeconds, dif_pos h]

theorem ofSeconds_of_lt {n : ℕ} (h : longestSeconds < n) : ofSeconds n = longest := by
  rw [ofSeconds, dif_neg (Nat.not_le.mpr h)]

/-- A span of whole seconds is the exact one, or the longest one if that is shorter. -/
theorem nanos_ofSeconds (n : ℕ) : (ofSeconds n).nanos = min (n * giga : ℤ) longest.nanos := by
  obtain ⟨hle, hlt⟩ := longestSeconds_spec
  simp only [giga] at *
  rcases Nat.lt_or_ge longestSeconds n with h | h
  · rw [ofSeconds_of_lt h, min_eq_right (by omega)]
  · rw [nanos_ofSeconds_of_le h, min_eq_left (by omega)]

/-- A number of seconds that makes no span is more than the longest span has. -/
theorem getD_ofParts? (n : ℕ) : (ofParts? n 0).getD longest = ofSeconds n := by
  have hparts : ofParts? n 0 = ofNanos? (n * giga) := by
    rw [ofParts?, if_pos (by decide), Int.natCast_zero, Int.add_zero]
  have hfits : (n * giga : ℤ).natAbs ≤ (limit63 - 1) * 1000000 ↔ n ≤ longestSeconds := by
    simp only [longestSeconds, giga, limit63]
    omega
  rw [hparts, ofNanos?]
  rcases Nat.lt_or_ge longestSeconds n with h | h
  · rw [dif_neg fun hle => absurd (hfits.mp hle) (Nat.not_le.mpr h), ofSeconds_of_lt h,
      Option.getD_none]
  · rw [dif_pos (hfits.mpr h), ofSeconds, dif_pos h, Option.getD_some]

end Span

/-! ## Moments -/

namespace Instant

/-- A time by its place in the order of times. -/
def moment (t : Instant) : Moment := toLex (t.second, t.nano)

/-- A leap second ends with the second that it shares. -/
def later (t : Instant) (seconds : ℕ) : Moment :=
  toLex (t.second + seconds, if seconds = 0 then t.nano else t.nano % giga)

theorem moment_le_moment {a b : Instant} : a.moment ≤ b.moment ↔ a ≤ b := by
  rw [le_def]
  exact Prod.Lex.le_iff

theorem moment_injective {a b : Instant} (h : a.moment = b.moment) : a = b := by
  have hpair : (a.second, a.nano) = (b.second, b.nano) := h
  obtain ⟨hsecond, hnano⟩ := Prod.mk.inj hpair
  cases a
  cases b
  cases hsecond
  cases hnano
  rfl

@[simp] theorem later_zero (t : Instant) : t.later 0 = t.moment := by
  rw [later, if_pos rfl, Int.natCast_zero, Int.add_zero]
  rfl

theorem later_of_pos (t : Instant) {n : ℕ} (h : 0 < n) :
    t.later n = toLex (t.second + n, t.nano % giga) := by
  rw [later, if_neg (Nat.pos_iff_ne_zero.mp h)]

theorem moment_le_later (t : Instant) (n : ℕ) : t.moment ≤ t.later n := by
  rcases Nat.eq_zero_or_pos n with rfl | hn
  · rw [later_zero]
  · rw [later_of_pos t hn]
    refine Prod.Lex.le_iff.mpr (.inl ?_)
    show t.second < t.second + n
    omega

/-- Whatever is not in a leap second and within the calendar is not beyond the latest time. -/
theorem toLex_le_latest {second : ℤ} {nano : ℕ} (hnano : nano < giga) (h : second ≤ lastSecond) :
    (toLex (second, nano) : Moment) ≤ latest.moment := by
  refine Prod.Lex.le_iff.mpr ?_
  rcases Int.lt_or_eq_of_le h with hlt | heq
  · exact .inl hlt
  · exact .inr ⟨heq, Nat.le_pred_of_lt hnano⟩

theorem latest_le_toLex {second : ℤ} (nano : ℕ) (h : lastSecond < second) :
    latest.moment ≤ toLex (second, nano) :=
  Prod.Lex.le_iff.mpr (.inl h)

/-! ## To add a span -/

/-- A number of whole seconds, and nanoseconds within the second. -/
theorem ofNanos?_eq (second : ℤ) {nano : ℕ} (h : nano < giga) :
    ofNanos? (second * giga + nano) = of? second nano := by
  simp only [giga] at h ⊢
  have hdiv : (second * (1000000000 : ℕ) + nano) / (1000000000 : ℕ) = second := by omega
  have hmod : ((second * (1000000000 : ℕ) + nano) % (1000000000 : ℕ)).toNat = nano := by omega
  rw [ofNanos?, hdiv, hmod]

theorem add?_zero {t : Instant} {d : Span} (h : d.nanos = 0) : t.add? d = some t := by
  rcases Nat.lt_or_ge t.nano giga with hnano | hleap
  · rw [add?, if_pos hnano, h, Int.add_zero, ofNanos?_eq _ hnano, of?,
      dif_pos ⟨t.first_le, t.le_last, t.nano_lt⟩]
  · have hlt := t.nano_lt
    rw [add?, if_neg (Nat.not_lt.mpr hleap), h, Int.add_zero, if_neg (by omega), if_neg (by decide),
      Int.toNat_natCast, of?, dif_pos ⟨t.first_le, t.le_last, t.nano_lt⟩]

/-- Whole seconds leave a leap second. -/
theorem add?_seconds {t : Instant} {d : Span} {n : ℕ} (hn : 0 < n) (h : d.nanos = n * giga) :
    t.add? d = of? (t.second + n) (t.nano % giga) := by
  have hlt := t.nano_lt
  rcases Nat.lt_or_ge t.nano giga with hnano | hleap
  · have hsum : t.second * giga + t.nano + n * giga = (t.second + n) * giga + t.nano := by
      rw [Int.add_mul]
      omega
    rw [add?, if_pos hnano, h, hsum, ofNanos?_eq _ hnano, Nat.mod_eq_of_lt hnano]
  · have hrest : t.nano % giga = t.nano - giga := by
      rw [Nat.mod_eq_sub_mod hleap, Nat.mod_eq_of_lt (by omega)]
    have hleaves : (2 * giga : ℤ) ≤ t.nano + n * giga := by
      simp only [giga] at *
      omega
    have hsum : t.second * giga + (t.nano - giga : ℕ) + n * giga =
        (t.second + n) * giga + (t.nano - giga : ℕ) := by
      rw [Int.add_mul]
      omega
    rw [add?, if_neg (Nat.not_lt.mpr hleap), h, if_pos hleaves, hsum, ofNanos?_eq _ (by omega),
      hrest]

/-- Whatever is beyond the last second is not in the calendar. -/
theorem ofNanos?_eq_none {n : ℤ} (h : (lastSecond + 1) * giga ≤ n) : ofNanos? n = none := by
  rw [ofNanos?, of?, dif_neg]
  simp only [lastSecond, giga] at *
  rintro ⟨-, hlast, -⟩
  omega

/-- No time of the calendar is so far from another one. -/
theorem add?_longest (t : Instant) : t.add? .longest = none := by
  have hfirst := t.first_le
  have hlongest : Span.longest.nanos = 9223372036854775807000000 := by decide
  rw [add?, hlongest]
  split
  · refine ofNanos?_eq_none ?_
    simp only [firstSecond, lastSecond, giga] at *
    omega
  · rename_i hleap
    rw [if_pos (by simp only [giga] at *; omega)]
    refine ofNanos?_eq_none ?_
    simp only [firstSecond, lastSecond, giga] at *
    omega

/-- Without any delay the time is the same. Otherwise it is the exact one, or the latest one if that
is before it. -/
theorem moment_getD_add? (t : Instant) (n : ℕ) :
    ((t.add? (.ofSeconds n)).getD .latest).moment =
      if n = 0 then t.moment else min (t.later n) latest.moment := by
  rcases Nat.eq_zero_or_pos n with rfl | hn
  · rw [if_pos rfl, add?_zero rfl, Option.getD_some]
  rw [if_neg (Nat.pos_iff_ne_zero.mp hn), later_of_pos t hn]
  have hfirst := t.first_le
  rcases Nat.lt_or_ge Span.longestSeconds n with hlong | hshort
  · have hlast : lastSecond < t.second + n := by
      simp only [Span.longestSeconds, firstSecond, lastSecond] at *
      omega
    rw [Span.ofSeconds_of_lt hlong, add?_longest, Option.getD_none,
      min_eq_right (latest_le_toLex _ hlast)]
  · have hrest : t.nano % giga < giga := Nat.mod_lt _ (by decide)
    rw [add?_seconds hn (Span.nanos_ofSeconds_of_le hshort), of?]
    by_cases hlast : t.second + n ≤ lastSecond
    · rw [dif_pos ⟨by omega, hlast, by omega⟩, Option.getD_some,
        min_eq_left (toLex_le_latest hrest hlast)]
      rfl
    · rw [dif_neg fun h => hlast h.2.1, Option.getD_none,
        min_eq_right (latest_le_toLex _ (not_le.mp hlast))]

end Instant

end TableService
