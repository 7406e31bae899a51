import Mathlib.Algebra.Order.Field.Rat
import Mathlib.Algebra.Order.Ring.Abs
import Mathlib.Data.Nat.Cast.Order.Field
import Mathlib.Tactic.FieldSimp
import Mathlib.Tactic.Linarith
import Mathlib.Tactic.Positivity
import Mathlib.Tactic.Ring
import TableService.Domain.Validation

/-!
# What a product is worth

- `Decimal.value`: the number that a decimal stands for.
- `IsRounded`: a whole number that is nearest to another number, a half going to the even one.
- `Decimal.Rounds`: a decimal is nearest to a number among those with as many places, and it has as
  many places as fit.
- `Decimal.Rounds.exact_iff`: such a decimal is exact if any decimal is.
- `Money.total_exact_iff`: so is the price of so many.

A decimal has room for 96 bits. A product that needs more gives up its last places, and nothing in
the result says so.
-/

namespace TableService

/-! ## Rounded quotients -/

/-- A whole number that is nearest to `x`, and the even one if there are two. -/
structure IsRounded (x : ℚ) (k : ℕ) : Prop where
  near : |(k : ℚ) - x| ≤ 1 / 2
  toEven : |(k : ℚ) - x| = 1 / 2 → Even k

theorem isRounded_roundEven (num : ℕ) {den : ℕ} (hden : 0 < den) :
    IsRounded (num / den) (roundEven num den) := by
  have hpos : (0 : ℚ) < den := by exact_mod_cast hden
  -- only the part behind the point decides
  obtain ⟨part, hpart⟩ : ∃ part : ℚ, part = (num % den : ℕ) / den := ⟨_, rfl⟩
  have hquot : (num : ℚ) / den = (num / den : ℕ) + part := by
    rw [hpart, div_eq_iff hpos.ne', add_mul, div_mul_cancel₀ _ hpos.ne']
    exact_mod_cast (Nat.div_add_mod' num den).symm
  have hnonneg : 0 ≤ part := by
    rw [hpart]
    positivity
  have hlt : part < 1 := by
    rw [hpart, div_lt_one hpos]
    exact_mod_cast Nat.mod_lt num hden
  have hbelow : 2 * (num % den) < den ↔ part < 1 / 2 := by
    rw [hpart, div_lt_iff₀ hpos, ← Nat.cast_lt (α := ℚ)]
    push_cast
    constructor <;> intro h <;> linarith
  have habove : den < 2 * (num % den) ↔ 1 / 2 < part := by
    rw [hpart, lt_div_iff₀ hpos, ← Nat.cast_lt (α := ℚ)]
    push_cast
    constructor <;> intro h <;> linarith
  have hdown (q : ℕ) : |(q : ℚ) - (q + part)| = part := by
    rw [sub_add_cancel_left, abs_neg, abs_of_nonneg hnonneg]
  have hup (q : ℕ) : |((q + 1 : ℕ) : ℚ) - (q + part)| = 1 - part := by
    rw [Nat.cast_add_one, add_sub_add_left_eq_sub, abs_of_nonneg (by linarith)]
  rw [hquot]
  simp only [roundEven, hbelow, habove]
  generalize num / den = q
  split
  · rename_i h
    exact ⟨by rw [hdown]; exact h.le, fun htie => absurd (htie.symm.trans (hdown q)) h.ne'⟩
  · rename_i hge
    split
    · rename_i h
      refine ⟨?_, fun htie => ?_⟩
      · rw [hup]
        linarith
      · rw [hup] at htie
        linarith
    · rename_i hle
      have hhalf : part = 1 / 2 := le_antisymm (not_lt.mp hle) (not_lt.mp hge)
      rcases Nat.mod_two_eq_zero_or_one q with heven | hodd
      · rw [heven]
        exact ⟨(hdown q).trans_le hhalf.le, fun _ => Nat.even_iff.mpr heven⟩
      · rw [hodd]
        refine ⟨?_, fun _ => Nat.even_iff.mpr (by omega)⟩
        rw [hup, hhalf]
        norm_num

/-- From a half below an even number on, that number is reached. -/
theorem IsRounded.le_iff {x : ℚ} {k bound : ℕ} (h : IsRounded x k) (heven : Even bound) :
    bound ≤ k ↔ (bound : ℚ) - 1 / 2 ≤ x := by
  obtain ⟨hlow, hhigh⟩ := abs_le.mp h.near
  constructor
  · intro hle
    have : (bound : ℚ) ≤ k := by exact_mod_cast hle
    linarith
  · intro hle
    by_contra hlt
    have hstep : (k : ℚ) + 1 ≤ bound := by exact_mod_cast Nat.lt_of_not_le hlt
    -- only the number before the bound is so near, and it is odd
    have htie : (k : ℚ) - x = -(1 / 2) := by linarith
    have hk : k + 1 = bound := by
      have : (k : ℚ) + 1 = bound := by linarith
      exact_mod_cast this
    have hkeven : Even k := h.toEven (by rw [htie, abs_neg]; norm_num)
    rw [← hk] at heven
    exact Nat.not_even_iff_odd.mpr hkeven.add_one heven

theorem IsRounded.eq_of_eq {x : ℚ} {k n : ℕ} (h : IsRounded x k) (hx : x = n) : k = n := by
  have hnear := h.near
  rw [hx, abs_le] at hnear
  have hlt : (k : ℚ) < n + 1 := by linarith
  have hgt : (n : ℚ) < k + 1 := by linarith
  have : k < n + 1 := by exact_mod_cast hlt
  have : n < k + 1 := by exact_mod_cast hgt
  omega

/-! ## Decimals that stand in for a number -/

namespace Decimal

/-- The number that a decimal stands for. -/
def value (d : Decimal) : ℚ := d.coeff / 10 ^ d.scale

theorem natAbs_coeff (d : Decimal) : d.coeff.natAbs = d.digits := by
  cases hn : d.negative <;> simp [coeff, hn]

theorem abs_coeff (d : Decimal) : |(d.coeff : ℚ)| = d.digits := by
  rw [← natAbs_coeff, Nat.cast_natAbs, Int.cast_abs]

theorem value_mul_pow (d : Decimal) : d.value * 10 ^ d.scale = d.coeff := by
  rw [value, div_mul_cancel₀]
  positivity

/-- A decimal is nearest to `p` among those with as many places, and with one more place the number
would not fit in 96 bits. -/
structure Rounds (p : ℚ) (d : Decimal) : Prop where
  near : |d.value - p| * 10 ^ d.scale ≤ 1 / 2
  toEven : |d.value - p| * 10 ^ d.scale = 1 / 2 → Even d.digits
  finest : d.value = p ∨ (limit96 : ℚ) - 1 / 2 ≤ |p| * 10 ^ (d.scale + 1)

theorem rounds_self (d : Decimal) : d.Rounds d.value where
  near := by norm_num
  toEven := by norm_num
  finest := .inl rfl

/-- Rounding gives up nothing that a decimal can hold. -/
theorem Rounds.exact_iff {p : ℚ} {d : Decimal} (h : d.Rounds p) :
    d.value = p ↔ ∃ e : Decimal, e.value = p := by
  refine ⟨fun heq => ⟨d, heq⟩, ?_⟩
  rintro ⟨e, rfl⟩
  rcases h.finest with heq | hfinest
  · exact heq
  have hdigits : (e.digits : ℚ) ≤ limit96 - 1 := by
    have : (e.digits : ℚ) + 1 ≤ limit96 := by exact_mod_cast e.digits_lt
    linarith
  rcases Nat.lt_or_ge d.scale e.scale with hmore | hfewer
  · -- a number with so many places would be too large
    have habs : |e.value| * 10 ^ e.scale = e.digits := by
      rw [← abs_coeff, ← value_mul_pow, abs_mul, abs_of_pos (by positivity : (0 : ℚ) < 10 ^ _)]
    have hpow : (10 : ℚ) ^ (d.scale + 1) ≤ 10 ^ e.scale :=
      pow_le_pow_right₀ (by norm_num) hmore
    have hle : |e.value| * 10 ^ (d.scale + 1) ≤ |e.value| * 10 ^ e.scale := by gcongr
    have hlarge : (limit96 : ℚ) - 1 / 2 ≤ e.digits := hfinest.trans (hle.trans_eq habs)
    exact absurd (hlarge.trans hdigits) (by norm_num)
  · -- with no more places than it has, the exact number is a whole number of its units
    obtain ⟨k, hk⟩ := Nat.exists_eq_add_of_le hfewer
    have hexact : e.value * 10 ^ d.scale = (e.coeff * 10 ^ k : ℤ) := by
      rw [hk, pow_add, ← mul_assoc, value_mul_pow]
      push_cast
      rfl
    have hpos : (0 : ℚ) < 10 ^ d.scale := by positivity
    have hnear := h.near
    rw [← abs_of_pos hpos, ← abs_mul, sub_mul, value_mul_pow, hexact] at hnear
    have hint : d.coeff = e.coeff * 10 ^ k := by
      have hlt : |d.coeff - e.coeff * 10 ^ k| < 1 := by
        have : |((d.coeff - e.coeff * 10 ^ k : ℤ) : ℚ)| < 1 := by
          push_cast at hnear ⊢
          linarith
        exact_mod_cast this
      rw [Int.abs_lt_one_iff] at hlt
      omega
    have hmul : d.value * 10 ^ d.scale = e.value * 10 ^ d.scale := by
      rw [value_mul_pow, hexact, hint]
    exact mul_right_cancel₀ hpos.ne' hmul

/-! ## Products -/

theorem scale_of_ofParts? {coeff : ℤ} {scale : ℕ} {d : Decimal}
    (h : ofParts? coeff scale = some d) : d.scale = scale :=
  (of?_eq_some_iff.mp h).2.2

variable {coeff : ℤ} {scale dropped : ℕ}

theorem ofParts?_eq_none_iff (hcoeff : coeff ≠ 0) (hscale : scale ≤ 28) (k : ℕ) :
    ofParts? (coeff.sign * k) scale = none ↔ limit96 ≤ k := by
  have habs : (coeff.sign * k).natAbs = k := by
    rw [Int.natAbs_mul, Int.natAbs_sign_of_ne_zero hcoeff, Nat.one_mul, Int.natAbs_natCast]
  rw [ofParts?, of?, habs]
  split
  · rename_i h
    simpa using h.1
  · rename_i h
    simpa using fun hlt => h ⟨hlt, hscale⟩

/-- No more places are given up than must be. -/
theorem fit?_eq_some (hcoeff : coeff ≠ 0) (hscale : scale ≤ 28) {d : Decimal}
    (h : fit? coeff scale = some d) :
    ∃ dropped ≤ scale, d.scale = scale - dropped ∧
      d.coeff = coeff.sign * roundEven coeff.natAbs (10 ^ dropped) ∧
      ∀ fewer < dropped, limit96 ≤ roundEven coeff.natAbs (10 ^ fewer) := by
  obtain ⟨before, dropped, after, hsplit, hfits, hnone⟩ := List.findSome?_eq_some_iff.mp h
  have hmem : dropped ∈ List.range (scale + 1) := by
    rw [hsplit]
    exact List.mem_append_right _ List.mem_cons_self
  have hle : dropped ≤ scale := Nat.le_of_lt_succ (List.mem_range.mp hmem)
  refine ⟨dropped, hle, scale_of_ofParts? hfits, coeff_of_ofParts? hfits, ?_⟩
  intro fewer hfewer
  have hbefore : fewer ∈ before := by
    have hrange : fewer ∈ List.range (scale + 1) := List.mem_range.mpr (by omega)
    have hsorted := List.pairwise_lt_range (n := scale + 1)
    rw [hsplit] at hrange hsorted
    rcases List.mem_append.mp hrange with hmem | hmem
    · exact hmem
    · rcases List.mem_cons.mp hmem with rfl | hmem
      · exact absurd hfewer (Nat.lt_irrefl _)
      · have := List.rel_of_pairwise_cons (List.pairwise_append.mp hsorted).2.1 hmem
        omega
  exact (ofParts?_eq_none_iff hcoeff (by omega) _).mp (hnone fewer hbefore)

theorem fit?_eq_none_iff (hcoeff : coeff ≠ 0) (hscale : scale ≤ 28) :
    fit? coeff scale = none ↔
      ∀ dropped ≤ scale, limit96 ≤ roundEven coeff.natAbs (10 ^ dropped) := by
  rw [fit?, List.findSome?_eq_none_iff]
  simp only [List.mem_range, Nat.lt_succ_iff]
  exact forall₂_congr fun dropped hle => ofParts?_eq_none_iff hcoeff (by omega) _

/-- The rounded digits are nearest to the digits of the number at the places that are left. -/
theorem isRounded_digits (coeff : ℤ) (hle : dropped ≤ scale) :
    IsRounded (|(coeff : ℚ) / 10 ^ scale| * 10 ^ (scale - dropped))
      (roundEven coeff.natAbs (10 ^ dropped)) := by
  have h := isRounded_roundEven coeff.natAbs (by positivity : 0 < 10 ^ dropped)
  have hpow : (10 : ℚ) ^ scale = 10 ^ (scale - dropped) * 10 ^ dropped := by
    rw [← pow_add, Nat.sub_add_cancel hle]
  have hpos : (0 : ℚ) < 10 ^ (scale - dropped) := by positivity
  have hnum : |(coeff : ℚ) / 10 ^ scale| * 10 ^ (scale - dropped) =
      coeff.natAbs / (10 ^ dropped : ℕ) := by
    rw [abs_div, abs_of_pos (by positivity : (0 : ℚ) < 10 ^ scale), hpow, Nat.cast_natAbs,
      Int.cast_abs]
    push_cast
    field_simp
  rw [hnum]
  exact h

/-- A decimal with the sign of a number is as far from it as its digits are from its size. -/
theorem abs_sub_value {d : Decimal} {k : ℕ} (scale : ℕ) (hcoeff : coeff ≠ 0)
    (hd : d.coeff = coeff.sign * k) :
    |d.value - coeff / 10 ^ scale| * 10 ^ d.scale =
      |(k : ℚ) - |(coeff : ℚ) / 10 ^ scale| * 10 ^ d.scale| := by
  have hpos : (0 : ℚ) < 10 ^ d.scale := by positivity
  have hsign : |((coeff.sign : ℤ) : ℚ)| = 1 := by
    rw [← Int.cast_abs, Int.abs_sign_of_ne_zero hcoeff, Int.cast_one]
  have hsize : (coeff : ℚ) / 10 ^ scale = coeff.sign * |(coeff : ℚ) / 10 ^ scale| := by
    rw [abs_div, abs_of_pos (by positivity : (0 : ℚ) < 10 ^ scale), ← mul_div_assoc,
      ← Int.cast_abs, ← Int.cast_mul, Int.sign_mul_abs]
  calc |d.value - coeff / 10 ^ scale| * 10 ^ d.scale
      = |d.value * 10 ^ d.scale - coeff / 10 ^ scale * 10 ^ d.scale| := by
        rw [← sub_mul, abs_mul, abs_of_pos hpos]
    _ = |((coeff.sign : ℤ) : ℚ) * (k - |(coeff : ℚ) / 10 ^ scale| * 10 ^ d.scale)| := by
        rw [value_mul_pow, hd, mul_sub, ← mul_assoc, ← hsize]
        push_cast
        rfl
    _ = |(k : ℚ) - |(coeff : ℚ) / 10 ^ scale| * 10 ^ d.scale| := by
        rw [abs_mul, hsign, one_mul]

theorem rounds_of_fit? (hcoeff : coeff ≠ 0) (hscale : scale ≤ 28) {d : Decimal}
    (h : fit? coeff scale = some d) : d.Rounds (coeff / 10 ^ scale) := by
  obtain ⟨dropped, hle, hplaces, hdigits, hfewer⟩ := fit?_eq_some hcoeff hscale h
  have hrounded := isRounded_digits coeff hle
  have habs : d.digits = roundEven coeff.natAbs (10 ^ dropped) := by
    rw [← natAbs_coeff, hdigits, Int.natAbs_mul, Int.natAbs_sign_of_ne_zero hcoeff, Nat.one_mul,
      Int.natAbs_natCast]
  have hdist := abs_sub_value scale hcoeff hdigits
  rw [← hplaces, ← habs] at hrounded
  rw [← habs] at hdist
  refine ⟨hdist.trans_le hrounded.near, fun htie => hrounded.toEven (hdist.symm.trans htie), ?_⟩
  rcases Nat.eq_zero_or_pos dropped with rfl | hpos
  · -- all places are there
    left
    have hwhole : roundEven coeff.natAbs (10 ^ 0) = coeff.natAbs :=
      (isRounded_roundEven coeff.natAbs (by decide)).eq_of_eq (by norm_num)
    rw [value, hdigits, hplaces, hwhole, Int.sign_mul_natAbs, Nat.sub_zero]
  · -- one place more was tried and did not fit
    right
    have hmore := isRounded_digits coeff (by omega : dropped - 1 ≤ scale)
    have hfew := (hmore.le_iff (by decide)).mp (hfewer (dropped - 1) (by omega))
    rwa [show scale - (dropped - 1) = d.scale + 1 by omega] at hfew

/-- Without any place left, the number is too large from a half below the limit on. -/
theorem fit?_eq_none_iff_le (hcoeff : coeff ≠ 0) (hscale : scale ≤ 28) :
    fit? coeff scale = none ↔ (limit96 : ℚ) - 1 / 2 ≤ |(coeff : ℚ) / 10 ^ scale| := by
  have hreached (dropped : ℕ) (hle : dropped ≤ scale) :
      limit96 ≤ roundEven coeff.natAbs (10 ^ dropped) ↔
        (limit96 : ℚ) - 1 / 2 ≤ |(coeff : ℚ) / 10 ^ scale| * 10 ^ (scale - dropped) :=
    (isRounded_digits coeff hle).le_iff (by decide)
  rw [fit?_eq_none_iff hcoeff hscale]
  constructor
  · intro hnone
    have hlast := (hreached scale le_rfl).mp (hnone scale le_rfl)
    rwa [Nat.sub_self, pow_zero, mul_one] at hlast
  · intro hlarge dropped hle
    rw [hreached dropped hle]
    -- more places make the digits only larger
    have hone : (1 : ℚ) ≤ 10 ^ (scale - dropped) := one_le_pow₀ (by norm_num)
    exact hlarge.trans (le_mul_of_one_le_right (abs_nonneg _) hone)

/-- A product with few places rounds the exact one, if that fits at all. -/
theorem mul?_spec (a b : Decimal) (hplaces : a.scale + b.scale ≤ 28) :
    (a.mul? b = none ↔ (limit96 : ℚ) - 1 / 2 ≤ |a.value * b.value|) ∧
      ∀ d, a.mul? b = some d → d.Rounds (a.value * b.value) := by
  have hvalue : a.value * b.value = (a.coeff * b.coeff : ℤ) / 10 ^ (a.scale + b.scale) := by
    rw [value, value, div_mul_div_comm, pow_add, Int.cast_mul]
  rw [hvalue, mul?]
  split
  · -- a product with zero is zero, whatever its places
    rename_i hzero
    rw [hzero, Int.cast_zero, zero_div]
    refine ⟨iff_of_false (Option.some_ne_none _) (by norm_num), ?_⟩
    rintro d ⟨⟩
    have hself := rounds_self zero
    rwa [show zero.value = 0 by norm_num [value, zero]] at hself
  · rename_i hcoeff
    exact ⟨fit?_eq_none_iff_le hcoeff hplaces, fun d => rounds_of_fit? hcoeff hplaces⟩

end Decimal

/-! ## Prices -/

namespace Money

/-- What so many are worth, however many digits that has. -/
def exactTotal (m : Money) (q : Quantity) : ℚ := m.amount.value * q.value

theorem exactTotal_nonneg (m : Money) (q : Quantity) : 0 ≤ m.exactTotal q := by
  have hcoeff : (0 : ℚ) ≤ m.amount.coeff := by exact_mod_cast m.nonneg
  rw [exactTotal, Decimal.value]
  positivity

theorem map_amount_times? (m : Money) (q : Quantity) :
    (m.times? q).map amount = m.amount.mul? q.amount := by
  rw [times?]
  split
  · rename_i d h
    exact h.symm
  · rename_i h
    exact h.symm

/-- The total is refused if it is too large even without places. Otherwise it is exact as long as
any decimal is, and if none is, it is nearest among those with as many places as fit. -/
theorem total_exact_iff (m : Money) (q : Quantity) :
    (m.times? q = none ↔ (limit96 : ℚ) - 1 / 2 ≤ m.exactTotal q) ∧
      ∀ total, m.times? q = some total →
        (total.amount.value = m.exactTotal q ↔ ∃ d : Decimal, d.value = m.exactTotal q) ∧
        total.amount.Rounds (m.exactTotal q) := by
  have hvalue : m.exactTotal q = m.amount.value * q.amount.value := by
    rw [exactTotal, Quantity.amount, Decimal.value, Decimal.value, Decimal.coeff_whole]
    norm_num [Decimal.whole]
  obtain ⟨hnone, hsome⟩ := Decimal.mul?_spec m.amount q.amount m.amount.scale_le
  rw [← map_amount_times?, ← hvalue] at hnone hsome
  rw [Option.map_eq_none_iff, abs_of_nonneg (m.exactTotal_nonneg q)] at hnone
  refine ⟨hnone, fun total htotal => ?_⟩
  have hrounds := hsome total.amount (by rw [htotal, Option.map_some])
  exact ⟨hrounds.exact_iff, hrounds⟩

/-- A price with 29 digits. -/
def seventyAndABit : Money :=
  ⟨⟨false, 70000000000000000000000000001, 27, by decide, by decide⟩, by decide⟩

/-- Two of it would have 30 digits. The last one is dropped. -/
theorem seventyAndABit_total : ∃ (q : Quantity) (total : Money),
    seventyAndABit.times? q = some total ∧ total.amount.text = "140.00000000000000000000000000" ∧
    (total.amount.value = seventyAndABit.exactTotal q ↔
      ∃ d : Decimal, d.value = seventyAndABit.exactTotal q) ∧
    total.amount.Rounds (seventyAndABit.exactTotal q) ∧
    total.amount.value ≠ seventyAndABit.exactTotal q := by
  have htotal : seventyAndABit.times? ⟨2, by decide, by decide⟩ =
      some ⟨⟨false, 14000000000000000000000000000, 26, by decide, by decide⟩, by decide⟩ := by
    decide
  obtain ⟨hexact, hrounds⟩ := (seventyAndABit.total_exact_iff _).2 _ htotal
  refine ⟨_, _, htotal, by decide +kernel, hexact, hrounds, ?_⟩
  norm_num [Decimal.value, Decimal.coeff, exactTotal, seventyAndABit]

end Money

end TableService
