import TableService.Number.Limits

/-!
# Decimal numbers of 96 bits

- `Decimal`: a sign, and digits of at most 96 bits over a power of ten with at most 28 places. The
  number of places is part of the value, so `1.1` and `1.10` differ as data and agree under `cmp`;
  so do zero and negative zero.
- `Decimal.coeff`: the digits with their sign.
- `Decimal.mul?`: the product, rounded to the places that fit, or `none` if it is too large.
- `roundEven`, `roundAway`: a quotient rounded to the nearest integer, by what happens to a half.
-/

namespace TableService

/-- The quotient to the nearest integer; a half goes to the even neighbour. -/
def roundEven (num den : Nat) : Nat :=
  let q := num / den
  let r := num % den
  if 2 * r < den then q
  else if den < 2 * r then q + 1
  else q + q % 2

/-- The quotient to the nearest integer; a half goes up. -/
def roundAway (num den : Nat) : Nat :=
  let q := num / den
  if 2 * (num % den) < den then q else q + 1

/-- The number `digits / 10 ^ scale`, or its negative. Zero has a sign too. -/
structure Decimal where
  negative : Bool
  digits : Nat
  scale : Nat
  digits_lt : digits < limit96
  scale_le : scale ≤ 28
deriving DecidableEq

namespace Decimal

/-- The digits with their sign, as one whole number. -/
def coeff (d : Decimal) : Int :=
  match d.negative with
  | true => -d.digits
  | false => d.digits

/-- A number without places. -/
def whole (n : Nat) (h : n < limit96) : Decimal := ⟨false, n, 0, h, by decide⟩

@[simp] theorem coeff_whole (n : Nat) (h : n < limit96) : (whole n h).coeff = n := rfl

/-- Zero without places. -/
def zero : Decimal := whole 0 (by decide)

instance : Inhabited Decimal := ⟨zero⟩

/-- The decimal with this sign, these digits and this many places, if there is one. -/
def of? (negative : Bool) (digits scale : Nat) : Option Decimal :=
  if h : digits < limit96 ∧ scale ≤ 28 then some ⟨negative, digits, scale, h.1, h.2⟩ else none

theorem of?_eq_some_iff {negative : Bool} {digits scale : Nat} {d : Decimal} :
    of? negative digits scale = some d ↔
      d.negative = negative ∧ d.digits = digits ∧ d.scale = scale := by
  constructor
  · intro h
    simp only [of?] at h
    split at h
    · cases h; exact ⟨rfl, rfl, rfl⟩
    · cases h
  · rintro ⟨rfl, rfl, rfl⟩
    rw [of?, dif_pos ⟨d.digits_lt, d.scale_le⟩]

/-- The decimal with this coefficient and this many places, if there is one. A zero made this way is
not negative. -/
def ofParts? (coeff : Int) (scale : Nat) : Option Decimal :=
  of? (coeff < 0) coeff.natAbs scale

theorem coeff_of_ofParts? {coeff : Int} {scale : Nat} {d : Decimal}
    (h : ofParts? coeff scale = some d) : d.coeff = coeff := by
  obtain ⟨hn, hd, -⟩ := of?_eq_some_iff.1 h
  by_cases hc : coeff < 0
  · simp only [Decimal.coeff, hn, hd, hc, decide_true]; omega
  · simp only [Decimal.coeff, hn, hd, hc, decide_false]; omega

/-- The number without places, if it fits. -/
def ofInt? (n : Int) : Option Decimal :=
  ofParts? n 0

/-- Order of the numbers, whatever their places. -/
def cmp (a b : Decimal) : Ordering :=
  compare (a.coeff * Nat.pow 10 b.scale) (b.coeff * Nat.pow 10 a.scale)

/-- Gives up the fewest places of `coeff / 10 ^ scale` that leave a decimal, and rounds to what is
left of them, a half to even. -/
def fit? (coeff : Int) (scale : Nat) : Option Decimal :=
  (List.range (scale + 1)).findSome? fun dropped =>
    ofParts? (coeff.sign * roundEven coeff.natAbs (Nat.pow 10 dropped)) (scale - dropped)

/-- A product with zero has no places. -/
def mul? (a b : Decimal) : Option Decimal :=
  if a.coeff * b.coeff = 0 then some zero else fit? (a.coeff * b.coeff) (a.scale + b.scale)

/-- What a crash says when there is no product. -/
def overflowMessage : String := "Multiplication overflowed"

theorem coeff_nonneg_of_fit? {coeff : Int} {scale : Nat} {d : Decimal} (hc : 0 ≤ coeff)
    (h : fit? coeff scale = some d) : 0 ≤ d.coeff := by
  obtain ⟨dropped, -, hd⟩ := List.exists_of_findSome?_eq_some h
  rw [coeff_of_ofParts? hd]
  exact Int.mul_nonneg (Int.sign_nonneg_iff.2 hc) (Int.natCast_nonneg _)

theorem coeff_nonneg_of_mul? {a b d : Decimal} (ha : 0 ≤ a.coeff) (hb : 0 ≤ b.coeff)
    (h : a.mul? b = some d) : 0 ≤ d.coeff := by
  simp only [mul?] at h
  split at h
  · cases h; exact Int.le_refl 0
  · exact coeff_nonneg_of_fit? (Int.mul_nonneg ha hb) h

end Decimal

end TableService
