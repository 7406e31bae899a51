import TableService.Number.Limits

/-!
# Words of 64 bits

- `Word.bit?`: the word in which one bit is set.
- `Word.times`: the product of two words, cut to the greatest word.
- `Word.signed?`: a word as a signed one.

No result wraps: what does not fit is cut or refused.
-/

namespace TableService.Word

/-- The word in which all bits are set. -/
def greatest : UInt64 := 18446744073709551615

/-- There are bits from 0 to 63. -/
def bit? (n : UInt32) : Option UInt64 :=
  if n < 64 then some (1 <<< n.toUInt64) else none

/-- The exact product if it is a word. -/
def times (a b : UInt64) : UInt64 :=
  if a.toNat * b.toNat < limit64 then a * b else greatest

/-- The upper half of the words has no place among the signed ones. -/
def signed? (a : UInt64) : Option Int :=
  if a.toNat < limit63 then some a.toNat else none

@[simp] theorem toNat_greatest : greatest.toNat = limit64 - 1 := rfl

/-- A bit that a word does not have is worth more than any word. -/
theorem toNat_getD_bit? (n : UInt32) :
    ((bit? n).getD greatest).toNat = min (1 <<< n.toNat) (limit64 - 1) := by
  unfold bit?
  have hbit : n < 64 ↔ n.toNat < 64 := UInt32.lt_iff_toNat_lt
  split
  · rename_i hlt
    have hn := hbit.mp hlt
    have hfits : 1 <<< n.toNat < limit64 := by
      rw [Nat.one_shiftLeft]
      exact Nat.pow_lt_pow_right Nat.one_lt_two hn
    rw [Option.getD_some, UInt64.toNat_shiftLeft, UInt32.toNat_toUInt64, Nat.mod_eq_of_lt hn,
      UInt64.toNat_one, Nat.mod_eq_of_lt hfits]
    exact (Nat.min_eq_left (Nat.le_pred_of_lt hfits)).symm
  · rename_i hge
    have hn : 64 ≤ n.toNat := Nat.not_lt.mp fun h => hge (hbit.mpr h)
    have hlarge : limit64 ≤ 1 <<< n.toNat := by
      rw [Nat.one_shiftLeft]
      exact Nat.pow_le_pow_right Nat.two_pos hn
    rw [Option.getD_none, toNat_greatest]
    exact (Nat.min_eq_right (Nat.le_trans (Nat.sub_le ..) hlarge)).symm

theorem toNat_times (a b : UInt64) : (times a b).toNat = min (a.toNat * b.toNat) (limit64 - 1) := by
  unfold times
  split
  · rename_i hlt
    rw [UInt64.toNat_mul, Nat.mod_eq_of_lt hlt]
    exact (Nat.min_eq_left (Nat.le_pred_of_lt hlt)).symm
  · rename_i hge
    rw [toNat_greatest]
    exact (Nat.min_eq_right (Nat.le_trans (Nat.sub_le ..) (Nat.not_lt.mp hge))).symm

end TableService.Word
