import Mathlib.Algebra.Group.Nat.Defs
import TableService.Text.Blank
import TableService.Text.Numeral

/-!
# Numerals

- `Numeral.isDigit_of_mem_padded`, `Numeral.value_padded`, `Numeral.length_padded`: a number that is
  filled up consists of digits, still has its value, and is as long as it is to be.
- `Numeral.takeWhile_append`, `Numeral.dropWhile_append`: digits are told apart from what follows.
- `Numeral.Denotes`: a text is an optional plus sign and one or more ASCII digits of some value.
- `Numeral.Denotes.unique`: it has no other value.
- `Numeral.unsigned?_eq_some_iff`: what is read is exactly such a text, of a value below the bound.
-/

namespace TableService.Text.Numeral

/-! ## What is written -/

theorem isDigit_of_mem_ofNat {n : Nat} {c : Char} (h : c ∈ ofNat n) : c.isDigit = true :=
  Nat.isDigit_of_mem_toDigits (by decide) (by decide) h

theorem isDigit_of_mem_padded {width n : Nat} {c : Char} (h : c ∈ padded width n) :
    c.isDigit = true := by
  rcases List.mem_append.mp h with h | h
  · rw [(List.mem_replicate.mp h).2]
    rfl
  · exact isDigit_of_mem_ofNat h

theorem value_padded (width n : Nat) : Nat.ofDigitChars 10 (padded width n) 0 = n := by
  rw [padded, Nat.ofDigitChars_append, Nat.ofDigitChars_replicate_zero, Nat.mul_zero]
  exact Nat.ofDigitChars_ten_toDigits

theorem width_le_length_padded (width n : Nat) : width ≤ (padded width n).length := by
  rw [padded, List.length_append, List.length_replicate]
  omega

theorem isBlank_of_isDigit {c : Char} (h : c.isDigit = true) : isBlank c = false := by
  have hc : 48 ≤ c.toNat ∧ c.toNat ≤ 57 := by
    simp only [Char.isDigit, Bool.and_eq_true, decide_eq_true_eq, ge_iff_le,
      UInt32.le_iff_toNat_le] at h
    exact h
  -- there are few code points up to the last digit, so each of them can be tried
  have hn : ∀ n : Fin 58, 48 ≤ n.val → inRanges blankRanges n.val = false := by decide
  exact hn ⟨c.toNat, by omega⟩ hc.1

theorem le_ofDigitChars (ds : List Char) (n : Nat) : n ≤ Nat.ofDigitChars 10 ds n := by
  rw [Nat.ofDigitChars_eq_ofDigitChars_zero]
  have h : 1 * n ≤ 10 ^ ds.length * n := Nat.mul_le_mul_right n (Nat.pos_of_ne_zero (by simp))
  omega

theorem length_padded {width n : Nat} (hwidth : 0 < width) (h : n < 10 ^ width) :
    (padded width n).length = width := by
  have hlength : (Nat.toDigits 10 n).length ≤ width :=
    (Nat.length_toDigits_le_iff (by decide) hwidth).mpr h
  rw [padded, List.length_append, List.length_replicate]
  exact Nat.sub_add_cancel hlength

theorem ofNat_ne_nil (n : Nat) : ofNat n ≠ [] := Nat.toDigits_ne_nil

theorem padded_ne_nil (width n : Nat) : padded width n ≠ [] :=
  List.append_ne_nil_of_right_ne_nil _ (ofNat_ne_nil n)

theorem head?_ofNat {n : Nat} (h : n ≠ 0) : (ofNat n).head? ≠ some '0' := by
  induction n using Nat.strongRecOn with
  | ind n ih =>
    rcases Nat.lt_or_ge n 10 with hlt | hge
    · have hone : ∀ n < 10, n ≠ 0 → (Nat.toDigits 10 n).head? ≠ some '0' := by decide
      exact hone n hlt h
    · -- the last digit is not the first one
      have hfirst : (ofNat n).head? = (ofNat (n / 10)).head? := by
        rw [ofNat, Nat.toDigits_of_base_le (by decide) hge, List.head?_append,
          List.head?_eq_some_head Nat.toDigits_ne_nil, Option.some_or]
        exact (List.head?_eq_some_head Nat.toDigits_ne_nil).symm
      rw [hfirst]
      exact ih (n / 10) (by omega) (by omega)

/-! ## Digits in front of something else -/

/-- The text does not go on with a digit. -/
def EndsDigits (rest : List Char) : Prop := ∀ c ∈ rest.head?, c.isDigit = false

variable {ds rest : List Char}

theorem value?_of_isDigit (hne : ds ≠ []) (hds : ∀ c ∈ ds, c.isDigit = true) :
    value? ds = some (Nat.ofDigitChars 10 ds 0) := by
  rw [value?, if_pos ⟨hne, List.all_eq_true.mpr hds⟩]

theorem takeWhile_append (hds : ∀ c ∈ ds, c.isDigit = true) (hrest : EndsDigits rest) :
    (ds ++ rest).takeWhile Char.isDigit = ds := by
  rw [List.takeWhile_append_of_pos hds]
  cases rest with
  | nil => exact List.append_nil ds
  | cons c rest =>
    have hc : c.isDigit = false := hrest c rfl
    rw [List.takeWhile_cons_of_neg (Bool.eq_false_iff.mp hc), List.append_nil]

theorem dropWhile_append (hds : ∀ c ∈ ds, c.isDigit = true) (hrest : EndsDigits rest) :
    (ds ++ rest).dropWhile Char.isDigit = rest := by
  rw [List.dropWhile_append_of_pos hds]
  cases rest with
  | nil => rfl
  | cons c rest => exact List.dropWhile_cons_of_neg (Bool.eq_false_iff.mp (hrest c rfl))

/-! ## What is read -/

/-- Behind an optional plus sign stand one or more ASCII digits, whose value is `n`. There may be
any number of leading zeros. -/
def Denotes (cs : List Char) (n : Nat) : Prop :=
  ∃ ds, (cs = ds ∨ cs = '+' :: ds) ∧ ds ≠ [] ∧ (∀ c ∈ ds, '0' ≤ c ∧ c ≤ '9') ∧
    n = Nat.ofDigitChars 10 ds 0

theorem isDigit_iff (c : Char) : c.isDigit = true ↔ '0' ≤ c ∧ c ≤ '9' := by
  simp [Char.isDigit, Char.le_def]

theorem value?_eq_some_iff {ds : List Char} {n : Nat} :
    value? ds = some n ↔
      ds ≠ [] ∧ (∀ c ∈ ds, '0' ≤ c ∧ c ≤ '9') ∧ n = Nat.ofDigitChars 10 ds 0 := by
  simp only [← isDigit_iff, ← List.all_eq_true]
  rw [value?]
  split
  · rename_i h
    rw [Option.some.injEq]
    exact ⟨fun heq => ⟨h.1, h.2, heq.symm⟩, fun heq => heq.2.2.symm⟩
  · rename_i h
    exact iff_of_false (by simp) fun hds => h ⟨hds.1, hds.2.1⟩

theorem denotes_iff_of_plus {ds : List Char} {n : Nat} :
    Denotes ('+' :: ds) n ↔ value? ds = some n := by
  rw [value?_eq_some_iff]
  constructor
  · rintro ⟨ds', rfl | heq, h⟩
    · -- a plus sign is no digit
      exact absurd (h.2.1 '+' List.mem_cons_self) (by decide)
    · cases heq
      exact h
  · exact fun h => ⟨ds, .inr rfl, h⟩

theorem denotes_iff_of_ne {cs : List Char} {n : Nat} (h : ∀ ds, cs ≠ '+' :: ds) :
    Denotes cs n ↔ value? cs = some n := by
  rw [value?_eq_some_iff]
  constructor
  · rintro ⟨ds, rfl | heq, hds⟩
    · exact hds
    · exact absurd heq (h ds)
  · exact fun hcs => ⟨cs, .inl rfl, hcs⟩

/-- Reading accepts exactly the numerals below the bound. -/
theorem unsigned?_eq_some_iff {bound n : Nat} {cs : List Char} :
    unsigned? bound cs = some n ↔ Denotes cs n ∧ n < bound := by
  unfold unsigned?
  simp only
  split
  · rw [denotes_iff_of_plus]
    simp [Option.filter_eq_some_iff]
  · rename_i h
    rw [denotes_iff_of_ne fun ds => h ds]
    simp [Option.filter_eq_some_iff]

theorem unsigned?_eq_none_iff {bound : Nat} {cs : List Char} :
    unsigned? bound cs = none ↔ ∀ n < bound, ¬ Denotes cs n := by
  rw [Option.eq_none_iff_forall_not_mem]
  refine forall_congr' fun n => ?_
  rw [Option.mem_def, unsigned?_eq_some_iff]
  exact ⟨fun h hlt hn => h ⟨hn, hlt⟩, fun h hn => h hn.2 hn.1⟩

theorem Denotes.unique {cs : List Char} {m n : Nat} (hm : Denotes cs m) (hn : Denotes cs n) :
    m = n := by
  -- both are read below any bound that is large enough
  have hreadm : unsigned? (m + n + 1) cs = some m := unsigned?_eq_some_iff.mpr ⟨hm, by omega⟩
  have hreadn : unsigned? (m + n + 1) cs = some n := unsigned?_eq_some_iff.mpr ⟨hn, by omega⟩
  rw [hreadm] at hreadn
  exact Option.some.inj hreadn

end TableService.Text.Numeral
