import TableService.Json.Reader
import TableService.Proofs.Text.Numerals

/-!
# Strings and whole numbers in JSON text

- `Json.Reader.units_escapeChar`: an escaped character is read as its code point.
- `Json.Reader.string?_quote`: a quoted text is read.
- `Json.Stops`: what follows does not go on with a number.
- `Json.Reader.number?_ofInt`: a whole number of 64 bits is read.
-/

namespace TableService.Json

open Text Numeral

namespace Reader

/-! ## Strings -/

theorem hexUnit?_hexPair : ∀ n < 0x20,
    hexUnit? '0' '0' (Nat.digitChar (n / 16)) (Nat.digitChar (n % 16)) = some n := by
  decide

/-- Every character is read as its code point, whether or not it is escaped. -/
theorem units_escapeChar (c : Char) {cs rest : List Char} {us : List Nat}
    (h : units cs = some (us, rest)) : units (escapeChar c ++ cs) = some (c.toNat :: us, rest) := by
  unfold escapeChar
  split
  -- seven characters have an escape of their own
  iterate 7
    · simp [units, unescape?, h]
  rename_i hquote hbackslash _ _ _ _ _
  split
  · rename_i hcontrol
    simp [units, hexPair, hexUnit?_hexPair _ hcontrol, h]
  · -- nothing else of what is read has a meaning of its own
    rename_i hplain
    have hstops : ¬ (c.toNat < 0x20 ∨ c = '\\') := not_or.mpr ⟨hplain, hbackslash⟩
    rw [List.singleton_append, units]
    · simp [hstops, h]
    · exact hquote
    · exact fun _ _ _ _ _ heq => absurd heq hbackslash
    · exact fun _ _ heq => absurd heq hbackslash

theorem units_quote (cs rest : List Char) :
    units (cs.flatMap escapeChar ++ '"' :: rest) = some (cs.map Char.toNat, rest) := by
  induction cs with
  | nil => rfl
  | cons c cs ih =>
    rw [List.flatMap_cons, List.append_assoc, units_escapeChar c ih, List.map_cons]

/-- No character is a surrogate. -/
theorem joinUnits_map_toNat (cs : List Char) : joinUnits (cs.map Char.toNat) = some cs := by
  induction cs with
  | nil => rfl
  | cons c cs ih =>
    have hscalar : c.toNat < 0xD800 ∨ 0xDFFF < c.toNat ∧ c.toNat < 0x110000 := c.valid
    rw [List.map_cons, joinUnits.eq_def]
    dsimp only
    rw [if_neg (by omega), if_neg (by omega), ih, Option.map_some, Char.ofNat_toNat]

theorem string?_quote (s : String) (rest : List Char) :
    string? (s.toList.flatMap escapeChar ++ '"' :: rest) = some (s, rest) := by
  rw [string?, units_quote]
  simp only [Option.bind_eq_bind, Option.bind_some]
  rw [joinUnits_map_toNat, Option.bind_some, String.ofList_toList]

end Reader

/-! ## Whole numbers -/

/-- What follows does not go on with a number. -/
def Stops (rest : List Char) : Prop :=
  ∀ c ∈ rest.head?, c.isDigit = false ∧ c ≠ '.' ∧ c ≠ 'e' ∧ c ≠ 'E'

namespace Reader

variable {rest : List Char}

theorem fraction?_of_stops (h : Stops rest) : fraction? rest = some (none, rest) := by
  unfold fraction?
  split
  · exact absurd rfl (h '.' rfl).2.1
  · rfl

theorem exponent?_of_stops (h : Stops rest) : exponent? rest = some (none, rest) := by
  cases rest with
  | nil => rfl
  | cons c rest =>
    obtain ⟨-, -, he, hE⟩ := h c rfl
    rw [exponent?.eq_def]
    dsimp only
    rw [if_neg (not_or.mpr ⟨he, hE⟩)]

/-- A number without a sign begins with a digit. -/
theorem ofNat_append_ne {c : Char} (hc : c.isDigit = false) (n : Nat) (rest cs : List Char) :
    ofNat n ++ rest ≠ c :: cs := by
  intro heq
  have hhead : (ofNat n ++ rest).head? = some c := by rw [heq]; rfl
  rw [List.head?_append, List.head?_eq_some_head (ofNat_ne_nil n), Option.some_or] at hhead
  have hdigit : c.isDigit = true :=
    Option.some.inj hhead ▸ isDigit_of_mem_ofNat (List.head_mem (ofNat_ne_nil n))
  rw [hc] at hdigit
  cases hdigit

theorem whole?_natAbs {n : Int} (hlow : -limit63 ≤ n) (hhigh : n < limit64) :
    whole? (decide (n < 0)) n.natAbs = some (int n) := by
  unfold whole?
  simp only [limit63, limit64] at *
  by_cases hneg : n < 0
  · have hback : -(n.natAbs : Int) = n := by omega
    rw [if_pos (decide_eq_true hneg), if_pos (by omega), hback]
  · have hback : (n.natAbs : Int) = n := by omega
    rw [if_neg (by simpa using hneg), if_pos (by omega), hback]

/-- Digits that are written without leading zeros and fit are read as the number that they are. -/
theorem number?_ofInt {n : Int} (hlow : -limit63 ≤ n) (hhigh : n < limit64) (h : Stops rest) :
    number? (ofInt n ++ rest) = some (int n, rest) := by
  have hends : EndsDigits rest := fun c hc => (h c hc).1
  have hdigits : ∀ c ∈ ofNat n.natAbs, c.isDigit = true := fun c => isDigit_of_mem_ofNat
  have hleading : ¬ ((ofNat n.natAbs).head? = some '0' ∧ ofNat n.natAbs ≠ ['0']) := by
    rintro ⟨hhead, hne⟩
    by_cases hzero : n.natAbs = 0
    · exact hne (by rw [hzero]; rfl)
    · exact head?_ofNat hzero hhead
  unfold number?
  split
  rename_i negative cs hsign
  -- the sign is taken off if there is one
  obtain ⟨rfl, rfl⟩ : negative = decide (n < 0) ∧ cs = ofNat n.natAbs ++ rest := by
    by_cases hneg : n < 0
    · rw [ofInt, if_pos hneg] at hsign
      rw [decide_eq_true hneg]
      split at hsign
      · rename_i hminus
        cases hminus
        cases hsign
        exact ⟨rfl, rfl⟩
      · rename_i hminus
        exact absurd rfl (hminus _)
    · rw [ofInt, if_neg hneg] at hsign
      rw [decide_eq_false hneg]
      split at hsign
      · rename_i hminus
        exact absurd hminus (ofNat_append_ne rfl _ _ _)
      · cases hsign
        exact ⟨rfl, rfl⟩
  dsimp only
  rw [takeWhile_append hdigits hends, dropWhile_append hdigits hends, value?_ofNat]
  simp only [Option.bind_eq_bind, Option.bind_some, if_neg hleading, fraction?_of_stops h,
    exponent?_of_stops h, whole?_natAbs hlow hhigh, Option.isNone_none, and_self, if_true,
    Option.some_or]

end Reader

end TableService.Json
