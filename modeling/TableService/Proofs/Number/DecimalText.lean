import TableService.Number.DecimalText
import TableService.Proofs.Text.Numerals
import TableService.Proofs.Text.Trim

/-!
# Decimal numbers are read as they were written

- `Decimal.plain`: a decimal without the sign of a negative zero. It is the same number, with the
  same places.
- `Scan.run_whole`, `Scan.run_places`: what a scan makes of digits that fit.
- `text_injective`: different decimals are written differently.
- `ofChars?_toChars`: a decimal that has been written is read back plain.
- `trimChars_toChars`: there are no blanks around it.
-/

namespace TableService.Decimal

open Text Numeral

/-- A decimal without the sign of a negative zero. -/
def plain (d : Decimal) : Decimal := { d with negative := d.negative && d.digits ≠ 0 }

@[simp] theorem coeff_plain (d : Decimal) : d.plain.coeff = d.coeff := by
  obtain ⟨negative, digits, scale, _, _⟩ := d
  cases negative with
  | false => rfl
  | true =>
    by_cases h : digits = 0
    · simp [plain, coeff, h]
    · simp [plain, coeff, h]

/-- Whether a zero is negative makes no difference to the number. -/
theorem cmp_plain (d : Decimal) : d.plain.cmp d = .eq := by
  simp [cmp, plain, ← coeff_plain d]

theorem mul?_plain (d q : Decimal) : d.plain.mul? q = d.mul? q := by
  simp only [mul?, coeff_plain]
  rfl

theorem ofParts?_coeff (d : Decimal) : ofParts? d.coeff d.scale = some d.plain := by
  obtain ⟨negative, digits, scale, hd, hs⟩ := d
  rw [ofParts?, of?_eq_some_iff]
  cases negative with
  | false =>
    refine ⟨?_, rfl, rfl⟩
    simp only [plain, coeff, Bool.false_and]
    exact (decide_eq_false (by omega)).symm
  | true => simp [plain, coeff, Nat.pos_iff_ne_zero]

/-! ## Scanning digits -/

/-- Before the point, a scan takes in one digit after the other as long as they fit. -/
theorem Scan.run_whole {coeff : Nat} {digit : Bool} (ds rest : List Char)
    (hd : ∀ c ∈ ds, c.isDigit = true) (hfits : Nat.ofDigitChars 10 ds coeff < limit96) :
    Scan.run ⟨coeff, 0, false, digit⟩ (ds ++ rest) =
      Scan.run ⟨Nat.ofDigitChars 10 ds coeff, 0, false, digit || !ds.isEmpty⟩ rest := by
  induction ds generalizing coeff digit with
  | nil => simp
  | cons c ds ih =>
    have hc : c.isDigit = true := hd c List.mem_cons_self
    rw [Nat.ofDigitChars_cons] at hfits ⊢
    -- the digits that follow only add to the coefficient, so there is room for this one
    have hroom : ¬ (limit96 ≤ 10 * coeff + (c.toNat - '0'.toNat) ∨ 0 = 28) := by
      have := Nat.lt_of_le_of_lt (le_ofDigitChars ds _) hfits
      omega
    rw [List.cons_append, Scan.run]
    simp only [hc, if_true, hroom, if_false, Bool.false_eq_true]
    rw [ih (fun c' h => hd c' (List.mem_cons_of_mem _ h)) hfits]
    simp

/-- Behind the point it counts them too. -/
theorem Scan.run_places {coeff scale : Nat} {digit : Bool} (ds rest : List Char)
    (hd : ∀ c ∈ ds, c.isDigit = true) (hfits : Nat.ofDigitChars 10 ds coeff < limit96)
    (hplaces : scale + ds.length ≤ 28) :
    Scan.run ⟨coeff, scale, true, digit⟩ (ds ++ rest) =
      Scan.run
        ⟨Nat.ofDigitChars 10 ds coeff, scale + ds.length, true, digit || !ds.isEmpty⟩ rest := by
  induction ds generalizing coeff scale digit with
  | nil => simp
  | cons c ds ih =>
    have hc : c.isDigit = true := hd c List.mem_cons_self
    rw [List.length_cons] at hplaces ⊢
    rw [Nat.ofDigitChars_cons] at hfits ⊢
    have hroom : ¬ (limit96 ≤ 10 * coeff + (c.toNat - '0'.toNat) ∨ scale = 28) := by
      have := Nat.lt_of_le_of_lt (le_ofDigitChars ds _) hfits
      omega
    rw [List.cons_append, Scan.run]
    simp only [hc, if_true, hroom, if_false]
    rw [ih (fun c' h => hd c' (List.mem_cons_of_mem _ h)) hfits (by omega)]
    simp [Nat.add_assoc, Nat.add_comm 1]

theorem Scan.run_point (coeff : Nat) (digit : Bool) (rest : List Char) :
    Scan.run ⟨coeff, 0, false, digit⟩ ('.' :: rest) = Scan.run ⟨coeff, 0, true, digit⟩ rest := by
  rw [Scan.run]
  rfl

theorem Scan.run_end (coeff scale : Nat) (point : Bool) :
    Scan.run ⟨coeff, scale, point, true⟩ [] = some (coeff, scale) := rfl

theorem isEmpty_eq_false {ds : List Char} (h : 0 < ds.length) : ds.isEmpty = false := by
  cases ds with
  | nil => cases h
  | cons c rest => rfl

/-- Digits with a point before the last of them are scanned as they were placed. -/
theorem run_placedDigits {digits scale : Nat} (hdigits : digits < limit96) (hscale : scale ≤ 28) :
    Scan.run {} (placedDigits digits scale) = some (digits, scale) := by
  rw [placedDigits]
  split
  · -- without places there is no point
    rename_i h
    subst h
    have hval : Nat.ofDigitChars 10 (Numeral.ofNat digits) 0 = digits :=
      Nat.ofDigitChars_ten_toDigits
    have hrun : Scan.run ⟨0, 0, false, false⟩ (Numeral.ofNat digits ++ []) = _ :=
      Scan.run_whole (Numeral.ofNat digits) [] (fun c => isDigit_of_mem_ofNat)
        (by rw [hval]; exact hdigits)
    have hsome : (Numeral.ofNat digits).isEmpty = false := isEmpty_eq_false Nat.length_toDigits_pos
    rw [List.append_nil, hval, hsome] at hrun
    exact hrun
  · have hval := value_padded (scale + 1) digits
    have hlen := width_le_length_padded (scale + 1) digits
    have hdigit : ∀ c ∈ Numeral.padded (scale + 1) digits, c.isDigit = true :=
      fun c => isDigit_of_mem_padded
    generalize Numeral.padded (scale + 1) digits = ds at hval hlen hdigit
    -- one digit more than there are places, so some of them stand before the point
    show Scan.run {} (ds.take (ds.length - scale) ++ '.' :: ds.drop (ds.length - scale)) = _
    have hplaces : (ds.drop (ds.length - scale)).length = scale := by
      rw [List.length_drop]
      omega
    have hwhole : 0 < (ds.take (ds.length - scale)).length := by
      rw [List.length_take]
      omega
    rw [← List.take_append_drop (ds.length - scale) ds, Nat.ofDigitChars_append] at hval
    have hfits : Nat.ofDigitChars 10 (ds.take (ds.length - scale)) 0 < limit96 := by
      have := le_ofDigitChars (ds.drop (ds.length - scale))
        (Nat.ofDigitChars 10 (ds.take (ds.length - scale)) 0)
      omega
    rw [Scan.run_whole _ _ (fun c hc => hdigit c (List.mem_of_mem_take hc)) hfits, Scan.run_point,
      ← List.append_nil (ds.drop _), Scan.run_places _ _
        (fun c hc => hdigit c (List.mem_of_mem_drop hc))
        (by rw [hval]; exact hdigits) (by omega), hval, hplaces, isEmpty_eq_false hwhole]
    simp [Scan.run_end]

/-! ## Reading what was written -/

theorem mem_placedDigits {digits scale : Nat} {c : Char} (h : c ∈ placedDigits digits scale) :
    c.isDigit = true ∨ c = '.' := by
  rw [placedDigits] at h
  split at h
  · exact .inl (isDigit_of_mem_ofNat h)
  · rcases List.mem_append.mp h with h | h
    · exact .inl (isDigit_of_mem_padded (List.mem_of_mem_take h))
    · rcases List.mem_cons.mp h with rfl | h
      · exact .inr rfl
      · exact .inl (isDigit_of_mem_padded (List.mem_of_mem_drop h))

/-- Without a sign in front, a numeral is the number that is scanned. -/
theorem ofPlain?_of_unsigned {cs : List Char} (h : ∀ c ∈ cs, c.isDigit = true ∨ c = '.') :
    ofPlain? cs = (Scan.run {} cs).bind fun p => ofParts? p.1 p.2 := by
  have hplus : ∀ p : Nat × Nat, ofParts? (1 * (p.1 : Int)) p.2 = ofParts? p.1 p.2 :=
    fun p => by rw [Int.one_mul]
  have hunsigned : ofPlain? cs = (Scan.run {} cs).bind fun p => ofParts? (1 * (p.1 : Int)) p.2 := by
    unfold ofPlain?
    split
    -- neither sign is a digit or the point
    rename_i sign digits hsign
    split at hsign
    · have hminus := h '-' List.mem_cons_self
      simp at hminus
    · have hplus := h '+' List.mem_cons_self
      simp at hplus
    · cases hsign
      rfl
  rw [hunsigned]
  exact congrArg (Option.bind (Scan.run {} cs)) (funext hplus)

theorem ofPlain?_toChars (d : Decimal) : ofPlain? d.toChars = some d.plain := by
  have hscan := run_placedDigits d.digits_lt d.scale_le
  rw [← ofParts?_coeff]
  cases hn : d.negative with
  | true =>
    have hcoeff : d.coeff = -1 * (d.digits : Int) := by simp [coeff, hn]
    simp only [toChars, hn, if_true, List.cons_append, List.nil_append, ofPlain?, hcoeff]
    rw [hscan]
    rfl
  | false =>
    -- the first character is a digit or the point, so no sign is taken off
    have hcoeff : d.coeff = d.digits := by simp [coeff, hn]
    simp only [toChars, hn, Bool.false_eq_true, if_false, List.nil_append]
    rw [ofPlain?_of_unsigned fun c => mem_placedDigits, hscan, hcoeff]
    rfl

/-- Only a negative number is written with a sign. -/
theorem minus_mem_toChars (d : Decimal) : '-' ∈ d.toChars ↔ d.negative = true := by
  have hplaced : '-' ∉ placedDigits d.digits d.scale := by
    intro h
    have hminus := mem_placedDigits h
    simp at hminus
  cases hn : d.negative with
  | true => simp [toChars, hn]
  | false => simp [toChars, hn, hplaced]

/-- Different decimals are written differently, even if they are the same number. -/
theorem text_injective : Function.Injective text := by
  intro a b h
  have hchars : a.toChars = b.toChars := String.ofList_injective h
  -- the sign can be read off the text, and then the digits and places off a scan of the rest
  have hsign : a.negative = b.negative := by
    rw [Bool.eq_iff_iff, ← minus_mem_toChars, ← minus_mem_toChars, hchars]
  have hplaced : placedDigits a.digits a.scale = placedDigits b.digits b.scale := by
    rw [toChars, toChars, hsign] at hchars
    exact List.append_cancel_left hchars
  have hscan := run_placedDigits a.digits_lt a.scale_le
  rw [hplaced, run_placedDigits b.digits_lt b.scale_le] at hscan
  obtain ⟨hdigits, hscale⟩ := Prod.ext_iff.mp (Option.some.inj hscan)
  obtain ⟨negative, digits, scale, hlt, hle⟩ := a
  obtain ⟨negative', digits', scale', hlt', hle'⟩ := b
  obtain rfl : negative = negative' := hsign
  obtain rfl : digits' = digits := hdigits
  obtain rfl : scale' = scale := hscale
  rfl

/-- A decimal that has been written is read back, but for the sign of a zero. -/
theorem ofChars?_toChars (d : Decimal) : ofChars? d.toChars = some d.plain := by
  rw [ofChars?, ofPlain?_toChars]
  rfl

/-- There are no blanks around a decimal. -/
theorem trimChars_toChars (d : Decimal) : trimChars d.toChars = d.toChars := by
  have hsolid : ∀ c ∈ d.toChars, isBlank c = false := by
    intro c hc
    rcases List.mem_append.mp hc with hc | hc
    · split at hc
      · rw [List.mem_singleton.mp hc]
        decide
      · cases hc
    · rcases mem_placedDigits hc with h | rfl
      · exact isBlank_of_isDigit h
      · decide
  exact trimChars_eq_self (fun c hc => hsolid c (List.mem_of_mem_head? hc))
    fun c hc => hsolid c (List.mem_of_mem_getLast? hc)

end TableService.Decimal
