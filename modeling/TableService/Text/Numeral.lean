/-!
# Numerals in base ten

- `ofNat`, `ofInt`: the digits of a number, with a minus sign in front of a negative one; `natText`
  and `intText` are the same as strings.
- `value?`: the value of one or more ASCII digits.
- `unsigned?`: the same with an optional plus sign, below a bound.
-/

namespace TableService.Text.Numeral

/-- Digits without leading zeros; zero is a single `0`. -/
def ofNat (n : Nat) : List Char :=
  Nat.toDigits 10 n

/-- The digits of the size, behind a minus sign for a negative number. -/
def ofInt (n : Int) : List Char :=
  if n < 0 then '-' :: ofNat n.natAbs else ofNat n.natAbs

/-- A natural number as a text. -/
def natText (n : Nat) : String :=
  String.ofList (ofNat n)

/-- A whole number as a text. -/
def intText (n : Int) : String :=
  String.ofList (ofInt n)

/-- Digits of `n`, filled up with zeros on the left to at least `width` of them. -/
def padded (width n : Nat) : List Char :=
  let ds := ofNat n
  List.replicate (width - ds.length) '0' ++ ds

/-- Any number of leading zeros is allowed, and nothing but ASCII digits. -/
def value? (cs : List Char) : Option Nat :=
  if cs ≠ [] ∧ cs.all Char.isDigit then some (Nat.ofDigitChars 10 cs 0) else none

/-- One optional plus sign, then digits whose value stays below `bound`. -/
def unsigned? (bound : Nat) (cs : List Char) : Option Nat :=
  let digits := match cs with
    | '+' :: rest => rest
    | _ => cs
  (value? digits).filter (· < bound)

theorem value?_ofNat (n : Nat) : value? (ofNat n) = some n := by
  have h : ∀ c ∈ Nat.toDigits 10 n, c.isDigit = true := fun c hc =>
    Nat.isDigit_of_mem_toDigits (by decide) (by decide) hc
  have hne : Nat.toDigits 10 n ≠ [] := Nat.toDigits_ne_nil
  simp only [value?, ofNat, ne_eq, hne, not_false_eq_true, true_and, List.all_eq_true]
  rw [if_pos h, Nat.ofDigitChars_ten_toDigits]

example : unsigned? 100 "+007".toList = some 7 := by decide +kernel

example : unsigned? 100 "100".toList = none := by decide +kernel

end TableService.Text.Numeral
