import TableService.Number.Decimal
import TableService.Text.Numeral

/-!
# Writing and reading decimal numbers

- `Decimal.text`: all places are written, so `1.10` stays `1.10`.
- `Decimal.ofText?`: reads a numeral with at most one point, in which underscores may separate
  digits, or such a numeral with a power of ten behind `e` or `E`.

Places that do not fit are rounded off, a half away from zero: the first digit that does not fit
decides. A numeral without a power of ten has no negative zero, but dividing a negative number by a
power of ten can round it to one.
-/

namespace TableService.Decimal

open Text

/-- The digits of a number with a point before the last `scale` of them. -/
def placedDigits (n scale : Nat) : List Char :=
  if scale = 0 then Numeral.ofNat n
  else
    let ds := Numeral.padded (scale + 1) n
    ds.take (ds.length - scale) ++ '.' :: ds.drop (ds.length - scale)

/-- The numeral, with a minus sign also in front of a negative zero. -/
def toChars (d : Decimal) : List Char :=
  (if d.negative then ['-'] else []) ++ placedDigits d.digits d.scale

/-- The numeral as a text. -/
def text (d : Decimal) : String :=
  String.ofList d.toChars

/-- What has been read of a numeral: its digits as one number, how many of them stand behind the
point, whether the point has come, and whether there was a digit at all. -/
structure Scan where
  coeff : Nat := 0
  scale : Nat := 0
  point : Bool := false
  digit : Bool := false

/-- Ends a numeral at the first digit that does not fit. If rounding up leaves no room either, one
more place is given up. -/
def Scan.round? (s : Scan) (next : Nat) : Option (Nat × Nat) :=
  if !s.point then none
  else if next < 5 then some (s.coeff, s.scale)
  else if s.coeff + 1 < limit96 then some (s.coeff + 1, s.scale)
  else if s.scale = 0 then none
  else some (roundAway (s.coeff + 1) 10, s.scale - 1)

/-- What may follow the digit that decides. -/
def isDropped (c : Char) : Bool :=
  c.isDigit || c == '_'

/-- Whether an underscore behind the last place that fits stands for a digit zero. It does as long
as the digits before the last one are below this bound; otherwise it is passed over like any
other. -/
def Scan.endsAtUnderscore (s : Scan) : Bool :=
  s.scale = 28 && s.coeff / 10 < 1844674407370954906

/-- Coefficient and places of a numeral without a sign. -/
def Scan.run : Scan → List Char → Option (Nat × Nat)
  | s, [] => if s.digit then some (s.coeff, s.scale) else none
  | s, c :: rest =>
    if c.isDigit then
      let next := c.toNat - '0'.toNat
      let coeff := 10 * s.coeff + next
      if limit96 ≤ coeff ∨ s.scale = 28 then
        if rest.all isDropped then s.round? next else none
      else run { s with coeff, scale := if s.point then s.scale + 1 else 0, digit := true } rest
    else if c = '.' ∧ s.point = false then run { s with point := true } rest
    else if c = '_' ∧ s.digit = true then
      if s.endsAtUnderscore then
        if rest.all isDropped then some (s.coeff, s.scale) else none
      else run s rest
    else none

/-- A numeral with an optional sign. -/
def ofPlain? (cs : List Char) : Option Decimal := do
  let (sign, digits) : Int × List Char := match cs with
    | '-' :: rest => (-1, rest)
    | '+' :: rest => (1, rest)
    | _ => (1, cs)
  let (coeff, scale) ← Scan.run {} digits
  ofParts? (sign * coeff) scale

/-- The decimal divided by `10 ^ n`: places are added, and beyond 28 of them rounded off. The sign
stays. -/
def shiftDown? (d : Decimal) (n : Nat) : Option Decimal :=
  if 28 < n then none
  else if d.scale + n ≤ 28 then of? d.negative d.digits (d.scale + n)
  else of? d.negative (roundAway d.digits (Nat.pow 10 (d.scale + n - 28))) 28

/-- The decimal multiplied by `10 ^ n`: places are taken away, then zeros appended. -/
def shiftUp? (d : Decimal) (n : Nat) : Option Decimal :=
  if n ≤ d.scale then of? d.negative d.digits (d.scale - n)
  else if 28 < n then none
  else of? d.negative (d.digits * Nat.pow 10 (n - d.scale)) 0

/-- What stands in front of a power of ten. -/
def isExponentMark (c : Char) : Bool :=
  c == 'e' || c == 'E'

/-- A numeral, an exponent mark and a whole power of ten below `2 ^ 32`. -/
def ofScientific? (cs : List Char) : Option Decimal := do
  let base ← ofPlain? (cs.takeWhile (!isExponentMark ·))
  match cs.dropWhile (!isExponentMark ·) with
  | _ :: '-' :: exponent => (Numeral.unsigned? limit32 exponent).bind base.shiftDown?
  | _ :: exponent => (Numeral.unsigned? limit32 exponent).bind base.shiftUp?
  | [] => none

/-- A numeral without a power of ten, or else one with it. -/
def ofChars? (cs : List Char) : Option Decimal :=
  (ofPlain? cs).or (ofScientific? cs)

/-- The decimal that a whole text tells, without blanks. -/
def ofText? (s : String) : Option Decimal :=
  ofChars? s.toList

example : (ofText? "-0.4e-28").map text = some "-0.0000000000000000000000000000"
    ∧ (ofText? "-0.00").map text = some "0.00" := by decide +kernel

end TableService.Decimal
