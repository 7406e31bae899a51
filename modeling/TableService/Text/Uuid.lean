import TableService.Number.Limits
import TableService.Text.Quoted

/-!
# Random identifiers

- `Uuid.text`: 122 bits as an identifier of version 4, in lower case with hyphens.
- `Uuid.isWellFormed`: whether a text is such an identifier.
-/

namespace TableService.Uuid

/-- Digits in base sixteen, filled up with zeros on the left. -/
def hexPadded (width n : Nat) : List Char :=
  let ds := Text.hexDigits n
  List.replicate (width - ds.length) '0' ++ ds

/-- Twelve digits, three behind the version, fifteen behind two bits of the variant. -/
def text (bits : Nat) : String :=
  let front := hexPadded 12 (bits % 281474976710656)
  let middle := hexPadded 3 (bits / 281474976710656 % 4096)
  let back := hexPadded 16 (limit63 + bits / 1152921504606846976 % 4611686018427387904)
  String.ofList (front.take 8 ++ '-' :: front.drop 8 ++ '-' :: '4' :: middle
    ++ '-' :: back.take 4 ++ '-' :: back.drop 4)

/-- A digit in base sixteen, not in upper case. -/
def isLowerHex (c : Char) : Bool :=
  c.isDigit || ('a' ≤ c && c ≤ 'f')

/-- What may stand at each place: a hyphen, the version, the variant, or any digit. -/
def fits (place : Nat) (c : Char) : Bool :=
  if place = 8 ∨ place = 13 ∨ place = 18 ∨ place = 23 then c = '-'
  else if place = 14 then c = '4'
  else if place = 19 then c = '8' || c = '9' || c = 'a' || c = 'b'
  else isLowerHex c

/-- Whether each of the 36 characters fits its place. -/
def isWellFormed (s : String) : Bool :=
  s.length = 36 && (s.toList.zipIdx.all fun (c, place) => fits place c)

example : isWellFormed (text 0) ∧ text 0 = "00000000-0000-4000-8000-000000000000" := by
  decide +kernel

end TableService.Uuid
