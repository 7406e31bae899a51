import TableService.Json.Printer
import TableService.Number.Limits
import TableService.Sequence.Keyed

/-!
# Reading JSON text

- `Json.ofText?`: the value that a text holds, with blanks allowed between its parts. A repeated key
  keeps its first place and takes its last value.
- `Json.Reader.number?`: a whole number of 64 bits is kept exactly; any other number becomes a
  floating-point number.

Each reader takes what it can use from the front and returns the rest.
-/

namespace TableService.Json

namespace Reader

open Text

/-- The text behind spaces, tabs and line ends. -/
def skip (cs : List Char) : List Char :=
  cs.dropWhile fun c => c == ' ' || c == '\t' || c == '\n' || c == '\r'

/-- The value of a digit in base sixteen, of either case. -/
def hexValue? (c : Char) : Option Nat :=
  if c.isDigit then some (c.toNat - '0'.toNat)
  else if 'a' ≤ c ∧ c ≤ 'f' then some (c.toNat - 'a'.toNat + 10)
  else if 'A' ≤ c ∧ c ≤ 'F' then some (c.toNat - 'A'.toNat + 10)
  else none

/-- The value of four digits in base sixteen. -/
def hexUnit? (a b c d : Char) : Option Nat := do
  some ((((← hexValue? a) * 16 + (← hexValue? b)) * 16 + (← hexValue? c)) * 16 + (← hexValue? d))

/-- The character that a short escape stands for. -/
def unescape? : Char → Option Char
  | '"' => some '"'
  | '\\' => some '\\'
  | '/' => some '/'
  | 'b' => some '\x08'
  | 'f' => some '\x0c'
  | 'n' => some '\n'
  | 'r' => some '\r'
  | 't' => some '\t'
  | _ => none

/-- The code points and escaped units of a string up to its closing quote. -/
def units : List Char → Option (List Nat × List Char)
  | [] => none
  | '"' :: rest => some ([], rest)
  | '\\' :: 'u' :: a :: b :: c :: d :: rest => do
    let unit ← hexUnit? a b c d
    let (more, rest) ← units rest
    some (unit :: more, rest)
  | '\\' :: c :: rest => do
    let c ← unescape? c
    let (more, rest) ← units rest
    some (c.toNat :: more, rest)
  | c :: rest =>
    if c.toNat < 0x20 ∨ c = '\\' then none
    else do
      let (more, rest) ← units rest
      some (c.toNat :: more, rest)

/-- Joins each high surrogate with the low one that must follow it. -/
def joinUnits : List Nat → Option (List Char)
  | [] => some []
  | u :: rest =>
    if 0xD800 ≤ u ∧ u < 0xDC00 then
      match rest with
      | l :: rest =>
        if 0xDC00 ≤ l ∧ l < 0xE000 then
          (joinUnits rest).map (Char.ofNat (0x10000 + (u - 0xD800) * 0x400 + (l - 0xDC00)) :: ·)
        else none
      | [] => none
    else if 0xDC00 ≤ u ∧ u < 0xE000 then none
    else (joinUnits rest).map (Char.ofNat u :: ·)

/-- A string whose opening quote has been read. -/
def string? (cs : List Char) : Option (String × List Char) := do
  let (us, rest) ← units cs
  some (String.ofList (← joinUnits us), rest)

/-- Digits behind a point, if there is a point. -/
def fraction? : List Char → Option (Option (List Char) × List Char)
  | '.' :: rest =>
    let digits := rest.takeWhile Char.isDigit
    if digits = [] then none else some (some digits, rest.dropWhile Char.isDigit)
  | cs => some (none, cs)

/-- The power of ten behind an exponent mark, if there is a mark. -/
def exponent? : List Char → Option (Option Int × List Char)
  | [] => some (none, [])
  | c :: rest =>
    if c = 'e' ∨ c = 'E' then
      let (sign, rest) : Int × List Char := match rest with
        | '-' :: rest => (-1, rest)
        | '+' :: rest => (1, rest)
        | _ => (1, rest)
      (Numeral.value? (rest.takeWhile Char.isDigit)).map fun n =>
        (some (sign * n), rest.dropWhile Char.isDigit)
    else some (none, c :: rest)

/-- A significand of 64 bits and its power of ten. Once a digit does not fit, it and those behind it
are dropped: in front of the point each one counts in the power of ten. -/
structure Significand where
  value : Nat := 0
  exponent : Int := 0
  full : Bool := false

/-- Takes in a digit in front of the point. -/
def Significand.whole (s : Significand) (c : Char) : Significand :=
  let value := 10 * s.value + (c.toNat - '0'.toNat)
  if s.full ∨ limit64 ≤ value then { s with exponent := s.exponent + 1, full := true }
  else { s with value }

/-- Takes in a digit behind the point. -/
def Significand.fraction (s : Significand) (c : Char) : Significand :=
  let value := 10 * s.value + (c.toNat - '0'.toNat)
  if s.full ∨ limit64 ≤ value then { s with full := true }
  else { s with value, exponent := s.exponent - 1 }

/-- A whole number without point and mark stays one if it fits in 64 bits. There is no negative zero
among the whole numbers. -/
def whole? (negative : Bool) (n : Nat) : Option Json :=
  if negative then
    if 0 < n ∧ n ≤ limit63 then some (int (-n)) else none
  else if n < limit64 then some (int n) else none

/-- The floating-point number of a numeral, unless it is too large. Dropped digits in front of the
point do not keep those behind it from being tried. -/
def float? (negative : Bool) (whole fraction : List Char) (exponent : Int) : Option Json :=
  let s := whole.foldl Significand.whole {}
  let s := fraction.foldl Significand.fraction { s with full := false }
  (Binary64.ofNumeral? s.value.toUInt64 (s.exponent + exponent)).map fun x =>
    float (if negative then x.neg else x)

/-- A number. A zero in front stands alone. -/
def number? (cs : List Char) : Option (Json × List Char) := do
  let (negative, cs) := match cs with
    | '-' :: rest => (true, rest)
    | _ => (false, cs)
  let whole := cs.takeWhile Char.isDigit
  let n ← Numeral.value? whole
  if whole.head? = some '0' ∧ whole ≠ ['0'] then none
  let (fraction, cs) ← fraction? (cs.dropWhile Char.isDigit)
  let (exponent, cs) ← exponent? cs
  let exact := if fraction.isNone ∧ exponent.isNone then whole? negative n else none
  let v ← exact.or (float? negative whole (fraction.getD []) (exponent.getD 0))
  some (v, cs)

mutual

/-- A value; `fuel` bounds the depth and the number of the values inside it. -/
def value? : Nat → List Char → Option (Json × List Char)
  | 0, _ => none
  | fuel + 1, cs =>
    match skip cs with
    | 'n' :: 'u' :: 'l' :: 'l' :: rest => some (null, rest)
    | 't' :: 'r' :: 'u' :: 'e' :: rest => some (bool true, rest)
    | 'f' :: 'a' :: 'l' :: 's' :: 'e' :: rest => some (bool false, rest)
    | '"' :: rest => (string? rest).map fun (s, rest) => (str s, rest)
    | '[' :: rest =>
      match skip rest with
      | ']' :: rest => some (arr [], rest)
      | rest => (items? fuel rest).map fun (vs, rest) => (arr vs, rest)
    | '\x7b' :: rest =>
      match skip rest with
      | '\x7d' :: rest => some (obj [], rest)
      | rest => (pairs? fuel rest).map fun (ps, rest) => (obj (putAll ps), rest)
    | cs => number? cs

/-- One or more values up to the closing bracket. -/
def items? : Nat → List Char → Option (List Json × List Char)
  | 0, _ => none
  | fuel + 1, cs => do
    let (v, cs) ← value? fuel cs
    match skip cs with
    | ']' :: rest => some ([v], rest)
    | ',' :: rest => (items? fuel rest).map fun (vs, rest) => (v :: vs, rest)
    | _ => none

/-- One or more keys and values up to the closing brace. -/
def pairs? : Nat → List Char → Option (List (String × Json) × List Char)
  | 0, _ => none
  | fuel + 1, cs =>
    match skip cs with
    | '"' :: cs => do
      let (k, cs) ← string? cs
      match skip cs with
      | ':' :: cs =>
        let (v, cs) ← value? fuel cs
        match skip cs with
        | '\x7d' :: rest => some ([(k, v)], rest)
        | ',' :: rest => (pairs? fuel rest).map fun (ps, rest) => ((k, v) :: ps, rest)
        | _ => none
      | _ => none
    | _ => none

end

end Reader

/-- Reads a value and nothing behind it but blanks. Each step into a value takes a character, so the
length of the text is fuel enough. -/
def ofText? (s : String) : Option Json :=
  match Reader.value? (2 * s.length + 1) s.toList with
  | some (v, rest) => if Reader.skip rest = [] then some v else none
  | none => none

example : (ofText? " [1, -0, 1.50e1 ,\"\\ud83d\\ude00\"]").map text
    = some "[1,-0.0,15.0,\"😀\"]" := by
  decide +kernel

end TableService.Json
