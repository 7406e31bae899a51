import TableService.Json.Basic
import TableService.Text.Quoted

/-!
# Compact JSON text

- `Json.quote`: a text as a JSON string. The quote, the backslash and control characters are
  escaped; everything else stands for itself.
- `Json.numberLayout`: floating-point numbers are written positionally from `0.00001` up to below
  `10 ^ 16`, always show that they are not whole numbers, and a tie goes to the even digit.
- `Json.text`: a value without any space.
-/

namespace TableService.Json

open Text

/-- Two digits in base sixteen. -/
def hexPair (n : Nat) : List Char :=
  [Nat.digitChar (n / 16), Nat.digitChar (n % 16)]

/-- Five control characters have short escapes, the others are written in base sixteen. -/
def escapeChar (c : Char) : List Char :=
  match c with
  | '"' => ['\\', '"']
  | '\\' => ['\\', '\\']
  | '\x08' => ['\\', 'b']
  | '\x0c' => ['\\', 'f']
  | '\n' => ['\\', 'n']
  | '\r' => ['\\', 'r']
  | '\t' => ['\\', 't']
  | _ => if c.toNat < 0x20 then ['\\', 'u', '0', '0'] ++ hexPair c.toNat else [c]

/-- The text between quotes. -/
def quote (s : String) : List Char :=
  '"' :: s.toList.flatMap escapeChar ++ ['"']

/-- A leading digit from the fifth place behind the point up to the sixteenth in front of it is
written positionally. -/
def numberLayout : Layout := ⟨fun e => -5 ≤ e ∧ e < 16, true, .toEven⟩

/-- The shortest numeral that reads back. -/
def floatChars (x : Binary64) : List Char :=
  x.render numberLayout

mutual

/-- A value. -/
def toChars : Json → List Char
  | null => ['n', 'u', 'l', 'l']
  | bool true => ['t', 'r', 'u', 'e']
  | bool false => ['f', 'a', 'l', 's', 'e']
  | int n => Numeral.ofInt n
  | float x => floatChars x
  | str s => quote s
  | arr items => '[' :: itemChars items ++ [']']
  | obj fields => '\x7b' :: fieldChars fields ++ ['\x7d']

/-- Values with a comma between each two of them. -/
def itemChars : List Json → List Char
  | [] => []
  | [v] => toChars v
  | v :: rest => toChars v ++ ',' :: itemChars rest

/-- Keys and values with a comma between each two pairs. -/
def fieldChars : List (String × Json) → List Char
  | [] => []
  | [(k, v)] => quote k ++ ':' :: toChars v
  | (k, v) :: rest => quote k ++ ':' :: toChars v ++ ',' :: fieldChars rest

end

/-- The value as a text. -/
def text (v : Json) : String :=
  String.ofList v.toChars

example : (obj [("z", int 1), ("a", arr [null, bool true, str "\"\x01"])]).text
    = "\x7b\"z\":1,\"a\":[null,true,\"\\\"\\u0001\"]\x7d" := by decide +kernel

end TableService.Json
