import TableService.Text.Unprintable

/-!
# Quoted text

- `quote`: a text between double quotes, for a message that must show every character of it.
- `hexDigits`: a number in base sixteen, as escapes write it.

The quote, the backslash, tab, newline, carriage return and the null character have short escapes.
A single quote stands for itself. What is not printable is written by its code point.
-/

namespace TableService.Text

/-- Lower-case digits in base sixteen, without leading zeros. -/
def hexDigits (n : Nat) : List Char :=
  Nat.toDigits 16 n

/-- A character as it is shown between the quotes. -/
def quoteChar (c : Char) : List Char :=
  match c with
  | '"' => ['\\', '"']
  | '\\' => ['\\', '\\']
  | '\t' => ['\\', 't']
  | '\n' => ['\\', 'n']
  | '\r' => ['\\', 'r']
  | _ =>
    if c = Char.ofNat 0 then ['\\', '0']
    else if isPrintable c then [c]
    else ['\\', 'u', '\x7b'] ++ hexDigits c.toNat ++ ['\x7d']

/-- The text between quotes. -/
def quote (s : String) : String :=
  String.ofList ('"' :: s.toList.flatMap quoteChar ++ ['"'])

example : quote "1'\t\u200b7" = "\"1'\\t\\u\x7b200b\x7d7\"" := by decide +kernel

end TableService.Text
