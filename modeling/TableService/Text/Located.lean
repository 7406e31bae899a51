import TableService.Number.Limits
import TableService.Text.Numeral

/-!
# Texts with a position at the end

- `Located`: a text, and the line and column it ends with, as in
  `unexpected end at line 3 column 5`.
- `Located.ofChars`: takes such an ending off a text.
- `Located.render`: writes the ending anew. Its numbers have no leading zeros, and a position in
  line 0 is none.
-/

namespace TableService.Text

/-- A text without its ending, and the position that the ending told. Line 0 is no position. -/
structure Located where
  text : List Char
  line : Nat := 0
  column : Nat := 0
deriving DecidableEq

/-- The text in front of an ending. -/
def dropEnding? (ending cs : List Char) : Option (List Char) :=
  if ending.isSuffixOf cs then some (cs.take (cs.length - ending.length)) else none

/-- The number of 64 bits at the end of a text, and the text in front of it. -/
def endingNumber? (cs : List Char) : Option (List Char × Nat) :=
  let digits := (cs.reverse.takeWhile Char.isDigit).reverse
  (Numeral.unsigned? limit64 digits).map fun n => (cs.take (cs.length - digits.length), n)

namespace Located

/-- Takes the ending off, the column before the line. -/
def ofChars? (cs : List Char) : Option Located := do
  let (cs, column) ← endingNumber? cs
  let cs ← dropEnding? " column ".toList cs
  let (cs, line) ← endingNumber? cs
  let text ← dropEnding? " at line ".toList cs
  some { text, line, column }

/-- A text without such an ending has no position. -/
def ofChars (cs : List Char) : Located :=
  (ofChars? cs).getD { text := cs }

/-- The text with its position behind it. -/
def render (l : Located) : List Char :=
  if l.line = 0 then l.text
  else l.text ++ " at line ".toList ++ Numeral.ofNat l.line
    ++ " column ".toList ++ Numeral.ofNat l.column

end Located

/-- A text with its position written anew. -/
def relocate (s : String) : String :=
  String.ofList (Located.ofChars s.toList).render

example : relocate "a at line 0 column 2 at line 03 column 4" =
      "a at line 0 column 2 at line 3 column 4"
    ∧ relocate "x at line 0 column 9" = "x"
    ∧ relocate "x at line  column 2" = "x at line  column 2" := by
  decide +kernel

end TableService.Text
