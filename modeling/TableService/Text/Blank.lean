/-!
# Blank characters and trimming

- `isBlank`: the characters with the Unicode property `White_Space`.
- `trimChars`, `trim`: a text without its leading and trailing blanks.
- `required?`: the trimmed text, unless nothing is left of it.
-/

namespace TableService.Text

/-- The code points with the property `White_Space`, as closed ranges in ascending order. -/
def blankRanges : List (Nat × Nat) :=
  [(0x09, 0x0D), (0x20, 0x20), (0x85, 0x85), (0xA0, 0xA0), (0x1680, 0x1680), (0x2000, 0x200A),
   (0x2028, 0x2029), (0x202F, 0x202F), (0x205F, 0x205F), (0x3000, 0x3000)]

/-- Whether a code point lies in one of the closed ranges. -/
def inRanges (ranges : List (Nat × Nat)) (n : Nat) : Bool :=
  ranges.any fun r => r.1 ≤ n && n ≤ r.2

/-- Whether a character is white space. -/
def isBlank (c : Char) : Bool :=
  inRanges blankRanges c.toNat

/-- The text from its first to its last character that is not blank. -/
def trimChars (cs : List Char) : List Char :=
  ((cs.dropWhile isBlank).reverse.dropWhile isBlank).reverse

/-- The text without the blanks around it. -/
def trim (s : String) : String :=
  String.ofList (trimChars s.toList)

/-- A text that must say something: it is kept trimmed, and refused if it is blank throughout. -/
def required? (s : String) : Option String :=
  let t := trim s
  if t.isEmpty then none else some t

example : (blankRanges.map fun r => r.2 + 1 - r.1).sum = 25 := by decide

-- A zero-width space is not blank.
example : isBlank '\u200b' = false := by decide

end TableService.Text
