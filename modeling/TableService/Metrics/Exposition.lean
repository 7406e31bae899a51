import TableService.Metrics.Basic
import TableService.Number.Binary64

/-!
# Metrics as text

- `Metrics.text`: a line for each number, under the help and the type of its family.

Durations are written as one number for each range, counting all durations up to its end, then their
sum and their number.
-/

namespace TableService

/-- Backslashes, line ends and quotes are escaped. -/
def escapeLabel (s : String) : String :=
  String.ofList <| s.toList.flatMap fun
    | '\\' => ['\\', '\\']
    | '\n' => ['\\', 'n']
    | '"' => ['\\', '"']
    | c => [c]

/-- A label as `name="value"`. -/
def labelText (label : String × String) : String :=
  label.1 ++ "=\"" ++ escapeLabel label.2 ++ "\""

/-- A line for one number. Without labels there are no braces. -/
def numberLine (name : String) (labels : List (String × String)) (number : String) : String :=
  let braced :=
    if labels.isEmpty then ""
    else "\x7b" ++ ",".intercalate (labels.map labelText) ++ "\x7d"
  name ++ braced ++ " " ++ number ++ "\n"

/-- The shortest numeral of a number, without a power of ten. -/
def floatText (x : Float) : String :=
  (Binary64.ofFloat x).plainText

namespace Sample

/-- The lines of one sample. -/
def lines (name : String) (s : Sample) : List String :=
  match s.measure with
  | .count n => [numberLine name s.labels (Text.Numeral.natText n)]
  | .durations ds =>
    let bucket (bound : String) (n : Nat) :=
      numberLine (name ++ "_bucket") (s.labels ++ [("le", bound)]) (Text.Numeral.natText n)
    durationBounds.map (fun bound => bucket (floatText bound) (ds.countP (· ≤ bound)))
      ++ [bucket "+Inf" ds.length,
          numberLine (name ++ "_sum") s.labels (floatText (ds.foldl (· + ·) 0)),
          numberLine (name ++ "_count") s.labels (Text.Numeral.natText ds.length)]

end Sample

namespace Family

/-- What the family is, told by its first sample. -/
def kind (f : Family) : String :=
  match f.samples with
  | ⟨_, .durations _⟩ :: _ => "histogram"
  | _ => "counter"

/-- The lines of the whole family. -/
def lines (f : Family) : List String :=
  ["# HELP " ++ f.name ++ " " ++ f.help ++ "\n", "# TYPE " ++ f.name ++ " " ++ f.kind ++ "\n"]
    ++ f.samples.flatMap (·.lines f.name)

end Family

/-- All families, one behind the other. -/
def Metrics.text (m : Metrics) : String :=
  "".intercalate (m.families.flatMap Family.lines)

end TableService
