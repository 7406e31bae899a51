import TableService.Time.Calendar
import TableService.Time.Instant
import TableService.Text.Blank
import TableService.Text.Numeral

/-!
# Times as text

- `Instant.text`: date and time of day in UTC, ended by `Z`, with as many digits of the second as
  the nanoseconds need: none, three, six or nine. A year outside 0 to 9999 carries a sign.
- `Instant.ofText?`: reads such a text with any offset from UTC. Numbers may be short, and blanks
  may stand before each of them.
-/

namespace TableService.Instant

open Text

/-! ## Writing -/

/-- A year of at least four digits. -/
def yearChars (year : Int) : List Char :=
  if 0 ≤ year ∧ year ≤ 9999 then Numeral.padded 4 year.natAbs
  else (if year < 0 then '-' else '+') :: Numeral.padded 4 year.natAbs

/-- The digits behind the point, in threes; none for a whole second. -/
def fractionChars (nano : Nat) : List Char :=
  if nano = 0 then []
  else if nano % 1000000 = 0 then '.' :: Numeral.padded 3 (nano / 1000000)
  else if nano % 1000 = 0 then '.' :: Numeral.padded 6 (nano / 1000)
  else '.' :: Numeral.padded 9 nano

/-- A leap second is the sixtieth of its minute. -/
def toChars (t : Instant) : List Char :=
  let date := Date.ofDay (t.second / 86400)
  let inDay := (t.second % 86400).toNat
  yearChars date.year ++ '-' :: Numeral.padded 2 date.month.toNat
    ++ '-' :: Numeral.padded 2 date.day.toNat
    ++ 'T' :: Numeral.padded 2 (inDay / 3600)
    ++ ':' :: Numeral.padded 2 (inDay / 60 % 60)
    ++ ':' :: Numeral.padded 2 (inDay % 60 + t.nano / giga)
    ++ fractionChars (t.nano % giga) ++ ['Z']

/-- The time as a text. -/
def text (t : Instant) : String :=
  String.ofList t.toChars

/-! ## Reading -/

/-- The text behind its leading blanks. -/
def skipBlanks (cs : List Char) : List Char :=
  cs.dropWhile isBlank

/-- A number of one to `width` digits. -/
def digits? (width : Nat) (cs : List Char) : Option (Nat × List Char) :=
  let ds := (cs.take width).takeWhile Char.isDigit
  (Numeral.value? ds).map fun n => (n, cs.drop ds.length)

/-- A year of at most four digits, or of any length behind a sign. -/
def year? (cs : List Char) : Option (Int × List Char) :=
  match cs with
  | '-' :: rest => (digits? rest.length rest).map fun (n, rest) => (-n, rest)
  | '+' :: rest => (digits? rest.length rest).map fun (n, rest) => ((n : Int), rest)
  | _ => (digits? 4 cs).map fun (n, rest) => ((n : Int), rest)

/-- A number of two digits that stands behind a mark, with blanks before both. -/
def markedPair? (mark : Char) (cs : List Char) : Option (Nat × List Char) :=
  match skipBlanks cs with
  | c :: rest => if c = mark then digits? 2 (skipBlanks rest) else none
  | [] => none

/-- Year, month and day, which need not be a date there is. -/
def date? (cs : List Char) : Option (Date × List Char) := do
  let (year, cs) ← year? (skipBlanks cs)
  let (month, cs) ← markedPair? '-' cs
  let (day, cs) ← markedPair? '-' cs
  some (⟨year, month, day⟩, cs)

/-- Digits of a second behind a point, as nanoseconds. What is finer is dropped. -/
def nanos? : List Char → Option (Nat × List Char)
  | '.' :: rest => do
    let (n, cs) ← digits? 9 rest
    some (n * Nat.pow 10 (9 - (rest.length - cs.length)), cs.dropWhile Char.isDigit)
  | cs => some (0, cs)

/-- Second of the day and nanoseconds. The sixtieth second of a minute is a leap second. -/
def timeOfDay? (cs : List Char) : Option ((Nat × Nat) × List Char) := do
  let (hour, cs) ← digits? 2 (skipBlanks cs)
  let (minute, cs) ← markedPair? ':' cs
  let (second, cs) ← markedPair? ':' cs
  let (nano, cs) ← nanos? cs
  if hour ≤ 23 ∧ minute ≤ 59 ∧ second ≤ 60 then
    let whole := hour * 3600 + minute * 60
    if second = 60 then some ((whole + 59, nano + giga), cs) else some ((whole + second, nano), cs)
  else none

/-- A number of exactly two digits. -/
def digitPair? : List Char → Option (Nat × List Char)
  | a :: b :: rest => (Numeral.value? [a, b]).map (·, rest)
  | _ => none

/-- Hours and minutes of an offset, in seconds. -/
def offsetSize? (cs : List Char) : Option (Nat × List Char) := do
  let (hours, cs) ← digitPair? cs
  let (minutes, cs) ← digitPair? (cs.dropWhile fun c => c == ':' || isBlank c)
  if minutes ≤ 59 ∧ hours ≤ 23 then some (hours * 3600 + minutes * 60, cs) else none

/-- An offset from UTC in seconds, which are to be taken from the local time. -/
def offset? (cs : List Char) : Option (Int × List Char) :=
  if (cs.take 3).map Char.toUpper = ['U', 'T', 'C'] then some (0, cs.drop 3)
  else
    match cs with
    | [] => none
    | c :: rest =>
      if c = 'Z' ∨ c = 'z' then some (0, rest)
      else if c = '+' then (offsetSize? rest).map fun (n, rest) => ((n : Int), rest)
      else if c = '-' ∨ c = '\u2212' then (offsetSize? rest).map fun (n, rest) => (-n, rest)
      else none

/-- A date, a time of day and an offset, with nothing behind them but blanks. -/
def ofChars? (cs : List Char) : Option Instant := do
  let (date, cs) ← date? cs
  let c :: cs := cs | none
  if c ≠ 'T' ∧ c ≠ 't' ∧ c ≠ ' ' then none
  let ((inDay, nano), cs) ← timeOfDay? cs
  let (offset, cs) ← offset? (skipBlanks cs)
  if skipBlanks cs ≠ [] then none
  if ¬ date.Valid then none
  -- the local time must be in range as well
  let sameTime ← of? (date.toDay * 86400 + inDay) nano
  of? (sameTime.second - offset) nano

/-- The time that a text tells. -/
def ofText? (s : String) : Option Instant :=
  ofChars? s.toList

example : (ofText? "2024-02-29t23:59:60.5 +01:30").map text = some "2024-02-29T22:29:60.500Z" := by
  decide +kernel

end TableService.Instant
