import TableService.Json.Printer
import TableService.Number.DecimalText
import TableService.Number.Limits
import TableService.ReadModel.Error

/-!
# Fields of an event

- `Fields`: the payload of an event of a known type.
- `Fields.string`, `Fields.word`, `Fields.decimal`: a field as a text, as a natural number below
  `2 ^ 32`, as a decimal number. Numbers are read from texts too, and a number has a text.
-/

namespace TableService

open Text

/-- The payload of an event, with the type that errors name. -/
structure Fields where
  eventType : String
  payload : Payload

/-- The text of a number. -/
def Json.numeral? : Json → Option (List Char)
  | .int n => some (Numeral.ofInt n)
  | .float x => some (Json.floatChars x)
  | _ => none

namespace Fields

/-- The first field with this name. -/
def get (f : Fields) (field : String) : Except ProjectionError Json :=
  match f.payload.lookup field with
  | some v => .ok v
  | none => .error (.missingField f.eventType field)

/-- A field in the form that `read?` accepts. -/
def read (f : Fields) (field : String) (read? : Json → Option α) : Except ProjectionError α := do
  let v ← f.get field
  match read? v with
  | some a => return a
  | none => throw (.invalidField f.eventType field v.text)

/-- A text, or the numeral of a number. Other values have no text. -/
def string? : Json → Option String
  | .str s => some s
  | v => v.numeral?.map String.ofList

/-- A natural number of 64 bits. -/
def natural? : Json → Option Nat
  | .int n => if 0 ≤ n ∧ n < limit64 then some n.toNat else none
  | .str s => Numeral.unsigned? limit64 (trimChars s.toList)
  | _ => none

/-- A natural number of 32 bits. -/
def word? (v : Json) : Option Nat :=
  (natural? v).filter (· < limit32)

/-- The decimal that a numeral tells. A text may have blanks around its numeral. -/
def decimal? : Json → Option Decimal
  | .str s => Decimal.ofChars? (trimChars s.toList)
  | v => v.numeral?.bind Decimal.ofChars?

/-- A field that is to be a text. -/
def string (f : Fields) (field : String) : Except ProjectionError String :=
  f.read field string?

/-- A field that is to be a natural number of 32 bits. -/
def word (f : Fields) (field : String) : Except ProjectionError Nat :=
  f.read field word?

/-- A field that is to be a decimal. -/
def decimal (f : Fields) (field : String) : Except ProjectionError Decimal :=
  f.read field decimal?

end Fields

end TableService
