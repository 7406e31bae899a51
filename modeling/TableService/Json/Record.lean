import TableService.Json.Basic
import TableService.Number.Limits

/-!
# Reading records from JSON values

- `Json.record?`: the named fields of a record, from an object or from an array of them in order.
- `Json.required?`, `Json.optional?`: one field of a record.
- `Json.variant?`: a case of an enumeration, by its name or as an object with that one key.
- `Json.text?`, `Json.whole?`, `Json.items?`: values of the other shapes.

An object may have more fields than the record. An array has exactly as many items.
-/

namespace TableService.Json

/-- The fields of an object as they are, or the items of an array under the names. -/
def record? (names : List String) : Json → Option Payload
  | obj fields => some fields
  | arr items => if items.length = names.length then some (names.zip items) else none
  | _ => none

/-- A field that must be there and in the form that `read` accepts. -/
def required? (fields : Payload) (name : String) (read : Json → Option α) : Option α :=
  (fields.lookup name).bind read

/-- A field that may be absent or null. -/
def optional? (fields : Payload) (name : String) (read : Json → Option α) : Option (Option α) :=
  match fields.lookup name with
  | none | some null => some none
  | some v => (read v).map some

/-- Only a text is read as one. -/
def text? : Json → Option String
  | str s => some s
  | _ => none

/-- Only a truth value is read as one. -/
def bool? : Json → Option Bool
  | bool b => some b
  | _ => none

/-- A whole number from `low` up to below `high`. -/
def whole? (low high : Int) : Json → Option Int
  | int n => if low ≤ n ∧ n < high then some n else none
  | _ => none

/-- A natural number below `2 ^ 32`. -/
def word? (v : Json) : Option Nat :=
  (whole? 0 limit32 v).map Int.toNat

/-- An array all of whose items can be read. -/
def items? (read : Json → Option α) : Json → Option (List α)
  | arr items => items.mapM read
  | _ => none

/-- The fields of an object. -/
def object? : Json → Option Payload
  | obj fields => some fields
  | _ => none

/-- The name is a text, or the one key of an object that holds null under it. -/
def variant? (read : String → Option α) : Json → Option α
  | str s => read s
  | obj [(s, null)] => read s
  | _ => none

end TableService.Json
