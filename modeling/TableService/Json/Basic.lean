import TableService.Number.Binary64

/-!
# JSON values

- `Json`: a value. Whole numbers and floating-point numbers are told apart, and an object keeps the
  order of its keys.
- `Payload`: the fields of an object in their order.
- `Json.isPrimitive`: whether a value has no values inside it.
-/

namespace TableService

/-- A value. Keys of an object may be repeated here; a reader keeps the last one. -/
inductive Json where
  | null
  | bool (b : Bool)
  | int (n : Int)
  | float (x : Binary64)
  | str (s : String)
  | arr (items : List Json)
  | obj (fields : List (String × Json))

/-- The fields of a flat object. -/
abbrev Payload := List (String × Json)

namespace Json

instance : Inhabited Json := ⟨null⟩

/-- Whether a value can stand in a flat object. -/
def isPrimitive : Json → Bool
  | arr _ | obj _ => false
  | _ => true

end Json

end TableService
