import TableService.Json.Basic
import TableService.Text.Located

/-!
# Domain events

- `DomainEvent`: a name and the data of what happened, or the reason why there is no data.
- `DomainEvent.payload`: the data as a flat object, whose fields keep their order.
- `Aggregate`: a thing that is changed as a whole and records an event for each change.
-/

namespace TableService

/-- Something that has happened, on its way into the outbox. An event that cannot be told carries
the reason in place of its data. -/
structure DomainEvent where
  name : String
  data : Except String Json

/-- Why the data of an event are refused. They must be a flat object. -/
inductive EventDataError where
  | notAnObject (eventType : String)
  /-- A field that is an object or an array itself. -/
  | nestedField (eventType field : String)
  /-- There are no data at all. -/
  | serialization (reason : String)
deriving DecidableEq

/-- How the refusal is reported. -/
def EventDataError.message : EventDataError → String
  | notAnObject eventType => "Event " ++ eventType ++ " did not serialize to a flat object"
  | nestedField eventType field =>
    "Event " ++ eventType ++ " field " ++ field ++ " is not a primitive value"
  | serialization reason => "Failed to serialize event: " ++ reason

namespace DomainEvent

/-- The first field that is an object or an array is the one that is reported. A reason is reported
with its position written anew. -/
def payload (e : DomainEvent) : Except EventDataError Payload :=
  match e.data with
  | .error reason => .error (.serialization (Text.relocate reason))
  | .ok (.obj fields) =>
    match fields.find? fun f => !f.2.isPrimitive with
    | some f => .error (.nestedField e.name f.1)
    | none => .ok fields
  | .ok _ => .error (.notAnObject e.name)

/-- An event with these fields. -/
def ofFields (name : String) (fields : Payload) : DomainEvent := ⟨name, .ok (.obj fields)⟩

theorem payload_ofFields {fields : Payload} (name : String)
    (h : ∀ f ∈ fields, f.2.isPrimitive = true) : (ofFields name fields).payload = .ok fields := by
  have : fields.find? (fun f => !f.2.isPrimitive) = none := by simpa using h
  simp [payload, ofFields, this]

end DomainEvent

/-- A thing that is loaded, changed and stored as a whole, and records what happens to it. -/
class Aggregate (α : Type) where
  /-- What the aggregate is called in the log. -/
  kind : String
  id : α → String
  /-- Events recorded and not yet handed on, oldest first. -/
  events : α → List DomainEvent
  /-- The aggregate without recorded events. -/
  drained : α → α

end TableService
