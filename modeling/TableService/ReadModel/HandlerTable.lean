import TableService.Json.Basic
import TableService.ReadModel.Error
import TableService.Store.Table

/-!
# Handlers by event type

- `HandlerTable`: the handlers of a projector, and the types that they are for. A later handler for
  a type replaces the earlier one.
- `HandlerTable.dispatch`: hands a payload to the handler of its type.
-/

namespace TableService

/-- What a handler does is a value of `α`. -/
structure HandlerTable (α : Type) where
  projector : String
  handlers : Table (Payload → α) := ∅
  /-- The types in the order in which they were first registered. -/
  order : List String := []

namespace HandlerTable

/-- A type is listed when its first handler comes. -/
def on (table : HandlerTable α) (eventType : String) (handler : Payload → α) : HandlerTable α :=
  { table with
    handlers := table.handlers.insert eventType handler
    order := if eventType ∈ table.handlers then table.order else table.order ++ [eventType] }

/-- Each type once, however often it was registered. -/
def eventTypes (table : HandlerTable α) : List String :=
  table.order

/-- Without a handler the event is refused. -/
def dispatch (table : HandlerTable α) (refuse : ProjectionError → α) (eventType : String)
    (payload : Payload) : α :=
  match table.handlers[eventType]? with
  | some handler => handler payload
  | none => refuse (.unhandledEventType table.projector eventType)

theorem getElem?_handlers_on (table : HandlerTable α) (eventType other : String)
    (handler : Payload → α) :
    (table.on eventType handler).handlers[other]? =
      if eventType = other then some handler else table.handlers[other]? := by
  simp [on, Std.ExtTreeMap.getElem?_insert]

end HandlerTable

end TableService
