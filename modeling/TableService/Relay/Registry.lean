import TableService.ReadModel.Projector

/-!
# Which projector handles an event

- `Registry`: the projector of each event type.
- `Registry.ofProjectors`: the registry of a list of projectors, unless two of them, or one of them
  twice, claim the same type.
-/

namespace TableService

/-- Each type of event has at most one projector. -/
abbrev Registry (α : Type) := Table (Projector α)

/-- Two claims of one type. The first claim and the second one are named. -/
inductive RegistryError where
  | duplicateEventType (eventType existing duplicate : String)
deriving DecidableEq

/-- How the refusal is reported. -/
def RegistryError.message : RegistryError → String
  | duplicateEventType eventType existing duplicate =>
    "Event type " ++ eventType ++ " is handled by both " ++ existing ++ " and " ++ duplicate

namespace Registry

/-- Adds a projector under one type. -/
def claim (registry : Registry α) (projector : Projector α) (eventType : String) :
    Except RegistryError (Registry α) :=
  match registry[eventType]? with
  | some existing => .error (.duplicateEventType eventType existing.name projector.name)
  | none => .ok (registry.insert eventType projector)

/-- The types that the projectors claim, in order, each with the one that claims it. -/
def claims (projectors : List (Projector α)) : List (Projector α × String) :=
  projectors.flatMap fun p => p.eventTypes.map (p, ·)

/-- Takes up the claims one after the other, up to the first type that is claimed again. -/
def ofProjectors (projectors : List (Projector α)) : Except RegistryError (Registry α) :=
  (claims projectors).foldlM (fun registry (p, eventType) => registry.claim p eventType) ∅

/-- All types with a projector, in ascending order. -/
def eventTypes (registry : Registry α) : List String :=
  registry.keys

end Registry

end TableService
