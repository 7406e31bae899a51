import Mathlib.Data.List.Basic
import TableService.ReadModel.HandlerTable

/-!
# Which handler a payload is handed to

Handlers are registered one after the other, and a type may be registered again.

- `HandlerTable.ofRegistrations`: the table behind a list of registrations.
- `HandlerTable.Lists`: the map and the list of a table hold the types that were registered, the
  list in the order of their first registrations. `Lists.on` is about one registration more, and
  `Lists.onAll` about any number of them.
- `HandlerTable.dispatch_last`, `dispatch_unregistered`: a payload is handed to the last handler of
  its type, or refused.
- `HandlerTable.noted`: registrations that tell which of them are called.
- `HandlerTable.Follows`: what is listed, what is done for a payload, and which handlers are called
  for it.
- `HandlerTable.follows_registrations`: so it is behind every list of registrations.
-/

namespace TableService

/-- A type and a handler for it. -/
abbrev Registration (α : Type) := String × (Payload → α)

namespace HandlerTable

variable {α : Type} {table : HandlerTable α} {regs before after : List (Registration α)}
  {types : List String} {eventType : String} {handler : Payload → α}

/-- Registers one handler after the other. -/
def onAll (table : HandlerTable α) (regs : List (Registration α)) : HandlerTable α :=
  regs.foldl (fun table r => table.on r.1 r.2) table

/-- The table behind the registrations, from the first to the last. -/
def ofRegistrations (projector : String) (regs : List (Registration α)) : HandlerTable α :=
  onAll { projector } regs

theorem onAll_cons (table : HandlerTable α) (r : Registration α) (regs : List (Registration α)) :
    table.onAll (r :: regs) = (table.on r.1 r.2).onAll regs := rfl

theorem onAll_append (table : HandlerTable α) (before after : List (Registration α)) :
    table.onAll (before ++ after) = (table.onAll before).onAll after :=
  List.foldl_append

theorem projector_onAll (table : HandlerTable α) (regs : List (Registration α)) :
    (table.onAll regs).projector = table.projector := by
  induction regs generalizing table with
  | nil => rfl
  | cons r regs ih => exact ih (table.on r.1 r.2)

/-! ## What is listed -/

/-- The types that have been registered, one after the other and some of them again, are those of
the handlers, and they are listed by their first places. -/
structure Lists (table : HandlerTable α) (types : List String) : Prop where
  handled {t : String} : t ∈ table.handlers ↔ t ∈ types
  listed {t : String} : t ∈ table.order ↔ t ∈ types
  inOrder : table.order.Pairwise fun s t => types.idxOf s < types.idxOf t

theorem lists_new (projector : String) : ({ projector } : HandlerTable α).Lists [] where
  handled := by simp
  listed := by simp
  inOrder := .nil

theorem mem_handlers_on {t : String} :
    t ∈ (table.on eventType handler).handlers ↔ t ∈ table.handlers ∨ t = eventType := by
  rw [on, Std.ExtTreeMap.mem_insert, Std.LawfulEqCmp.compare_eq_iff_eq, or_comm, eq_comm]

/-- A type is listed behind all others if it is new, and otherwise nothing is listed. -/
theorem Lists.on (h : table.Lists types) (eventType : String) (handler : Payload → α) :
    (table.on eventType handler).Lists (types ++ [eventType]) := by
  -- the places of the types so far stay as they are
  have hplace : ∀ {t}, t ∈ table.order → (types ++ [eventType]).idxOf t = types.idxOf t :=
    fun ht => List.idxOf_append_of_mem (h.listed.mp ht)
  have hbefore : table.order.Pairwise fun s t =>
      (types ++ [eventType]).idxOf s < (types ++ [eventType]).idxOf t :=
    h.inOrder.imp_of_mem fun hs ht hlt => by rwa [hplace hs, hplace ht]
  have hhandled {t : String} :
      t ∈ (table.on eventType handler).handlers ↔ t ∈ types ++ [eventType] := by
    rw [mem_handlers_on, h.handled, List.mem_append, List.mem_singleton]
  by_cases hold : eventType ∈ table.handlers
  · have horder : (table.on eventType handler).order = table.order := if_pos hold
    refine ⟨hhandled, fun {t} => ?_, horder ▸ hbefore⟩
    rw [horder, h.listed, List.mem_append, List.mem_singleton]
    exact ⟨.inl, fun ht => ht.elim id fun heq => heq ▸ h.handled.mp hold⟩
  · have horder : (table.on eventType handler).order = table.order ++ [eventType] := if_neg hold
    refine ⟨hhandled, fun {t} => ?_, ?_⟩
    · rw [horder, List.mem_append, h.listed, List.mem_append]
    · rw [horder, List.pairwise_append]
      refine ⟨hbefore, List.pairwise_singleton _ _, fun s hs t ht => ?_⟩
      rw [List.mem_singleton.mp ht, hplace hs, List.idxOf_append_of_notMem (mt h.handled.mpr hold)]
      have := List.idxOf_lt_length_of_mem (h.listed.mp hs)
      omega

theorem Lists.onAll (h : table.Lists types) (regs : List (Registration α)) :
    (table.onAll regs).Lists (types ++ regs.map Prod.fst) := by
  induction regs generalizing table types with
  | nil => rwa [List.map_nil, List.append_nil]
  | cons r regs ih =>
    have hrest := ih (h.on r.1 r.2)
    rwa [List.append_assoc] at hrest

theorem lists_ofRegistrations (projector : String) (regs : List (Registration α)) :
    (ofRegistrations projector regs).Lists (regs.map Prod.fst) :=
  (lists_new projector).onAll regs

/-- What is in order by its first place is there only once. -/
theorem Lists.nodup (h : table.Lists types) : table.order.Nodup :=
  h.inOrder.imp fun hlt heq => Nat.ne_of_lt hlt (congrArg types.idxOf heq)

/-! ## What a payload comes to -/

/-- Registrations for other types leave a handler where it is. -/
theorem getElem?_handlers_onAll (h : eventType ∉ regs.map Prod.fst) :
    (table.onAll regs).handlers[eventType]? = table.handlers[eventType]? := by
  induction regs generalizing table with
  | nil => rfl
  | cons r regs ih =>
    rw [List.map_cons, List.mem_cons, not_or] at h
    rw [onAll_cons, ih h.2, getElem?_handlers_on, if_neg (Ne.symm h.1)]

/-- A payload is handed to the handler that was registered last for its type. -/
theorem dispatch_last (h : eventType ∉ after.map Prod.fst) (projector : String)
    (refuse : ProjectionError → α) (payload : Payload) :
    (ofRegistrations projector (before ++ (eventType, handler) :: after)).dispatch refuse eventType
      payload = handler payload := by
  have hfound : (ofRegistrations projector (before ++ (eventType, handler) :: after)).handlers[
      eventType]? = some handler := by
    rw [ofRegistrations, onAll_append, onAll_cons, getElem?_handlers_onAll h, getElem?_handlers_on,
      if_pos rfl]
  rw [dispatch, hfound]

/-- A payload of any other type is refused. -/
theorem dispatch_unregistered (h : eventType ∉ regs.map Prod.fst) (projector : String)
    (refuse : ProjectionError → α) (payload : Payload) :
    (ofRegistrations projector regs).dispatch refuse eventType payload =
      refuse (.unhandledEventType projector eventType) := by
  have hnone : (ofRegistrations projector regs).handlers[eventType]? = none :=
    Std.ExtTreeMap.getElem?_eq_none (mt (lists_ofRegistrations projector regs).handled.mp h)
  rw [dispatch, hnone, ofRegistrations, projector_onAll]

theorem exists_last (h : eventType ∈ regs.map Prod.fst) :
    ∃ before handler after, regs = before ++ (eventType, handler) :: after ∧
      eventType ∉ after.map Prod.fst := by
  induction regs with
  | nil => cases h
  | cons r rest ih =>
    by_cases hrest : eventType ∈ rest.map Prod.fst
    · obtain ⟨before, handler, after, rfl, hlast⟩ := ih hrest
      exact ⟨r :: before, handler, after, rfl, hlast⟩
    · have hfirst : eventType = r.1 := (List.mem_cons.mp h).resolve_right hrest
      exact ⟨[], r.2, rest, by rw [hfirst]; rfl, hrest⟩

/-! ## Which handlers are called -/

/-- The same registrations, numbered from `first` on. When a handler is called, it notes its
number. -/
def noted (first : ℕ) (regs : List (Registration α)) : List (Registration (List ℕ × α)) :=
  (regs.zipIdx first).map fun (r, k) => (r.1, fun payload => ([k], r.2 payload))

theorem map_fst_noted (first : ℕ) (regs : List (Registration α)) :
    (noted first regs).map Prod.fst = regs.map Prod.fst := by
  conv_rhs => rw [← List.zipIdx_map_fst first regs, List.map_map]
  rw [noted, List.map_map]
  rfl

theorem noted_append_cons (before : List (Registration α)) (eventType : String)
    (handler : Payload → α) (after : List (Registration α)) :
    noted 0 (before ++ (eventType, handler) :: after) =
      noted 0 before ++ (eventType, fun payload => ([before.length], handler payload)) ::
        noted (before.length + 1) after := by
  simp [noted, List.zipIdx_append]

/-- What is listed behind the registrations, and what is done for a payload: by the handlers as they
are, and by handlers that note their numbers. To refuse a payload, none of them is called. -/
structure Follows (projector : String) (regs : List (Registration α))
    (refuse : ProjectionError → α) : Prop where
  listed (t : String) : t ∈ (ofRegistrations projector regs).eventTypes ↔ t ∈ regs.map Prod.fst
  once : (ofRegistrations projector regs).eventTypes.Nodup
  inOrder : (ofRegistrations projector regs).eventTypes.Pairwise fun s t =>
    (regs.map Prod.fst).idxOf s < (regs.map Prod.fst).idxOf t
  called (t : String) : t ∈ regs.map Prod.fst → ∃ before handler after,
    regs = before ++ (t, handler) :: after ∧ t ∉ after.map Prod.fst ∧ ∀ payload,
      (ofRegistrations projector regs).dispatch refuse t payload = handler payload ∧
      (ofRegistrations projector (noted 0 regs)).dispatch (fun e => ([], refuse e)) t payload =
        ([before.length], handler payload)
  refused (t : String) : t ∉ regs.map Prod.fst → ∀ payload,
    (ofRegistrations projector regs).dispatch refuse t payload =
      refuse (.unhandledEventType projector t) ∧
    (ofRegistrations projector (noted 0 regs)).dispatch (fun e => ([], refuse e)) t payload =
      ([], refuse (.unhandledEventType projector t))

/-- Whatever has been registered, and however often: every type is listed once, and it is its last
handler that is called. -/
theorem follows_registrations (projector : String) (regs : List (Registration α))
    (refuse : ProjectionError → α) : Follows projector regs refuse where
  listed _ := (lists_ofRegistrations projector regs).listed
  once := (lists_ofRegistrations projector regs).nodup
  inOrder := (lists_ofRegistrations projector regs).inOrder
  called t ht := by
    obtain ⟨before, handler, after, rfl, hlast⟩ := exists_last ht
    refine ⟨before, handler, after, rfl, hlast, fun payload => ⟨?_, ?_⟩⟩
    · exact dispatch_last hlast projector refuse payload
    · rw [noted_append_cons]
      exact dispatch_last (by rwa [map_fst_noted]) projector _ payload
  refused t ht payload := by
    refine ⟨dispatch_unregistered ht projector refuse payload, ?_⟩
    exact dispatch_unregistered (by rwa [map_fst_noted]) projector _ payload

/-- A type that is registered again keeps its place in the list. -/
example :
    let regs : List (Registration ℕ) := [("b", fun _ => 1), ("a", fun _ => 2), ("b", fun _ => 3)]
    (ofRegistrations "Board" regs).eventTypes = ["b", "a"] ∧
      (ofRegistrations "Board" (noted 0 regs)).dispatch (fun _ => ([], 0)) "b" [] = ([2], 3) ∧
      (ofRegistrations "Board" (noted 0 regs)).dispatch (fun _ => ([], 0)) "c" [] = ([], 0) := by
  decide

end HandlerTable

end TableService
