import Mathlib.Data.Int.CharZero
import TableService.Domain.MenuItem
import TableService.Domain.Order
import TableService.Proofs.Number.DecimalText

/-!
# The story that events tell

- `Story`: what the events of a kind of aggregate tell: the state behind each event, and which
  events may come next. There are two of them, `Order` and `MenuItem`.
- `OrderState`, `MenuItemState`: an aggregate as its events tell it, without any rule about its
  values.
- `Story.replay`: the state behind a list of events.
- `Leads`: events that fit one behind the other, and lead from one state to another.

An event never fails here. What is there already stays, and an event about something that is not
there does nothing; `Story.Fits` says that nothing of the kind happens.
-/

namespace TableService

/-! ## What is told -/

/-- A line of an order as events tell it. -/
structure ItemState where
  id : String
  menuItemId : String
  name : String
  unitPrice : Decimal
  quantity : Nat
  status : ItemStatus
deriving DecidableEq

/-- An order as events tell it. -/
structure OrderState where
  id : String
  table : Nat
  items : List ItemState
  status : OrderStatus
deriving DecidableEq

/-- A menu item as events tell it. -/
structure MenuItemState where
  id : String
  name : String
  price : Decimal
  available : Bool
deriving DecidableEq

namespace OrderState

/-- The first line with this id. -/
def find? (s : OrderState) (itemId : String) : Option ItemState :=
  s.items.find? (·.id == itemId)

/-- Adds a pending item, unless there is one with its id. -/
def add (s : OrderState) (item : ItemState) : OrderState :=
  if (s.find? item.id).isSome then s else { s with items := s.items ++ [item] }

/-- Sets the status of the first item with this id. -/
def setItem (s : OrderState) (itemId : String) (status : ItemStatus) : OrderState :=
  { s with items := updateFirst (·.id == itemId) ({ · with status }) s.items }

theorem setItem_eq_self {s : OrderState} {itemId : String} (h : s.find? itemId = none)
    (status : ItemStatus) : s.setItem itemId status = s := by
  have hitems : updateFirst (·.id == itemId) (fun i : ItemState => { i with status }) s.items =
      s.items := by
    refine updateFirst_eq_self _ ?_
    intro item hitem
    simpa using List.find?_eq_none.mp h item hitem
  rw [setItem, hitems]

/-- The order behind an event. -/
def after : Option OrderState → OrderEvent → Option OrderState
  | none, .placed id table => some ⟨id, table, [], .opened⟩
  | none, _ => none
  | some s, .placed .. => some s
  | some s, .itemAdded _ itemId menuItemId name unitPrice quantity =>
    some (s.add ⟨itemId, menuItemId, name, unitPrice, quantity, .pending⟩)
  | some s, .dishReady _ itemId => some (s.setItem itemId .ready)
  | some s, .itemCancelled _ itemId => some (s.setItem itemId .cancelled)
  | some s, .completed _ => some { s with status := .completed }
  | some s, .cancelled _ => some { s with status := .cancelled }

/-- There is an item with this id, and it is pending. -/
def IsPending (s : OrderState) (itemId : String) : Prop :=
  ∃ item, s.find? itemId = some item ∧ item.status = .pending

/-- Whether an event may come next. Its numbers have to be in range as well. -/
def Fits : Option OrderState → OrderEvent → Prop
  | none, .placed _ table => table < limit32
  | none, _ => False
  | some _, .placed .. => False
  | some s, .itemAdded _ itemId _ _ _ quantity =>
    s.status = .opened ∧ s.find? itemId = none ∧ quantity < limit32
  | some s, .dishReady _ itemId => s.status = .opened ∧ s.IsPending itemId
  | some s, .itemCancelled _ itemId => s.status = .opened ∧ s.IsPending itemId
  | some s, .completed _ => s.status = .opened
  | some s, .cancelled _ => s.status = .opened

end OrderState

namespace MenuItemState

/-- The menu item behind an event. -/
def after : Option MenuItemState → MenuItemEvent → Option MenuItemState
  | none, .created id name price => some ⟨id, name, price, true⟩
  | none, _ => none
  | some s, .created .. => some s
  | some s, .soldOut _ => some { s with available := false }
  | some s, .available _ => some { s with available := true }

/-- Whether an event may come next. -/
def Fits : Option MenuItemState → MenuItemEvent → Prop
  | none, .created .. => True
  | none, _ => False
  | some _, .created .. => False
  | some s, .soldOut _ => s.available = true
  | some s, .available _ => s.available = false

end MenuItemState

/-- The id of the order that an event is about. -/
def OrderEvent.orderId : OrderEvent → String
  | placed id _ | itemAdded id _ _ _ _ _ | dishReady id _ | itemCancelled id _ | completed id
  | cancelled id => id

/-- Numbers that stand for a table or a quantity. -/
def OrderEvent.InRange : OrderEvent → Prop
  | placed _ table => table < limit32
  | itemAdded _ _ _ _ _ quantity => quantity < limit32
  | _ => True

theorem OrderState.after_ne_none {s : Option OrderState} {e : OrderEvent} (h : Fits s e) :
    after s e ≠ none := by
  cases s with
  | none =>
    cases e with
    | placed => exact Option.some_ne_none _
    | _ => exact h.elim
  | some s => cases e <;> exact Option.some_ne_none _

theorem MenuItemState.after_ne_none {s : Option MenuItemState} {e : MenuItemEvent} (h : Fits s e) :
    after s e ≠ none := by
  cases s with
  | none =>
    cases e with
    | created => exact Option.some_ne_none _
    | _ => exact h.elim
  | some s => cases e <;> exact Option.some_ne_none _

theorem OrderState.inRange_of_fits {s : Option OrderState} {e : OrderEvent} (h : Fits s e) :
    e.InRange := by
  cases s with
  | none =>
    cases e with
    | placed id table => exact h
    | _ => exact h.elim
  | some s =>
    cases e with
    | placed id table => exact h.elim
    | itemAdded => exact h.2.2
    | _ => trivial

/-- The id of the menu item that an event is about. -/
def MenuItemEvent.menuItemId : MenuItemEvent → String
  | created id _ _ | soldOut id | available id => id

/-- An event can be told from its name and its fields. -/
theorem OrderEvent.ext_of_fields {e e' : OrderEvent} (hname : e.name = e'.name)
    (hfields : e.fields = e'.fields) : e = e' := by
  cases e with
  | _ =>
    cases e' with
    | _ => simp_all [name, fields, Decimal.text_injective.eq_iff]

theorem MenuItemEvent.ext_of_fields {e e' : MenuItemEvent} (hname : e.name = e'.name)
    (hfields : e.fields = e'.fields) : e = e' := by
  cases e with
  | _ =>
    cases e' with
    | _ => simp_all [name, fields, Decimal.text_injective.eq_iff]

/-- What is told of a line. -/
def OrderItem.state (item : OrderItem) : ItemState :=
  ⟨item.id, item.menuItemId, item.name, item.unitPrice.amount, item.quantity.value, item.status⟩

/-- What is told of an order. -/
def Order.state (order : Order) : OrderState :=
  ⟨order.id, order.table.value, order.items.map OrderItem.state, order.status⟩

/-- What is told of a menu item. -/
def MenuItem.state (item : MenuItem) : MenuItemState :=
  ⟨item.id, item.name, item.price.amount, item.available⟩

/-! ## Both kinds of stories -/

/-- What the events of a kind of aggregate tell. -/
class Story (α : Type) [Aggregate α] where
  Event : Type
  State : Type
  name : Event → String
  fields : Event → Payload
  /-- The id of the aggregate that an event is about. -/
  about : Event → String
  after : Option State → Event → Option State
  Fits : Option State → Event → Prop
  InRange : Event → Prop
  state : α → State
  recorded : α → List Event
  events_eq (a : α) : Aggregate.events a = (recorded a).map fun e => .ofFields (name e) (fields e)
  ext_of_fields {e e' : Event} : name e = name e' → fields e = fields e' → e = e'
  isPrimitive_fields (e : Event) : ∀ f ∈ fields e, f.2.isPrimitive = true
  inRange_of_fits {s : Option State} {e : Event} : Fits s e → InRange e
  after_ne_none {s : Option State} {e : Event} : Fits s e → after s e ≠ none
  /-- What is told of stays. -/
  after_some (s : State) (e : Event) : after (some s) e ≠ none
  state_drained (a : α) : state (Aggregate.drained a) = state a

instance : Story Order where
  Event := OrderEvent
  State := OrderState
  name := OrderEvent.name
  fields := OrderEvent.fields
  about := OrderEvent.orderId
  after := OrderState.after
  Fits := OrderState.Fits
  InRange := OrderEvent.InRange
  state := Order.state
  recorded := Order.recorded
  events_eq _ := rfl
  ext_of_fields := OrderEvent.ext_of_fields
  isPrimitive_fields e := by cases e <;> simp [OrderEvent.fields, Json.isPrimitive]
  inRange_of_fits := OrderState.inRange_of_fits
  after_ne_none := OrderState.after_ne_none
  after_some s e := by cases e <;> exact Option.some_ne_none _
  state_drained _ := rfl

instance : Story MenuItem where
  Event := MenuItemEvent
  State := MenuItemState
  name := MenuItemEvent.name
  fields := MenuItemEvent.fields
  about := MenuItemEvent.menuItemId
  after := MenuItemState.after
  Fits := MenuItemState.Fits
  InRange _ := True
  state := MenuItem.state
  recorded := MenuItem.recorded
  events_eq _ := rfl
  ext_of_fields := MenuItemEvent.ext_of_fields
  isPrimitive_fields e := by cases e <;> simp [MenuItemEvent.fields, Json.isPrimitive]
  inRange_of_fits _ := trivial
  after_ne_none := MenuItemState.after_ne_none
  after_some s e := by cases e <;> exact Option.some_ne_none _
  state_drained _ := rfl

namespace Story

variable (α : Type) [Aggregate α] [Story α]

/-- What events tell from the beginning. -/
def replay (events : List (Event α)) : Option (State α) :=
  events.foldl after none

theorem replay_concat (events : List (Event α)) (e : Event α) :
    replay α (events ++ [e]) = after (replay α events) e := by
  rw [replay, List.foldl_append]
  rfl

end Story

/-- The events fit one behind the other, and lead from the state `s` to the last one. -/
inductive Leads (α : Type) [Aggregate α] [Story α] :
    Option (Story.State α) → List (Story.Event α) → Option (Story.State α) → Prop where
  | nil (s : Option (Story.State α)) : Leads α s [] s
  | cons {s t : Option (Story.State α)} {e : Story.Event α} {rest : List (Story.Event α)}
      (fits : Story.Fits s e) (next : Leads α (Story.after s e) rest t) : Leads α s (e :: rest) t

namespace Leads

variable {α : Type} [Aggregate α] [Story α] {s t u : Option (Story.State α)}
  {events more : List (Story.Event α)}

theorem single {e : Story.Event α} (h : Story.Fits s e) (ht : Story.after s e = t) :
    Leads α s [e] t := by
  rw [← ht]
  exact .cons h (.nil _)

theorem append (h : Leads α s events t) (h' : Leads α t more u) : Leads α s (events ++ more) u := by
  induction h with
  | nil s => exact h'
  | cons fits _ ih => exact .cons fits (ih h')

/-- The state at the end is the one that the events tell. -/
theorem foldl_eq (h : Leads α s events t) : events.foldl Story.after s = t := by
  induction h with
  | nil s => rfl
  | cons _ _ ih => exact ih

theorem inRange (h : Leads α s events t) : ∀ e ∈ events, Story.InRange e := by
  induction h with
  | nil s => exact fun e he => absurd he List.not_mem_nil
  | cons fits _ ih =>
    intro e he
    rcases List.mem_cons.mp he with rfl | he
    · exact Story.inRange_of_fits fits
    · exact ih e he

/-- The first event fits, and the others fit behind it. -/
theorem of_cons {e : Story.Event α} (h : Leads α s (e :: events) t) :
    Story.Fits s e ∧ Leads α (Story.after s e) events t := by
  cases h with
  | cons fits next => exact ⟨fits, next⟩

/-- The last event fits behind the ones before it. -/
theorem of_concat {e : Story.Event α} (h : Leads α s (events ++ [e]) t) :
    Leads α s events (events.foldl Story.after s) ∧ Story.Fits (events.foldl Story.after s) e := by
  induction events generalizing s with
  | nil =>
    cases h with
    | cons fits _ => exact ⟨.nil s, fits⟩
  | cons first rest ih =>
    cases h with
    | cons fits next =>
      obtain ⟨hlead, hfits⟩ := ih next
      exact ⟨.cons fits hlead, hfits⟩

/-- As long as nothing is told, nothing has happened. -/
theorem eq_nil (h : Leads α s events none) : events = [] := by
  rcases List.eq_nil_or_concat events with hnil | ⟨front, e, rfl⟩
  · exact hnil
  · -- an event that fits leaves something to tell
    rw [List.concat_eq_append] at h
    obtain ⟨-, hfits⟩ := h.of_concat
    have htold := h.foldl_eq
    rw [List.foldl_append] at htold
    exact absurd htold (Story.after_ne_none hfits)

end Leads

end TableService
