import TableService.Command.Handler
import TableService.Proofs.Domain.Changes
import TableService.Proofs.Store.Sharing

/-!
# What an accepted command comes to

- `MenuItemChange`, `OrderChange`: the aggregate that a command makes of what is committed, with the
  events it records.
- `Committed`, `Appended`: the stores behind an aggregate that was committed, its events handed on
  to the outbox.
- `Accepts`: the stores behind an accepted command.
- `Stores.Settled`: what is committed has handed on its events and sits under its own trimmed id.
-/

namespace TableService

/-! ## What is asked for -/

/-- The id of the aggregate that a command is about, as it was given. -/
def Command.target : Command → String
  | createMenuItem id _ _ | markSoldOut id | markAvailable id => id
  | placeOrder id _ _ | markItemReady id _ | cancelItem id _ | completeOrder id
  | cancelOrder id => id

/-- Adds the requested lines, each under the next id. Gives the ids that are left. -/
def Order.addAll (order : Order) (ids : IdSource) :
    List OrderLine → Except CommandError (Order × IdSource)
  | [] => .ok (order, ids)
  | line :: rest => do
    let price ← (Money.of? line.unitPrice).mapError .validation
    let quantity ← (Quantity.of? line.quantity).mapError .validation
    let order ← (order.addItem ids.next.1 line.menuItemId line.name price quantity).mapError .order
    order.addAll ids.next.2 rest

theorem Order.addAll_cons_ok {order order' : Order} {ids ids' : IdSource} {line : OrderLine}
    {rest : List OrderLine} (h : order.addAll ids (line :: rest) = .ok (order', ids')) :
    ∃ price quantity order₁, Money.of? line.unitPrice = .ok price ∧
      Quantity.of? line.quantity = .ok quantity ∧
      order.addItem ids.next.1 line.menuItemId line.name price quantity = .ok order₁ ∧
      order₁.addAll ids.next.2 rest = .ok (order', ids') := by
  rw [addAll] at h
  obtain ⟨price, hm, h⟩ := bind_ok h
  obtain ⟨quantity, hq, h⟩ := bind_ok h
  obtain ⟨order₁, hi, h⟩ := bind_ok h
  exact ⟨price, quantity, order₁, mapError_ok hm, mapError_ok hq, mapError_ok hi, h⟩

/-- Adding lines keeps the order's id. -/
theorem Order.id_addAll {order order' : Order} {ids ids' : IdSource} {lines : List OrderLine}
    (h : order.addAll ids lines = .ok (order', ids')) : order'.id = order.id := by
  induction lines generalizing order ids with
  | nil =>
    cases h
    rfl
  | cons line rest ih =>
    obtain ⟨_, _, order₁, -, -, hi, h⟩ := Order.addAll_cons_ok h
    exact (ih h).trans (id_addItem hi)

theorem Order.addAll_cons {order order₁ : Order} {ids : IdSource} {line : OrderLine} {price : Money}
    {quantity : Quantity} (rest : List OrderLine) (hm : Money.of? line.unitPrice = .ok price)
    (hq : Quantity.of? line.quantity = .ok quantity)
    (hi : order.addItem ids.next.1 line.menuItemId line.name price quantity = .ok order₁) :
    order.addAll ids (line :: rest) = order₁.addAll ids.next.2 rest := by
  simp only [addAll, hm, hq, Except.mapError, bind, Except.bind, hi]

/-- The committed menu items among these ids, in their order. -/
def Stores.menuItemsOf (s : Stores) (ids : List String) : List MenuItem :=
  ids.filterMap fun id => s.menuItems[id]?.map Versioned.value

/-- A command makes this menu item of what is committed. -/
inductive MenuItemChange (s : Stores) : Command → MenuItem → Prop where
  | created {id name : String} {amount : Decimal} {price : Money} {item : MenuItem}
      (absent : s.menuItems[id]? = none) (money : Money.of? amount = .ok price)
      (make : MenuItem.create id name price = .ok item) :
      MenuItemChange s (.createMenuItem id name amount) item
  | soldOut {id : String} {v : Versioned MenuItem} (found : s.menuItems[id]? = some v) :
      MenuItemChange s (.markSoldOut id) v.value.markSoldOut
  | available {id : String} {v : Versioned MenuItem} (found : s.menuItems[id]? = some v) :
      MenuItemChange s (.markAvailable id) v.value.markAvailable

/-- A command makes this order of what is committed; new items get the ids that come next. -/
inductive OrderChange (s : Stores) (ids : IdSource) : Command → Order → Prop where
  | placed {id : String} {number : Int} {lines : List OrderLine} {table : TableNumber}
      {order order' : Order} {ids' : IdSource} (nonempty : lines ≠ [])
      (absent : s.orders[id]? = none)
      (dishes : verifyAvailable (lines.map (·.menuItemId))
        (s.menuItemsOf (lines.map (·.menuItemId))) = .ok ())
      (seat : TableNumber.of? number = .ok table) (make : Order.place id table = .ok order)
      (items : order.addAll ids lines = .ok (order', ids')) :
      OrderChange s ids (.placeOrder id number lines) order'
  | itemReady {id itemId : String} {v : Versioned Order} {order : Order}
      (found : s.orders[id]? = some v) (change : v.value.markItemReady itemId = .ok order) :
      OrderChange s ids (.markItemReady id itemId) order
  | itemCancelled {id itemId : String} {v : Versioned Order} {order : Order}
      (found : s.orders[id]? = some v) (change : v.value.cancelItem itemId = .ok order) :
      OrderChange s ids (.cancelItem id itemId) order
  | completed {id : String} {v : Versioned Order} {order : Order}
      (found : s.orders[id]? = some v) (change : v.value.complete = .ok order) :
      OrderChange s ids (.completeOrder id) order
  | cancelled {id : String} {v : Versioned Order} {order : Order}
      (found : s.orders[id]? = some v) (change : v.value.cancel = .ok order) :
      OrderChange s ids (.cancelOrder id) order

/-! ## What is committed -/

/-- An entry as it is made for an event that has just happened. -/
structure Entry.IsNew (policy : RetryPolicy) (aggregateId kind : String) (occurredAt : Instant)
    (event : DomainEvent) (entry : Entry) : Prop where
  eventType : entry.eventType = event.name
  eventData : event.payload = .ok entry.eventData
  aggregateId : entry.aggregateId = aggregateId
  aggregateType : entry.aggregateType = kind
  occurredAt : entry.occurredAt = occurredAt
  status : entry.status = .pending
  retryCount : entry.retryCount = 0
  policy : entry.policy = policy
  lastError : entry.lastError = none
  processedAt : entry.processedAt = none
  nextRetryAt : entry.nextRetryAt = none

/-- `a`, with the events it has recorded, was committed over the stores `before`: it is stored
without its events, and the log has one more entry for each of them. -/
structure Committed {α : Type} [Aggregate α] [Collection α] (policy : RetryPolicy)
    (occurredAt : Instant) (before after : Stores) (a : α) : Prop where
  stored : (Collection.committed after)[Aggregate.id a]? =
    some ⟨versionOf (Collection.committed (α := α) before) (Aggregate.id a) + 1,
      Aggregate.drained a⟩
  drained : Aggregate.events (Aggregate.drained a) = []
  others {id : String} : id ≠ Aggregate.id a →
    (Collection.committed (α := α) after)[id]? = (Collection.committed before)[id]?
  outbox : ∃ entries, after.outbox = before.outbox ++ entries ∧
    List.Forall₂ (Entry.IsNew policy (Aggregate.id a) (Aggregate.kind α) occurredAt)
      (Aggregate.events a) entries ∧
    (entries.map Entry.id).Nodup ∧ ∀ e ∈ entries, ∀ old ∈ before.outbox, e.id ≠ old.id

/-- The same, whatever the ids of the entries are. -/
structure Appended {α : Type} [Aggregate α] [Collection α] (policy : RetryPolicy)
    (occurredAt : Instant) (before after : Stores) (a : α) : Prop where
  stored : (Collection.committed after)[Aggregate.id a]? =
    some ⟨versionOf (Collection.committed (α := α) before) (Aggregate.id a) + 1,
      Aggregate.drained a⟩
  others {id : String} : id ≠ Aggregate.id a →
    (Collection.committed (α := α) after)[id]? = (Collection.committed before)[id]?
  outbox : ∃ entries, after.outbox = before.outbox ++ entries ∧
    List.Forall₂ (Entry.IsNew policy (Aggregate.id a) (Aggregate.kind α) occurredAt)
      (Aggregate.events a) entries

theorem Committed.appended {α : Type} [Aggregate α] [Collection α] {policy : RetryPolicy}
    {occurredAt : Instant} {before after : Stores} {a : α}
    (h : Committed policy occurredAt before after a) :
    Appended policy occurredAt before after a where
  stored := h.stored
  others := h.others
  outbox := by
    obtain ⟨entries, hlog, hnew, -⟩ := h.outbox
    exact ⟨entries, hlog, hnew⟩

/-- The stores behind a command that was accepted with `count` events. -/
inductive Accepts (policy : RetryPolicy) (b : Backend) (command : Command) (count : Nat)
    (after : Stores) : Prop where
  | menuItem {item : MenuItem} (change : MenuItemChange b.stores command item)
      (id_eq : item.id = Text.trim command.target)
      (count_eq : count = (Aggregate.events item).length)
      (committed : Committed policy b.clock b.stores after item)
      (orders : after.orders = b.stores.orders)
  | order {order : Order} (change : OrderChange b.stores b.ids command order)
      (id_eq : order.id = Text.trim command.target)
      (count_eq : count = (Aggregate.events order).length)
      (committed : Committed policy b.clock b.stores after order)
      (menuItems : after.menuItems = b.stores.menuItems)

/-! ## Aggregates at rest -/

/-- An aggregate as it is committed: its id is trimmed and not blank, and it has handed on its
events. -/
structure Settled {α : Type} [Aggregate α] (a : α) : Prop where
  id : Text.required? (Aggregate.id a) = some (Aggregate.id a)
  events : Aggregate.events a = []

/-- What holds of every order and of every menu item that is committed. -/
structure Law where
  order : Order → Prop
  menuItem : MenuItem → Prop

/-- Every committed aggregate is stored under its own id, and the law holds of it. -/
structure Stores.Lawful (law : Law) (s : Stores) : Prop where
  orders {id : String} {v : Versioned Order} : s.orders[id]? = some v →
    v.value.id = id ∧ law.order v.value
  menuItems {id : String} {v : Versioned MenuItem} : s.menuItems[id]? = some v →
    v.value.id = id ∧ law.menuItem v.value

/-- Aggregates are committed at rest. -/
def Law.settled : Law := ⟨TableService.Settled, TableService.Settled⟩

/-- All that is committed is at rest. -/
abbrev Stores.Settled (s : Stores) : Prop := s.Lawful .settled

end TableService
