import TableService.Proofs.Domain.Changes
import TableService.Proofs.ReadModel.InPlace
import TableService.Proofs.ReadModel.Revision
import TableService.Proofs.Store.Tables

/-!
# Changes of one read model, planned ahead

A handler works in place, and a failure half way would leave its work half done. A plan fails
before anything is changed.

- `Shelf`: the read models of one kind, with the names of the calls that find and save them.
- `Plan`: what is to become of the read model with a given id. It keeps its id, it is revised as
  read models of its kind are, and nothing is left to do for a read model that the plan has made.
- `Plan.create`, `Plan.update`: the two kinds of plans.
- `Plan.perform_ok`: performing a plan changes the read model that the payload names, and no other;
  to perform it again changes nothing.
- `ProjectionM.onPlaced_planned` and the like: each handler does in place what a plan does.
-/

namespace TableService

variable {α : Type}

/-! ## Shelves -/

/-- One of the two tables of read models, with the calls that reach it. -/
structure Shelf (α : Type) where
  own : α → String
  /-- The field of a payload that names a read model. -/
  field : String
  table : ReadModels → Table α
  put : ReadModels → α → ReadModels
  /-- The calls that find and save a read model. -/
  findCall : String
  saveCall : String
  /-- What may become of a read model, or of none. -/
  Revises : Option α → α → Prop
  table_put : ∀ m a, table (put m a) = (table m).insert (own a) a
  put_self : ∀ {m a}, (table m)[own a]? = some a → put m a = m

/-- A call that is up is up for all read models. -/
theorem Outage.check_ok {β γ : Type} {out : Outage} {call : String} (f : β → γ) {b : β} {c : γ}
    (h : (do out.check call; return f b) = .ok c) :
    c = f b ∧ ∀ b, (do out.check call; return f b) = .ok (f b) := by
  obtain ⟨u, hup, h⟩ := bind_ok h
  obtain rfl := Except.ok.inj h
  refine ⟨rfl, ?_⟩
  intro b
  rw [hup]
  rfl

namespace Shelf

/-- The orders that are shown. -/
def orders : Shelf OrderModel where
  own := (·.orderId)
  field := "order_id"
  table := (·.orders)
  put m order := { m with orders := m.orders.insert order.orderId order }
  findCall := "order_find"
  saveCall := "order_save"
  Revises := OrderModel.Revises
  table_put _ _ := rfl
  put_self h := by rw [Table.insert_eq_self h]

/-- The menu items that are shown. -/
def menuItems : Shelf MenuItemModel where
  own := (·.menuItemId)
  field := "menu_item_id"
  table := (·.menuItems)
  put m item := { m with menuItems := m.menuItems.insert item.menuItemId item }
  findCall := "menu_find"
  saveCall := "menu_save"
  Revises := MenuItemModel.Revises
  table_put _ _ := rfl
  put_self h := by rw [Table.insert_eq_self h]

variable (shelf : Shelf α)

/-- The read model with this id, if one is shown. -/
def find (out : Outage) (id : String) (m : ReadModels) : Except ProjectionError (Option α) := do
  out.check shelf.findCall
  return (shelf.table m)[id]?

/-- Puts a read model under its own id. -/
def save (out : Outage) (a : α) (m : ReadModels) : Except ProjectionError ReadModels := do
  out.check shelf.saveCall
  return shelf.put m a

/-- Every read model is under its own id. -/
def Keyed (m : ReadModels) : Prop :=
  ∀ (id : String) (a : α), (shelf.table m)[id]? = some a → shelf.own a = id

/-- Saves a read model if there is one to be saved. -/
def keep (out : Outage) (m : ReadModels) : Option α → Except ProjectionFailure ReadModels
  | none => .ok m
  | some a => (shelf.save out a m).mapError .error

variable {shelf} {m : ReadModels} {a : α}

theorem find_ok {out : Outage} {id : String} {found : Option α}
    (h : shelf.find out id m = .ok found) :
    found = (shelf.table m)[id]? ∧ ∀ m', shelf.find out id m' = .ok (shelf.table m')[id]? :=
  Outage.check_ok (fun m => (shelf.table m)[id]?) h

theorem save_ok {out : Outage} {m' : ReadModels} (h : shelf.save out a m = .ok m') :
    m' = shelf.put m a ∧ ∀ m, shelf.save out a m = .ok (shelf.put m a) :=
  Outage.check_ok (fun m => shelf.put m a) h

theorem found_put : (shelf.table (shelf.put m a))[shelf.own a]? = some a := by
  rw [shelf.table_put, Std.ExtTreeMap.getElem?_insert_self]

theorem Keyed.put (h : shelf.Keyed m) (a : α) : shelf.Keyed (shelf.put m a) := by
  intro id b hb
  rw [shelf.table_put] at hb
  by_cases hid : shelf.own a = id
  · subst hid
    rw [Std.ExtTreeMap.getElem?_insert_self, Option.some.injEq] at hb
    rw [hb]
  · rw [Table.getElem?_insert_of_ne hid] at hb
    exact h id b hb

end Shelf

/-! ## Plans -/

/-- What an event does to the read model with this id. To do it once more changes nothing. -/
structure Plan (shelf : Shelf α) (id : String) where
  /-- The read model to be saved, if any, given the one that is found. -/
  revise : Option α → Except ProjectionFailure (Option α)
  own_revised : ∀ {found a}, (∀ b ∈ found, shelf.own b = id) → revise found = .ok (some a) →
    shelf.own a = id
  revises : ∀ {found a}, revise found = .ok (some a) → shelf.Revises found a
  revise_revised : ∀ {found a}, revise found = .ok (some a) →
    revise (some a) = .ok none ∨ revise (some a) = .ok (some a)

open ProjectionM (behind)

namespace Plan

variable {shelf : Shelf α} {id : String} {out : Outage} {m m' : ReadModels}

/-- Makes a read model, unless there is one. -/
def create (make : Except ProjectionFailure α)
    (hmake : ∀ a, make = .ok a → shelf.own a = id ∧ shelf.Revises none a) : Plan shelf id where
  revise
    | some _ => .ok none
    | none => make.map some
  own_revised {found a} _ h := by
    cases found with
    | some b => cases h
    | none =>
      cases make with
      | error e => cases h
      | ok b =>
        cases h
        exact (hmake _ rfl).1
  revises {found a} h := by
    cases found with
    | some b => cases h
    | none =>
      cases make with
      | error e => cases h
      | ok b =>
        cases h
        exact (hmake _ rfl).2
  revise_revised _ := .inl rfl

/-- Changes a read model where there is one. -/
def update (change : α → Except ProjectionFailure (Option α))
    (hown : ∀ {a b}, change a = .ok (some b) → shelf.own b = shelf.own a)
    (hrevises : ∀ {a b}, change a = .ok (some b) → shelf.Revises (some a) b)
    (hagain : ∀ {a b}, change a = .ok (some b) → change b = .ok none ∨ change b = .ok (some b)) :
    Plan shelf id where
  revise
    | none => .ok none
    | some a => change a
  own_revised {found a} hfound h := by
    cases found with
    | none => cases h
    | some b => exact (hown h).trans (hfound b rfl)
  revises {found a} h := by
    cases found with
    | none => cases h
    | some b => exact hrevises h
  revise_revised {found a} h := by
    cases found with
    | none => cases h
    | some b => exact hagain h

/-- Finds the read model, revises it and saves what comes of it. -/
def apply (plan : Plan shelf id) (out : Outage) (m : ReadModels) :
    Except ProjectionFailure ReadModels := do
  let found ← (shelf.find out id m).mapError .error
  shelf.keep out m (← plan.revise found)

theorem apply_ok {plan : Plan shelf id} (hm : shelf.Keyed m) (h : plan.apply out m = .ok m') :
    (m' = m ∨ ∃ a, shelf.own a = id ∧ m' = shelf.put m a) ∧ plan.apply out m' = .ok m' := by
  have happlied := h
  obtain ⟨found, hfind, h⟩ := bind_ok h
  obtain ⟨revised, hrevise, h⟩ := bind_ok h
  obtain ⟨rfl, hup⟩ := shelf.find_ok (mapError_ok hfind)
  cases revised with
  | none =>
    obtain rfl : m = m' := Except.ok.inj h
    exact ⟨.inl rfl, happlied⟩
  | some a =>
    obtain ⟨rfl, hsaved⟩ := shelf.save_ok (mapError_ok h)
    have hown : shelf.own a = id := plan.own_revised (fun b hb => hm id b hb) hrevise
    refine ⟨.inr ⟨a, hown, rfl⟩, ?_⟩
    -- what was saved is found again, and is as the plan wants it
    have hfound : (shelf.table (shelf.put m a))[id]? = some a := by
      rw [← hown]
      exact Shelf.found_put
    simp only [apply, hup, hfound, Except.mapError, bind, Except.bind]
    rcases plan.revise_revised hrevise with hdone | hsame
    · rw [hdone]
      rfl
    · simp only [hsame, Shelf.keep, hsaved, shelf.put_self Shelf.found_put, Except.mapError]

/-- What comes of a plan depends on what is found, and on nothing else. -/
theorem apply_cases (plan : Plan shelf id) (out : Outage) (found : Option α) :
    (∃ r, ∀ m, (shelf.table m)[id]? = found → behind m (plan.apply out m) = (r, m)) ∨
      ∃ a, plan.revise found = .ok (some a) ∧
        ∀ m, (shelf.table m)[id]? = found → plan.apply out m = .ok (shelf.put m a) := by
  cases hup : out.check shelf.findCall with
  | error e =>
    refine .inl ⟨.error (.error e), fun m _ => ?_⟩
    rw [apply, Shelf.find, hup]
    rfl
  | ok _ =>
    have happly (m : ReadModels) (hm : (shelf.table m)[id]? = found) :
        plan.apply out m = plan.revise found >>= shelf.keep out m := by
      rw [apply, Shelf.find, hup, ← hm]
      rfl
    cases hrevise : plan.revise found with
    | error e =>
      refine .inl ⟨.error e, fun m hm => ?_⟩
      rw [happly m hm, hrevise]
      rfl
    | ok revised =>
      cases revised with
      | none =>
        refine .inl ⟨.ok (), fun m hm => ?_⟩
        rw [happly m hm, hrevise]
        rfl
      | some a =>
        cases hsave : out.check shelf.saveCall with
        | error e =>
          refine .inl ⟨.error (.error e), fun m hm => ?_⟩
          rw [happly m hm, hrevise]
          show behind m ((shelf.save out a m).mapError .error) = _
          rw [Shelf.save, hsave]
          rfl
        | ok _ =>
          refine .inr ⟨a, rfl, fun m hm => ?_⟩
          rw [happly m hm, hrevise]
          show (shelf.save out a m).mapError ProjectionFailure.error = .ok (shelf.put m a)
          rw [Shelf.save, hsave]
          rfl

end Plan

/-! ## Steps with a plan -/

/-- The id of the read model that a payload names. -/
def Payload.named (data : Payload) (field : String) : Option String :=
  (data.lookup field).bind Fields.string?

theorem Fields.named_of_string {f : Fields} {field id : String} (h : f.string field = .ok id) :
    f.payload.named field = some id := by
  obtain ⟨v, hget, h⟩ := bind_ok h
  have hlookup : f.payload.lookup field = some v := by
    rw [get] at hget
    split at hget
    · rename_i hfound
      rw [hfound, Except.ok.inj hget]
    · cases hget
  rw [Payload.named, hlookup]
  show string? v = some id
  split at h
  · rename_i hread
    rw [hread, Except.ok.inj h]
  · cases h

namespace Plan

variable {shelf : Shelf α} {out : Outage} {m m' : ReadModels}

/-- Carries a plan out for the read model that an event names. -/
def perform (f : Fields) (plan : (id : String) → Except ProjectionFailure (Plan shelf id))
    (out : Outage) (m : ReadModels) : Except ProjectionFailure ReadModels := do
  let id ← (f.string shelf.field).mapError .error
  (← plan id).apply out m

theorem perform_ok {f : Fields} {plan : (id : String) → Except ProjectionFailure (Plan shelf id)}
    (hm : shelf.Keyed m) (h : perform f plan out m = .ok m') :
    (∃ id, f.payload.named shelf.field = some id ∧
        (m' = m ∨ ∃ a, shelf.own a = id ∧ m' = shelf.put m a)) ∧
      perform f plan out m' = .ok m' := by
  obtain ⟨id, hid, h⟩ := bind_ok h
  obtain ⟨p, hp, h⟩ := bind_ok h
  obtain ⟨hput, hagain⟩ := apply_ok hm h
  refine ⟨⟨id, Fields.named_of_string (mapError_ok hid), hput⟩, ?_⟩
  rw [perform, hid]
  simp only [bind, Except.bind, hp, hagain]

end Plan

/-- Steps that do in place what a plan does. -/
def Steps.Planned (shelf : Shelf α) (data : Payload) (steps : Steps) : Prop :=
  ∃ (eventType : String) (plan : (id : String) → Except ProjectionFailure (Plan shelf id)),
    ∀ out m, steps.run out m = ProjectionM.behind m (Plan.perform ⟨eventType, data⟩ plan out m)

/-- The steps fail whatever there is, or a plan is carried out for the read model that is named. -/
theorem Steps.Planned.cases {shelf : Shelf α} {data : Payload} {steps : Steps}
    (h : Steps.Planned shelf data steps) :
    (∃ e, ∀ out m, steps.run out m = (.error e, m)) ∨
      ∃ id, data.named shelf.field = some id ∧ ∃ plan : Plan shelf id,
        ∀ out m, steps.run out m = behind m (plan.apply out m) := by
  obtain ⟨eventType, plan, hsteps⟩ := h
  cases hid : Fields.string ⟨eventType, data⟩ shelf.field with
  | error e =>
    refine .inl ⟨.error e, fun out m => ?_⟩
    rw [hsteps, Plan.perform, hid]
    rfl
  | ok id =>
    cases hplan : plan id with
    | error e =>
      refine .inl ⟨e, fun out m => ?_⟩
      rw [hsteps, Plan.perform, hid]
      simp only [bind, Except.bind, Except.mapError, hplan, behind]
    | ok p =>
      refine .inr ⟨id, Fields.named_of_string hid, p, fun out m => ?_⟩
      rw [hsteps, Plan.perform, hid]
      simp only [bind, Except.bind, Except.mapError, hplan]

/-! ## What is planned for each event -/

namespace Plan

/-- A menu item is shown for the first time. -/
def created (f : Fields) (id : String) : Plan .menuItems id :=
  create
    (do
      let name ← (f.string "name").mapError .error
      let price ← (f.decimal "price").mapError .error
      return { menuItemId := id, name, price, available := true })
    (by
      intro item h
      obtain ⟨name, -, h⟩ := bind_ok h
      obtain ⟨price, -, h⟩ := bind_ok h
      rw [← Except.ok.inj h]
      exact ⟨rfl, .created id name price⟩)

/-- A menu item becomes available, or is sold out. -/
def available (available : Bool) (id : String) : Plan .menuItems id :=
  update (fun item => .ok (some { item with available }))
    (by
      rintro a b ⟨⟩
      rfl)
    (by
      rintro a b ⟨⟩
      exact .available a available)
    (by
      rintro a b ⟨⟩
      exact .inr rfl)

/-- An order is shown for the first time. -/
def placed (f : Fields) (id : String) : Plan .orders id :=
  create
    (do
      let tableNumber ← (f.word "table_number").mapError .error
      return { orderId := id, tableNumber, status := "open", items := [] })
    (by
      intro order h
      obtain ⟨tableNumber, -, h⟩ := bind_ok h
      rw [← Except.ok.inj h]
      exact ⟨rfl, .placed id tableNumber⟩)

/-- An order ends. -/
def status {status : String} (known : status ∈ ["completed", "cancelled"]) (id : String) :
    Plan .orders id :=
  update (fun order => .ok (some { order with status }))
    (by
      rintro a b ⟨⟩
      rfl)
    (by
      rintro a b ⟨⟩
      exact .status a known)
    (by
      rintro a b ⟨⟩
      exact .inr rfl)

end Plan

namespace OrderModel

variable {order order' : OrderModel} {itemId : String}

/-- The order with a new item, unless it has the item already. -/
def withItem (f : Fields) (itemId : String) (order : OrderModel) :
    Except ProjectionFailure (Option OrderModel) :=
  if order.hasItem itemId then .ok none
  else (newItem f itemId).map fun item => some { order with items := order.items ++ [item] }

theorem newItem_ok {f : Fields} {item : OrderItemModel} (h : newItem f itemId = .ok item) :
    item.itemId = itemId ∧ item.status = "pending" ∧ item.IsPriced := by
  obtain ⟨unitPrice, -, h⟩ := bind_ok h
  obtain ⟨quantity, -, h⟩ := bind_ok h
  obtain ⟨menuItemId, -, h⟩ := bind_ok h
  obtain ⟨name, -, h⟩ := bind_ok h
  split at h
  · rename_i totalPrice htotal
    rw [← Except.ok.inj h]
    exact ⟨rfl, rfl, htotal⟩
  · cases h

/-- The item is behind the others. -/
theorem withItem_ok {f : Fields} (h : withItem f itemId order = .ok (some order')) :
    order'.orderId = order.orderId ∧ order'.hasItem itemId ∧ Revises (some order) order' := by
  rw [withItem] at h
  split at h
  · cases h
  · rename_i hnot
    cases hnew : newItem f itemId with
    | error e =>
      rw [hnew] at h
      cases h
    | ok item =>
      rw [hnew] at h
      obtain rfl := Option.some.inj (Except.ok.inj h)
      obtain ⟨rfl, hpending, hpriced⟩ := newItem_ok hnew
      refine ⟨rfl, ?_, .itemAdded (Bool.eq_false_iff.mpr hnot) hpending hpriced⟩
      simp [hasItem]

theorem hasItem_eq (order : OrderModel) (itemId : String) :
    order.hasItem itemId = (order.items.map (·.itemId)).any (· == itemId) := by
  rw [List.any_map]
  rfl

theorem hasItem_setItemStatus (order : OrderModel) (itemId other status : String) :
    (order.setItemStatus itemId status).hasItem other = order.hasItem other := by
  rw [hasItem_eq, hasItem_eq]
  exact congrArg (List.any · _)
    (map_updateFirst (f := fun item : OrderItemModel => { item with status }) (fun _ => rfl) _)

theorem setItemStatus_setItemStatus (order : OrderModel) (itemId status : String) :
    (order.setItemStatus itemId status).setItemStatus itemId status =
      order.setItemStatus itemId status :=
  congrArg (fun items => { order with items })
    (updateFirst_updateFirst (f := fun item : OrderItemModel => { item with status })
      (fun _ => rfl) (fun _ => rfl) order.items)

/-- The order with the status of an item set, if it has the item. -/
def withItemStatus (itemId status : String) (order : OrderModel) : Option OrderModel :=
  if order.hasItem itemId then some (order.setItemStatus itemId status) else none

theorem withItemStatus_eq_some {status : String}
    (h : withItemStatus itemId status order = some order') :
    order' = order.setItemStatus itemId status ∧
      withItemStatus itemId status order' = some order' := by
  rw [withItemStatus] at h
  split at h
  · rename_i hhas
    obtain rfl := Option.some.inj h
    refine ⟨rfl, ?_⟩
    rw [withItemStatus, hasItem_setItemStatus, if_pos hhas, setItemStatus_setItemStatus]
  · cases h

end OrderModel

namespace Plan

/-- A line is added to an order. -/
def itemAdded (f : Fields) (itemId id : String) : Plan .orders id :=
  update (OrderModel.withItem f itemId)
    (fun h => (OrderModel.withItem_ok h).1)
    (fun h => (OrderModel.withItem_ok h).2.2)
    (fun h => .inl (by rw [OrderModel.withItem, if_pos (OrderModel.withItem_ok h).2.1]))

/-- A line is settled. -/
def itemStatus (itemId : String) {status : String} (known : status ∈ ["ready", "cancelled"])
    (id : String) : Plan .orders id :=
  update (fun order => .ok (order.withItemStatus itemId status))
    (by
      intro a b h
      obtain ⟨rfl, -⟩ := OrderModel.withItemStatus_eq_some (Except.ok.inj h)
      rfl)
    (by
      intro a b h
      obtain ⟨rfl, -⟩ := OrderModel.withItemStatus_eq_some (Except.ok.inj h)
      exact .itemStatus a itemId known)
    (fun h => .inr (congrArg _ (OrderModel.withItemStatus_eq_some (Except.ok.inj h)).2))

end Plan

/-! ## Handlers -/

namespace ProjectionM

open Plan

variable {shelf : Shelf α} {out : Outage} {m : ReadModels}

theorem exec_look {β : Type} {p : ProjectionM β} {rest : β → ProjectionM Unit}
    {r : Except ProjectionFailure β} {after : β → Except ProjectionFailure ReadModels}
    (hlook : p.exec m = (r, m)) (hrest : ∀ b, (rest b).exec m = behind m (after b)) :
    (p >>= rest).exec m = behind m (r >>= after) := by
  rw [exec_bind, hlook]
  cases r with
  | error e => rfl
  | ok b => exact hrest b

theorem onCreated_planned (data : Payload) : Steps.Planned .menuItems data (onCreated data) := by
  refine ⟨"MenuItemCreated", fun id => .ok (created ⟨"MenuItemCreated", data⟩ id), ?_⟩
  intro out m
  refine exec_look (exec_check _ m) fun id => ?_
  refine exec_look (exec_findMenuItem out id m) fun found => ?_
  cases found with
  | some item => rfl
  | none =>
    simp only [Option.isSome_none, Bool.false_eq_true, if_false, exec_bind, exec_check,
      exec_saveMenuItem, created, create]
    cases Fields.string ⟨"MenuItemCreated", data⟩ "name" with
    | error e => rfl
    | ok name => cases Fields.decimal ⟨"MenuItemCreated", data⟩ "price" <;> rfl

theorem setAvailable_planned (eventType : String) (available : Bool) (data : Payload) :
    Steps.Planned .menuItems data (setAvailable eventType available data) := by
  refine ⟨eventType, fun id => .ok (Plan.available available id), ?_⟩
  intro out m
  refine exec_look (exec_check _ m) fun id => ?_
  refine exec_look (exec_findMenuItem out id m) fun found => ?_
  cases found with
  | none => rfl
  | some item => exact exec_saveMenuItem out _ m

theorem onPlaced_planned (data : Payload) : Steps.Planned .orders data (onPlaced data) := by
  refine ⟨"OrderPlaced", fun id => .ok (placed ⟨"OrderPlaced", data⟩ id), ?_⟩
  intro out m
  refine exec_look (exec_check _ m) fun id => ?_
  refine exec_look (exec_findOrder out id m) fun found => ?_
  cases found with
  | some order => rfl
  | none =>
    simp only [Option.isSome_none, Bool.false_eq_true, if_false, exec_bind, exec_check,
      exec_saveOrder, placed, create]
    cases Fields.word ⟨"OrderPlaced", data⟩ "table_number" <;> rfl

theorem onItemAdded_planned (data : Payload) : Steps.Planned .orders data (onItemAdded data) := by
  refine ⟨"OrderItemAdded", fun id =>
    ((Fields.string ⟨"OrderItemAdded", data⟩ "order_item_id").mapError .error).map fun itemId =>
      itemAdded ⟨"OrderItemAdded", data⟩ itemId id, ?_⟩
  intro out m
  refine exec_look (exec_check _ m) fun id => ?_
  rw [exec_bind, exec_check]
  cases Fields.string ⟨"OrderItemAdded", data⟩ "order_item_id" with
  | error e => rfl
  | ok itemId =>
    refine exec_look (exec_findOrder out id m) fun found => ?_
    cases found with
    | none => rfl
    | some order =>
      simp only [itemAdded, update, OrderModel.withItem]
      cases order.hasItem itemId with
      | true => rfl
      | false =>
        simp only [Bool.false_eq_true, if_false, exec_bind, exec_ofExcept, exec_saveOrder]
        cases OrderModel.newItem ⟨"OrderItemAdded", data⟩ itemId <;> rfl

theorem setStatus_planned (eventType : String) {status : String}
    (known : status ∈ ["completed", "cancelled"]) (data : Payload) :
    Steps.Planned .orders data (setStatus eventType status data) := by
  refine ⟨eventType, fun id => .ok (Plan.status known id), ?_⟩
  intro out m
  refine exec_look (exec_check _ m) fun id => ?_
  refine exec_look (exec_findOrder out id m) fun found => ?_
  cases found with
  | none => rfl
  | some order => exact exec_saveOrder out _ m

theorem setStatusOfItem_planned (eventType : String) {status : String}
    (known : status ∈ ["ready", "cancelled"]) (data : Payload) :
    Steps.Planned .orders data (setStatusOfItem eventType status data) := by
  refine ⟨eventType, fun id =>
    ((Fields.string ⟨eventType, data⟩ "order_item_id").mapError .error).map fun itemId =>
      itemStatus itemId known id, ?_⟩
  intro out m
  refine exec_look (exec_check _ m) fun id => ?_
  rw [exec_bind, exec_check]
  cases Fields.string ⟨eventType, data⟩ "order_item_id" with
  | error e => rfl
  | ok itemId =>
    refine exec_look (exec_findOrder out id m) fun found => ?_
    cases found with
    | none => rfl
    | some order =>
      simp only [itemStatus, update, OrderModel.withItemStatus]
      cases order.hasItem itemId with
      | true => exact exec_saveOrder out _ m
      | false => rfl

end ProjectionM

end TableService
