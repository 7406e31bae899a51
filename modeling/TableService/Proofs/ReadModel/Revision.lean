import Mathlib.Data.List.Nodup
import TableService.ReadModel.Store

/-!
# What becomes of a read model

A projector makes a read model once, and from then on it revises it.

- `OrderModel.Revises`, `MenuItemModel.Revises`: what may become of a read model, or of none.
- `OrderModel.Sound`: the items of an order have ids of their own and are priced by quantity, and
  every status is one of three.
- `OrderModel.Follows`, `MenuItemModel.Follows`: one read model is a later state of another. What it
  was created with has not changed, and items have only been added behind the others.
- `OrderModel.Revises.sound`, `OrderModel.Revises.follows`: a revision of a sound order is sound,
  and it is a later state of it.
-/

namespace TableService

/-! ## Menu items -/

namespace MenuItemModel

/-- What one event may make of a menu item, or of none. -/
inductive Revises : Option MenuItemModel → MenuItemModel → Prop where
  | created (menuItemId name : String) (price : Decimal) :
      Revises none ⟨menuItemId, name, price, true⟩
  | available (item : MenuItemModel) (available : Bool) :
      Revises (some item) { item with available }

/-- The item is the same, available or not. -/
def Follows (item item' : MenuItemModel) : Prop :=
  item'.menuItemId = item.menuItemId ∧ item'.name = item.name ∧ item'.price = item.price

theorem Follows.refl (item : MenuItemModel) : item.Follows item := ⟨rfl, rfl, rfl⟩

theorem Follows.trans {a b c : MenuItemModel} (h : a.Follows b) (h' : b.Follows c) :
    a.Follows c :=
  ⟨h'.1.trans h.1, h'.2.1.trans h.2.1, h'.2.2.trans h.2.2⟩

theorem Revises.follows {item item' : MenuItemModel} (h : Revises (some item) item') :
    item.Follows item' := by
  cases h with
  | available _ available => exact ⟨rfl, rfl, rfl⟩

end MenuItemModel

/-! ## Orders -/

/-- The total price is the product of the unit price and the quantity. -/
def OrderItemModel.IsPriced (item : OrderItemModel) : Prop :=
  (Decimal.ofInt? item.quantity).bind item.unitPrice.mul? = some item.totalPrice

namespace OrderModel

/-- What one event may make of an order, or of none. -/
inductive Revises : Option OrderModel → OrderModel → Prop where
  | placed (orderId : String) (tableNumber : Nat) :
      Revises none ⟨orderId, tableNumber, "open", []⟩
  | itemAdded {order : OrderModel} {item : OrderItemModel}
      (isNew : order.hasItem item.itemId = false) (pending : item.status = "pending")
      (priced : item.IsPriced) :
      Revises (some order) { order with items := order.items ++ [item] }
  | itemStatus (order : OrderModel) (itemId : String) {status : String}
      (known : status ∈ ["ready", "cancelled"]) :
      Revises (some order) (order.setItemStatus itemId status)
  | status (order : OrderModel) {status : String} (known : status ∈ ["completed", "cancelled"]) :
      Revises (some order) { order with status }

/-- What holds of every order that is shown. -/
structure Sound (order : OrderModel) : Prop where
  distinct : (order.items.map (·.itemId)).Nodup
  priced : ∀ item ∈ order.items, item.IsPriced
  status : order.status ∈ ["open", "completed", "cancelled"]
  itemStatus : ∀ item ∈ order.items, item.status ∈ ["pending", "ready", "cancelled"]

/-- The order is the same. Each item is in its place, and nothing of it has changed but its
status. -/
structure Follows (order order' : OrderModel) : Prop where
  orderId : order'.orderId = order.orderId
  tableNumber : order'.tableNumber = order.tableNumber
  items : ∀ (k : Nat) (item : OrderItemModel), order.items[k]? = some item →
    ∃ status, order'.items[k]? = some { item with status }

variable {order order' : OrderModel}

theorem Follows.refl (order : OrderModel) : order.Follows order where
  orderId := rfl
  tableNumber := rfl
  items _ item h := ⟨item.status, h⟩

theorem Follows.trans {a b c : OrderModel} (h : a.Follows b) (h' : b.Follows c) :
    a.Follows c where
  orderId := h'.orderId.trans h.orderId
  tableNumber := h'.tableNumber.trans h.tableNumber
  items k item hitem := by
    obtain ⟨status, hb⟩ := h.items k item hitem
    exact h'.items k { item with status } hb

theorem hasItem_eq_false_iff {itemId : String} :
    order.hasItem itemId = false ↔ itemId ∉ order.items.map (·.itemId) := by
  simp [hasItem]

theorem map_itemId_setItemStatus (order : OrderModel) (itemId status : String) :
    (order.setItemStatus itemId status).items.map (·.itemId) = order.items.map (·.itemId) :=
  map_updateFirst (f := fun item : OrderItemModel => { item with status }) (fun _ => rfl) _

/-- A new order is sound, and so is a revision of a sound one. -/
theorem Revises.sound {found : Option OrderModel} (h : Revises found order')
    (hfound : ∀ order ∈ found, order.Sound) : order'.Sound := by
  cases h with
  | placed orderId tableNumber =>
    refine { distinct := List.nodup_nil, priced := nofun, status := ?_, itemStatus := nofun }
    show "open" ∈ ["open", "completed", "cancelled"]
    decide
  | @itemAdded order item isNew pending priced =>
    have h := hfound order rfl
    refine { distinct := ?_, priced := ?_, status := h.status, itemStatus := ?_ }
    · show ((order.items ++ [item]).map (·.itemId)).Nodup
      rw [List.map_append, List.map_singleton, ← List.concat_eq_append]
      exact h.distinct.concat (hasItem_eq_false_iff.mp isNew)
    · intro other hother
      rcases List.mem_append.mp hother with hold | hnew
      · exact h.priced other hold
      · rw [List.mem_singleton.mp hnew]
        exact priced
    · intro other hother
      rcases List.mem_append.mp hother with hold | hnew
      · exact h.itemStatus other hold
      · rw [List.mem_singleton.mp hnew, pending]
        decide
  | itemStatus order itemId known =>
    have h := hfound order rfl
    refine { distinct := ?_, priced := ?_, status := h.status, itemStatus := ?_ }
    · rw [map_itemId_setItemStatus]
      exact h.distinct
    · exact forall_mem_updateFirst h.priced fun _ hpriced => hpriced
    · exact forall_mem_updateFirst h.itemStatus fun _ _ => List.mem_cons_of_mem _ known
  | status order known =>
    have h := hfound order rfl
    exact { h with status := List.mem_cons_of_mem _ known }

theorem Revises.follows (h : Revises (some order) order') : order.Follows order' := by
  cases h with
  | @itemAdded _ new _ _ _ =>
    refine { orderId := rfl, tableNumber := rfl, items := fun k item hitem => ⟨item.status, ?_⟩ }
    have hk := (List.getElem?_eq_some_iff.mp hitem).1
    show (order.items ++ [new])[k]? = some item
    rw [List.getElem?_append_left hk, hitem]
  | @itemStatus _ itemId status _ =>
    refine { orderId := rfl, tableNumber := rfl, items := fun k item hitem => ?_ }
    rcases getElem?_updateFirst (p := (·.itemId == itemId))
      (f := fun i : OrderItemModel => { i with status }) hitem with hsame | hset
    · exact ⟨item.status, hsame⟩
    · exact ⟨status, hset⟩
  | status _ known =>
    exact { orderId := rfl, tableNumber := rfl, items := fun _ item hitem => ⟨item.status, hitem⟩ }

end OrderModel

end TableService
