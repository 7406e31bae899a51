import Mathlib.Data.List.Basic
import TableService.Domain.MenuItem
import TableService.Domain.Order
import TableService.Proofs.InPlace

/-!
# What a change of an aggregate comes to

One lemma for each way to make or change an aggregate: if it is not refused, what it was asked for
holds, and the result is this one.

- `MenuItem.create_ok`, `Order.place_ok`, `Order.addItem_ok`: what is new has trimmed texts.
- `Order.markItemReady_ok`, `cancelItem_ok`, `complete_ok`, `cancel_ok`: only an open order changes.
- `Order.id_addItem` and its like: no change touches the id.
-/

namespace TableService

/-! ## Steps that may be refused -/

/-- Takes two steps of a change apart, neither of which is refused. -/
theorem bind_ok {ε α β : Type} {x : Except ε α} {f : α → Except ε β} {b : β}
    (h : x >>= f = .ok b) : ∃ a, x = .ok a ∧ f a = .ok b := by
  cases x with
  | error e => cases h
  | ok a => exact ⟨a, rfl, h⟩

theorem mapError_ok {ε ε' α : Type} {x : Except ε α} {f : ε → ε'} {a : α}
    (h : x.mapError f = .ok a) : x = .ok a := by
  cases x with
  | error e => cases h
  | ok a' =>
    cases h
    rfl

/-! ## Required texts -/

theorem Text.trim_eq_of_required? {s t : String} (h : Text.required? s = some t) :
    Text.trim s = t := by
  simp only [required?] at h
  split at h
  · cases h
  · exact Option.some.inj h

theorem requireText_ok {entity field value t : String}
    (h : requireText entity field value = .ok t) : Text.required? value = some t := by
  simp only [requireText] at h
  split at h
  · rename_i t' ht
    cases h
    exact ht
  · cases h

theorem MenuItem.create_ok {id name : String} {price : Money} {item : MenuItem}
    (h : MenuItem.create id name price = .ok item) :
    Text.required? id = some item.id ∧ Text.required? name = some item.name ∧
      item = ⟨item.id, item.name, price, true, [.created item.id item.name price.amount]⟩ := by
  simp only [create] at h
  cases hid : requireText "MenuItem" "id" id with
  | error e =>
    rw [hid] at h
    cases h
  | ok i =>
    cases hname : requireText "MenuItem" "name" name with
    | error e =>
      rw [hid, hname] at h
      cases h
    | ok n =>
      rw [hid, hname] at h
      cases h
      exact ⟨requireText_ok hid, requireText_ok hname, rfl⟩

theorem Order.place_ok {orderId : String} {table : TableNumber} {order : Order}
    (h : Order.place orderId table = .ok order) :
    Text.required? orderId = some order.id ∧
      order = ⟨order.id, table, [], .opened, [.placed order.id table.value]⟩ := by
  simp only [place, Order.requireText] at h
  cases hid : TableService.requireText "Order" "id" orderId with
  | error e =>
    rw [hid] at h
    cases h
  | ok i =>
    rw [hid] at h
    cases h
    exact ⟨requireText_ok hid, rfl⟩

/-! ## Changes of an order -/

namespace OrderM

variable {α β : Type} {order order' : Order} {f : Order → Except OrderError α}
  {next : α → OrderM β}

theorem run_check (f : Order → Except OrderError α) (order : Order) :
    (check f).run.run order = (f order, order) :=
  InPlace.run_ofExcept (f order) order

theorem run_check_bind (f : Order → Except OrderError α) (next : α → OrderM β) (order : Order) :
    (check f >>= next).run.run order =
      match f order with
      | .ok a => (next a).run.run order
      | .error e => (.error e, order) := by
  rw [InPlace.run_bind, run_check]
  cases f order <;> rfl

/-- Takes a change in place apart that is not refused. -/
theorem check_ok {b : β} (h : (check f >>= next).run.run order = (.ok b, order')) :
    ∃ a, f order = .ok a ∧ (next a).run.run order = (.ok b, order') := by
  rw [run_check_bind] at h
  cases hf : f order with
  | error e =>
    rw [hf] at h
    cases h
  | ok a =>
    rw [hf] at h
    exact ⟨a, rfl, h⟩

end OrderM

namespace Order

open OrderM (check_ok)

variable {order order' : Order} {itemId : String}

theorem change_ok {m : OrderM Unit} (h : order.change m = .ok order') :
    m.run.run order = (.ok (), order') := by
  unfold change at h
  split at h
  · rename_i hm
    cases h
    exact hm
  · cases h

theorem assertOpen_ok (h : order.assertOpen = .ok ()) : order.status = .opened := by
  simp only [assertOpen] at h
  split at h
  · assumption
  · cases h

theorem assertReady_ok (h : order.assertReady = .ok ()) :
    order.activeItems ≠ [] ∧ ∀ item ∈ order.activeItems, item.status = .ready := by
  simp only [assertReady] at h
  split at h
  · cases h
  · rename_i hready
    simpa only [not_or, not_exists, not_and, ne_eq, not_not] using hready

theorem findItem_ok {item : OrderItem} (h : order.findItem itemId = .ok item) :
    order.items.find? (·.id == itemId) = some item := by
  simp only [findItem] at h
  split at h
  · rename_i found hfound
    cases h
    exact hfound
  · cases h

theorem addItem_ok {menuItemId name : String} {unitPrice : Money} {quantity : Quantity}
    (h : order.addItem itemId menuItemId name unitPrice quantity = .ok order') :
    order.status = .opened ∧ ∃ item : OrderItem,
      Text.required? itemId = some item.id ∧ Text.required? menuItemId = some item.menuItemId ∧
      Text.required? name = some item.name ∧ item.unitPrice = unitPrice ∧ item.quantity = quantity ∧
      item.status = .pending ∧
      order' = { order with
        items := order.items ++ [item]
        recorded := order.recorded ++ [.itemAdded order.id item.id item.menuItemId item.name
          unitPrice.amount quantity.value] } := by
  obtain ⟨_, hopen, h⟩ := check_ok (change_ok h)
  obtain ⟨i, hi, h⟩ := check_ok h
  obtain ⟨m, hm, h⟩ := check_ok h
  obtain ⟨n, hn, h⟩ := check_ok h
  cases h
  refine ⟨assertOpen_ok hopen, ⟨i, m, n, unitPrice, quantity, .pending⟩, ?_, ?_, ?_, rfl, rfl, rfl,
    rfl⟩
  · exact requireText_ok (mapError_ok hi)
  · exact requireText_ok (mapError_ok hm)
  · exact requireText_ok (mapError_ok hn)

theorem markItemReady_ok (h : order.markItemReady itemId = .ok order') :
    order.status = .opened ∧ ∃ item, order.items.find? (·.id == itemId) = some item ∧
      item.status = .pending ∧
      order' = (order.setItemStatus itemId .ready).record (.dishReady order.id itemId) := by
  obtain ⟨_, hopen, h⟩ := check_ok (change_ok h)
  obtain ⟨item, hfind, h⟩ := check_ok h
  by_cases hp : item.status = .pending
  · simp only [hp, ne_eq, not_true_eq_false, if_false] at h
    cases h
    exact ⟨assertOpen_ok hopen, item, findItem_ok hfind, hp, rfl⟩
  · simp only [ne_eq, hp, not_false_eq_true, if_true] at h
    cases h

/-- An item that is cancelled already leaves the order as it is. -/
theorem cancelItem_ok (h : order.cancelItem itemId = .ok order') :
    order.status = .opened ∧ ∃ item, order.items.find? (·.id == itemId) = some item ∧
      (item.status = .cancelled ∧ order' = order ∨
        item.status = .pending ∧ order' = ((order.setItemStatus itemId .cancelled).record
          (.itemCancelled order.id itemId)).closeIfEmpty) := by
  obtain ⟨_, hopen, h⟩ := check_ok (change_ok h)
  obtain ⟨item, hfind, h⟩ := check_ok h
  refine ⟨assertOpen_ok hopen, item, findItem_ok hfind, ?_⟩
  cases hs : item.status with
  | pending =>
    rw [hs] at h
    cases h
    exact .inr ⟨rfl, rfl⟩
  | ready =>
    -- an item that is ready is refused
    rw [hs] at h
    cases h
  | cancelled =>
    rw [hs] at h
    cases h
    exact .inl ⟨rfl, rfl⟩

theorem complete_ok (h : order.complete = .ok order') :
    order.status = .opened ∧ order.activeItems ≠ [] ∧
      (∀ item ∈ order.activeItems, item.status = .ready) ∧
      order' = { order with status := .completed }.record (.completed order.id) := by
  obtain ⟨_, hopen, h⟩ := check_ok (change_ok h)
  obtain ⟨_, hready, h⟩ := check_ok h
  cases h
  exact ⟨assertOpen_ok hopen, (assertReady_ok hready).1, (assertReady_ok hready).2, rfl⟩

theorem cancel_ok (h : order.cancel = .ok order') :
    order.status = .opened ∧ order' = { order with
      items := order.items.map fun i =>
        if i.status = .pending then { i with status := .cancelled } else i
      status := .cancelled
      recorded := order.recorded ++
        (order.items.filter (·.status = .pending)).map (.itemCancelled order.id ·.id) ++
        [.cancelled order.id] } := by
  obtain ⟨_, hopen, h⟩ := check_ok (change_ok h)
  cases h
  exact ⟨assertOpen_ok hopen, rfl⟩

/-! ## The id stays -/

theorem id_closeIfEmpty (order : Order) : order.closeIfEmpty.id = order.id := by
  simp only [closeIfEmpty]
  split <;> rfl

theorem id_addItem {menuItemId name : String} {unitPrice : Money} {quantity : Quantity}
    (h : order.addItem itemId menuItemId name unitPrice quantity = .ok order') :
    order'.id = order.id := by
  obtain ⟨-, item, -, -, -, -, -, -, rfl⟩ := addItem_ok h
  rfl

theorem id_markItemReady (h : order.markItemReady itemId = .ok order') : order'.id = order.id := by
  obtain ⟨-, item, -, -, rfl⟩ := markItemReady_ok h
  rfl

theorem id_cancelItem (h : order.cancelItem itemId = .ok order') : order'.id = order.id := by
  obtain ⟨-, item, -, ⟨-, rfl⟩ | ⟨-, rfl⟩⟩ := cancelItem_ok h
  · rfl
  · exact id_closeIfEmpty _

theorem id_complete (h : order.complete = .ok order') : order'.id = order.id := by
  obtain ⟨-, -, -, rfl⟩ := complete_ok h
  rfl

theorem id_cancel (h : order.cancel = .ok order') : order'.id = order.id := by
  obtain ⟨-, rfl⟩ := cancel_ok h
  rfl

end Order

namespace MenuItem

@[simp] theorem id_markSoldOut (item : MenuItem) : item.markSoldOut.id = item.id := by
  simp only [markSoldOut]
  split <;> rfl

@[simp] theorem id_markAvailable (item : MenuItem) : item.markAvailable.id = item.id := by
  simp only [markAvailable]
  split <;> rfl

end MenuItem

end TableService
