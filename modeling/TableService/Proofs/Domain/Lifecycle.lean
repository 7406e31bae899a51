import Mathlib.Data.List.Induction
import TableService.Proofs.Domain.Calls

/-!
# The life of an order

- `Order.step`: what a call does to an order in place, and what it answers. `Order.walk` makes one
  step after the other, whether they are refused or not.
- `Order.step_call`: a call that is refused has done nothing before.
- `Order.Coherent`: what the status of an order says of its items.
- `Order.Advances`: what may become of an order. A status leaves its first value once, and items are
  only added, as long as the order is open.
-/

namespace TableService

open InPlace

/-- To ask an order first does it no harm. -/
theorem OrderM.atomic_check {α β : Type} {order : Order} {f : Order → Except OrderError α}
    {next : α → OrderM β} (h : ∀ a, f order = .ok a → Atomic (next a) order) :
    Atomic (OrderM.check f >>= next) order :=
  .bind (OrderM.run_check f order) h

namespace Order

open OrderM (atomic_check)

/-! ## Steps -/

/-- A call as a change in place. -/
def Call.inPlace : Call → OrderM Unit
  | .addItem itemId menuItemId name unitPrice quantity =>
    OrderM.addItem itemId menuItemId name unitPrice quantity
  | .markItemReady itemId => OrderM.markItemReady itemId
  | .cancelItem itemId => OrderM.cancelItem itemId
  | .complete => OrderM.complete
  | .cancel => OrderM.cancel

/-- What is done to an order: something is asked of it, or its events are taken. -/
inductive Step where
  | call (call : Call)
  | takeEvents

/-- The answer to a step, and the order behind it. -/
def step (order : Order) : Step → Except OrderError Unit × Order
  | .call call => call.inPlace.run.run order
  | .takeEvents => (.ok (), order.drained)

/-- The order after one step after another, as they leave it in place. -/
def walk (order : Order) (steps : List Step) : Order :=
  steps.foldl (fun order next => (order.step next).2) order

theorem walk_append (order : Order) (steps more : List Step) :
    order.walk (steps ++ more) = (order.walk steps).walk more := List.foldl_append

theorem walk_concat (order : Order) (steps : List Step) (last : Step) :
    order.walk (steps ++ [last]) = ((order.walk steps).step last).2 := List.foldl_concat ..

variable {order order' : Order} {call : Call} {itemId : String}

theorem perform_eq (order : Order) (call : Call) :
    order.perform call = order.change call.inPlace := by
  cases call <;> rfl

theorem atomic_inPlace (order : Order) (call : Call) : Atomic call.inPlace order := by
  cases call with
  | addItem itemId menuItemId name unitPrice quantity =>
    refine atomic_check fun _ _ => atomic_check fun _ _ => ?_
    exact atomic_check fun _ _ => atomic_check fun _ _ => .of_ok rfl
  | markItemReady itemId =>
    refine atomic_check fun _ _ => atomic_check fun item _ => ?_
    by_cases hp : item.status = .pending
    · simp only [hp, ne_eq, not_true_eq_false, if_false]
      exact .of_ok rfl
    · simp only [hp, ne_eq, not_false_eq_true, if_true]
      exact .throw _
  | cancelItem itemId =>
    refine atomic_check fun _ _ => atomic_check fun item _ => ?_
    cases item.status with
    | pending => exact .of_ok rfl
    | ready => exact .throw _
    | cancelled => exact .of_ok rfl
  | complete => exact atomic_check fun _ _ => atomic_check fun _ _ => .of_ok rfl
  | cancel => exact atomic_check fun _ _ => .of_ok rfl

/-- A call leaves the order that it leads to, or the order as it was. -/
theorem step_call (order : Order) (call : Call) :
    order.step (.call call) = ((order.perform call).map fun _ => (), order.after call) := by
  rw [after, perform_eq, step]
  unfold change
  rcases hrun : call.inPlace.run.run order with ⟨_ | _, order'⟩
  · rw [atomic_inPlace order call _ _ hrun]
    rfl
  · rfl

/-! ## Statuses and items -/

/-- What the status of an order says of its items. -/
structure Coherent (order : Order) : Prop where
  completed : order.status = .completed →
    (∃ item ∈ order.items, item.status = .ready) ∧ ∀ item ∈ order.items, item.status ≠ .pending
  cancelled : order.status = .cancelled → ∀ item ∈ order.items, item.status ≠ .pending
  opened : order.status = .opened → order.items ≠ [] →
    ∃ item ∈ order.items, item.status ≠ .cancelled

theorem mem_activeItems {item : OrderItem} :
    item ∈ order.activeItems ↔ item ∈ order.items ∧ item.status ≠ .cancelled := by
  simp [activeItems, OrderItem.isActive]

/-- It is enough to look at the items of an order that stays open. -/
theorem Coherent.of_opened (hopen : order.status = .opened) {item : OrderItem}
    (hitem : item ∈ order.items) (hstatus : item.status ≠ .cancelled) : order.Coherent where
  completed h := by
    rw [hopen] at h
    cases h
  cancelled h := by
    rw [hopen] at h
    cases h
  opened _ _ := ⟨item, hitem, hstatus⟩

theorem Coherent.of_cancelled (hcancelled : order.status = .cancelled)
    (hitems : ∀ item ∈ order.items, item.status ≠ .pending) : order.Coherent where
  completed h := by
    rw [hcancelled] at h
    cases h
  cancelled _ := hitems
  opened h := by
    rw [hcancelled] at h
    cases h

/-- An open order is cancelled just when no item of it is left. -/
theorem coherent_closeIfEmpty (hopen : order.status = .opened) : order.closeIfEmpty.Coherent := by
  unfold closeIfEmpty
  split
  · rename_i hnone
    refine .of_cancelled rfl fun item hitem hpending => ?_
    have hactive : item ∈ order.activeItems := by
      refine mem_activeItems.mpr ⟨hitem, ?_⟩
      rw [hpending]
      exact nofun
    rw [hnone] at hactive
    cases hactive
  · rename_i hsome
    obtain ⟨item, hactive⟩ := List.exists_mem_of_ne_nil _ hsome
    obtain ⟨hitem, hstatus⟩ := mem_activeItems.mp hactive
    exact .of_opened hopen hitem hstatus

theorem coherent_perform (h : order.Coherent) (hperform : order.perform call = .ok order') :
    order'.Coherent := by
  cases call with
  | addItem itemId menuItemId name unitPrice quantity =>
    obtain ⟨hopen, item, -, -, -, -, -, hpending, rfl⟩ := addItem_ok hperform
    refine .of_opened hopen (List.mem_append_right _ (List.mem_singleton_self item)) ?_
    rw [hpending]
    exact nofun
  | markItemReady itemId =>
    obtain ⟨hopen, item, hfind, -, rfl⟩ := markItemReady_ok hperform
    obtain ⟨k, hk, hset⟩ := exists_updateFirst_eq_set hfind ({ · with status := .ready })
    have hmem : { item with status := .ready } ∈
        updateFirst (·.id == itemId) ({ · with status := .ready }) order.items := by
      rw [hset]
      exact List.mem_set (List.getElem?_eq_some_iff.mp hk).1 _
    exact .of_opened hopen hmem nofun
  | cancelItem itemId =>
    obtain ⟨hopen, item, -, ⟨-, rfl⟩ | ⟨-, rfl⟩⟩ := cancelItem_ok hperform
    · exact h
    · exact coherent_closeIfEmpty hopen
  | complete =>
    obtain ⟨-, hsome, hready, rfl⟩ := complete_ok hperform
    obtain ⟨active, hactive⟩ := List.exists_mem_of_ne_nil _ hsome
    refine ⟨fun _ => ⟨⟨active, (mem_activeItems.mp hactive).1, hready active hactive⟩, ?_⟩, nofun,
      nofun⟩
    -- a pending item would be active, so it would be ready
    intro item hitem hpending
    have hstatus := hready item (mem_activeItems.mpr ⟨hitem, by rw [hpending]; exact nofun⟩)
    rw [hpending] at hstatus
    cases hstatus
  | cancel =>
    obtain ⟨-, rfl⟩ := cancel_ok hperform
    refine .of_cancelled rfl fun item hitem => ?_
    obtain ⟨old, -, rfl⟩ := List.mem_map.mp hitem
    split
    · exact nofun
    · assumption

/-! ## What may become of an order -/

end Order

/-- A pending item may become ready or cancelled, and nothing else of an item changes. -/
structure OrderItem.Becomes (old new : OrderItem) : Prop where
  status : new.status = old.status ∨ old.status = .pending
  same : new = { old with status := new.status }

theorem OrderItem.Becomes.refl (item : OrderItem) : item.Becomes item := ⟨.inl rfl, rfl⟩

theorem OrderItem.Becomes.trans {a b c : OrderItem} (h : a.Becomes b) (h' : b.Becomes c) :
    a.Becomes c where
  status := by
    rcases h'.status with hstatus | hpending
    · rw [hstatus]
      exact h.status
    · rcases h.status with hstatus | hpending'
      · exact .inr (hstatus.symm.trans hpending)
      · exact .inr hpending'
  same := by
    rw [h'.same, h.same]

namespace Order

/-- What may become of an order. -/
structure Advances (order order' : Order) : Prop where
  id : order'.id = order.id
  table : order'.table = order.table
  /-- An open order may be completed or cancelled, and stays so. -/
  status : order'.status = order.status ∨ order.status = .opened
  /-- Every item stays in its place. -/
  items {i : Nat} {item : OrderItem} : order.items[i]? = some item →
    ∃ item', order'.items[i]? = some item' ∧ item.Becomes item'
  added : order.items.length < order'.items.length → order.status = .opened

variable {order order' : Order} {call : Call} {itemId : String}

theorem Advances.refl (order : Order) : order.Advances order where
  id := rfl
  table := rfl
  status := .inl rfl
  items {_ item} h := ⟨item, h, .refl item⟩
  added h := absurd h (Nat.lt_irrefl _)

theorem Advances.trans {a b c : Order} (h : a.Advances b) (h' : b.Advances c) : a.Advances c where
  id := h'.id.trans h.id
  table := h'.table.trans h.table
  status := by
    rcases h.status with hstatus | hopen
    · rw [← hstatus]
      exact h'.status
    · exact .inr hopen
  items hitem := by
    obtain ⟨item', hitem', hbecomes⟩ := h.items hitem
    obtain ⟨item'', hitem'', hbecomes'⟩ := h'.items hitem'
    exact ⟨item'', hitem'', hbecomes.trans hbecomes'⟩
  added hlt := by
    by_cases hfirst : a.items.length < b.items.length
    · exact h.added hfirst
    · rcases h.status with hstatus | hopen
      · exact hstatus.symm.trans (h'.added (by omega))
      · exact hopen

/-- Only the first pending item with the id is changed. -/
theorem becomes_setItemStatus {found : OrderItem} (status : ItemStatus)
    (hfind : order.items.find? (·.id == itemId) = some found) (hpending : found.status = .pending)
    {i : Nat} {item : OrderItem} (hitem : order.items[i]? = some item) :
    ∃ item', (order.setItemStatus itemId status).items[i]? = some item' ∧ item.Becomes item' := by
  obtain ⟨k, hk, hset⟩ := exists_updateFirst_eq_set hfind ({ · with status })
  simp only [setItemStatus, hset]
  by_cases hik : k = i
  · subst hik
    obtain rfl : item = found := Option.some.inj (hitem.symm.trans hk)
    refine ⟨{ item with status }, ?_, .inr hpending, rfl⟩
    rw [List.getElem?_set_self (List.getElem?_eq_some_iff.mp hk).1]
  · exact ⟨item, (List.getElem?_set_ne hik).trans hitem, .refl item⟩

/-- A change of an open order that adds no item. -/
theorem Advances.of_opened (hopen : order.status = .opened) (hid : order'.id = order.id)
    (htable : order'.table = order.table)
    (hitems : ∀ {i : Nat} {item : OrderItem}, order.items[i]? = some item →
      ∃ item', order'.items[i]? = some item' ∧ item.Becomes item') : order.Advances order' :=
  ⟨hid, htable, .inr hopen, hitems, fun _ => hopen⟩

theorem advances_closeIfEmpty (hopen : order.status = .opened) :
    order.Advances order.closeIfEmpty := by
  unfold closeIfEmpty
  split
  · exact .of_opened hopen rfl rfl fun {_ item} h => ⟨item, h, .refl item⟩
  · exact .refl order

theorem advances_perform (hperform : order.perform call = .ok order') :
    order.Advances order' := by
  cases call with
  | addItem itemId menuItemId name unitPrice quantity =>
    obtain ⟨hopen, item, -, -, -, -, -, -, rfl⟩ := addItem_ok hperform
    refine .of_opened hopen rfl rfl fun {i old} hold => ⟨old, ?_, .refl old⟩
    rw [List.getElem?_append_left (List.getElem?_eq_some_iff.mp hold).1]
    exact hold
  | markItemReady itemId =>
    obtain ⟨hopen, item, hfind, hpending, rfl⟩ := markItemReady_ok hperform
    exact .of_opened hopen rfl rfl (becomes_setItemStatus .ready hfind hpending)
  | cancelItem itemId =>
    obtain ⟨hopen, item, hfind, ⟨-, rfl⟩ | ⟨hpending, rfl⟩⟩ := cancelItem_ok hperform
    · exact .refl _
    · have hset : order.Advances ((order.setItemStatus itemId .cancelled).record
          (.itemCancelled order.id itemId)) :=
        .of_opened hopen rfl rfl (becomes_setItemStatus .cancelled hfind hpending)
      exact hset.trans (advances_closeIfEmpty hopen)
  | complete =>
    obtain ⟨hopen, -, -, rfl⟩ := complete_ok hperform
    exact .of_opened hopen rfl rfl fun {_ item} h => ⟨item, h, .refl item⟩
  | cancel =>
    obtain ⟨hopen, rfl⟩ := cancel_ok hperform
    refine .of_opened hopen rfl rfl fun {i item} hitem => ?_
    refine ⟨_, List.getElem?_map.trans (congrArg (Option.map _) hitem), ?_⟩
    dsimp only
    split
    · rename_i hpending
      exact ⟨.inr hpending, rfl⟩
    · exact .refl item

/-! ## Runs -/

theorem coherent_step (h : order.Coherent) (next : Step) : (order.step next).2.Coherent := by
  cases next with
  | takeEvents => exact ⟨h.completed, h.cancelled, h.opened⟩
  | call call =>
    rw [step_call, after]
    cases hperform : order.perform call with
    | error e => exact h
    | ok order' => exact coherent_perform h hperform

theorem advances_step (order : Order) (next : Step) : order.Advances (order.step next).2 := by
  cases next with
  | takeEvents =>
    exact ⟨rfl, rfl, .inl rfl, fun {_ item} h => ⟨item, h, .refl item⟩,
      fun h => absurd h (Nat.lt_irrefl _)⟩
  | call call =>
    rw [step_call, after]
    cases hperform : order.perform call with
    | error e => exact .refl order
    | ok order' => exact advances_perform hperform

theorem coherent_walk (h : order.Coherent) (steps : List Step) : (order.walk steps).Coherent := by
  induction steps using List.reverseRecOn with
  | nil => exact h
  | append_singleton steps last ih =>
    rw [walk_concat]
    exact coherent_step ih last

theorem advances_walk (order : Order) (steps : List Step) : order.Advances (order.walk steps) := by
  induction steps using List.reverseRecOn with
  | nil => exact .refl order
  | append_singleton steps last ih =>
    rw [walk_concat]
    exact ih.trans (advances_step _ last)

theorem coherent_place {orderId : String} {table : TableNumber}
    (hplace : Order.place orderId table = .ok order) : order.Coherent := by
  rw [(place_ok hplace).2]
  exact ⟨nofun, nofun, fun _ h => absurd rfl h⟩

/-- An order that is not open any more refuses whatever is asked of it. -/
theorem step_of_not_opened (h : order.status ≠ .opened) (call : Call) :
    order.step (.call call) = (.error (.notOpen order.id order.status), order) := by
  have hassert : order.assertOpen = .error (.notOpen order.id order.status) := if_neg h
  have hrefused {next : Unit → OrderM Unit} : (OrderM.check assertOpen >>= next).run.run order =
      (.error (.notOpen order.id order.status), order) := by
    rw [OrderM.run_check_bind, hassert]
  cases call <;> exact hrefused

/-- What holds of an order after these steps. -/
structure KeepsLifecycle (order : Order) (steps : List Step) : Prop where
  coherent : (order.walk steps).Coherent
  advances (more : List Step) : (order.walk steps).Advances (order.walk (steps ++ more))
  closed : (order.walk steps).status ≠ .opened → ∀ call, ((order.walk steps).step (.call call)).1 =
    .error (.notOpen (order.walk steps).id (order.walk steps).status)
  refused {next : Step} {e : OrderError} : ((order.walk steps).step next).1 = .error e →
    ((order.walk steps).step next).2 = order.walk steps

theorem step_refused {next : Step} {e : OrderError} (h : (order.step next).1 = .error e) :
    (order.step next).2 = order := by
  cases next with
  | takeEvents => cases h
  | call call =>
    exact atomic_inPlace order call e _ (Prod.ext h rfl)

end Order

/-- Whatever is done to an order since it was placed: its status tells of its items, neither status
turns back, and what is refused changes nothing. -/
theorem keeps_lifecycle {orderId : String} {table : TableNumber} {order : Order}
    (hplace : Order.place orderId table = .ok order) (steps : List Order.Step) :
    order.KeepsLifecycle steps where
  coherent := Order.coherent_walk (Order.coherent_place hplace) steps
  advances more := by
    rw [Order.walk_append]
    exact Order.advances_walk _ more
  closed h call := by rw [Order.step_of_not_opened h]
  refused := Order.step_refused

/-- Of two teas under one id the first is ready, so it cannot be cancelled, and the order cannot be
completed for the second one. -/
theorem twoTeas_keeps_lifecycle :
    let table : TableNumber := ⟨4, by decide, by decide⟩
    let order : Order := ⟨"o1", table, [], .opened, [.placed "o1" 4]⟩
    let tea : Order.Step := .call (.addItem "a" "tea" "Tea" ⟨.whole 4 (by decide), by decide⟩
      ⟨1, by decide, by decide⟩)
    let steps := [tea, tea, .call (.markItemReady "a"), .call (.cancelItem "a"), .call .complete,
      .takeEvents, .call .cancel, tea]
    Order.place " o1 " table = .ok order ∧ order.KeepsLifecycle steps ∧
      (order.walk steps).status = .cancelled ∧
      (order.walk steps).items.map (·.status) = [.ready, .cancelled] := by
  intro table order tea steps
  have hplace : Order.place " o1 " table = .ok order := by decide +kernel
  exact ⟨hplace, keeps_lifecycle hplace steps, by decide +kernel, by decide +kernel⟩

end TableService
