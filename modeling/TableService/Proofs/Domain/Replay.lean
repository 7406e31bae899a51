import Mathlib.Data.List.Nodup
import TableService.Proofs.Domain.Changes
import TableService.Proofs.Domain.Story

/-!
# The events of a change tell what it did

- `Tells`: the events that a change records lead from the state before it to the state behind it.
- `Order.tells_markItemReady` and its like: every change tells.
- `Order.HasDistinctItems`: no two items of an order have the same id. Cancelling an order that has
  two of them would tell of the first one twice.
-/

namespace TableService

variable {α : Type} [Aggregate α] [Story α]

/-- The events recorded on the way from `a` to `a'` are about `a`, and tell of the way. -/
structure Tells (a a' : α) : Prop where
  id_eq : Aggregate.id a' = Aggregate.id a
  events : ∃ events, Story.recorded a' = Story.recorded a ++ events ∧
    (∀ e ∈ events, Story.about e = Aggregate.id a) ∧
    Leads α (some (Story.state a)) events (some (Story.state a'))

namespace Tells

theorem refl (a : α) : Tells a a where
  id_eq := rfl
  events := ⟨[], (List.append_nil _).symm, nofun, .nil _⟩

/-- A change that records one event. -/
theorem of_single {a a' : α} {e : Story.Event α} (hid : Aggregate.id a' = Aggregate.id a)
    (hrecorded : Story.recorded a' = Story.recorded a ++ [e])
    (habout : Story.about e = Aggregate.id a) (hfits : Story.Fits (some (Story.state a)) e)
    (hafter : Story.after (some (Story.state a)) e = some (Story.state a')) : Tells a a' where
  id_eq := hid
  events := by
    refine ⟨[e], hrecorded, ?_, .single hfits hafter⟩
    intro e' he
    rw [List.mem_singleton.mp he]
    exact habout

theorem trans {a b c : α} (h : Tells a b) (h' : Tells b c) : Tells a c where
  id_eq := h'.id_eq.trans h.id_eq
  events := by
    obtain ⟨first, hfirst, habout, hlead⟩ := h.events
    obtain ⟨second, hsecond, habout', hlead'⟩ := h'.events
    refine ⟨first ++ second, ?_, ?_, hlead.append hlead'⟩
    · rw [hsecond, hfirst, List.append_assoc]
    · intro e he
      rcases List.mem_append.mp he with he | he
      · exact habout e he
      · exact (habout' e he).trans h.id_eq

end Tells

/-! ## The first match -/

theorem map_updateFirst_comm {β γ : Type} {p : β → Bool} {q : γ → Bool} {f : β → β} {g : γ → γ}
    {h : β → γ} (hp : ∀ x, q (h x) = p x) (hf : ∀ x, h (f x) = g (h x)) (l : List β) :
    (updateFirst p f l).map h = updateFirst q g (l.map h) := by
  induction l with
  | nil => rfl
  | cons x rest ih =>
    simp only [updateFirst, List.map_cons, hp]
    split
    · simp [hf]
    · simp [ih]

/-- Elements in front that do not match are passed over. -/
theorem updateFirst_append {β : Type} {p : β → Bool} {f : β → β} {l : List β} (rest : List β)
    (h : ∀ x ∈ l, p x = false) : updateFirst p f (l ++ rest) = l ++ updateFirst p f rest := by
  induction l with
  | nil => rfl
  | cons x l ih =>
    simp only [List.cons_append, updateFirst, h x List.mem_cons_self, Bool.false_eq_true, if_false,
      ih fun y hy => h y (List.mem_cons_of_mem _ hy)]

/-! ## Menu items -/

namespace MenuItem

theorem leads_create {id name : String} {price : Money} {item : MenuItem}
    (h : MenuItem.create id name price = .ok item) :
    Leads MenuItem none item.recorded (some item.state) ∧
      ∀ e ∈ item.recorded, e.menuItemId = item.id := by
  obtain ⟨-, -, hitem⟩ := create_ok h
  rw [hitem]
  refine ⟨Leads.single (α := MenuItem) trivial rfl, ?_⟩
  intro e he
  rw [List.mem_singleton.mp he]
  rfl

theorem tells_markSoldOut (item : MenuItem) : Tells item item.markSoldOut := by
  unfold markSoldOut
  split
  · rename_i h
    exact .of_single rfl rfl rfl h rfl
  · exact .refl item

theorem tells_markAvailable (item : MenuItem) : Tells item item.markAvailable := by
  unfold markAvailable
  split
  · exact .refl item
  · rename_i h
    exact .of_single rfl rfl rfl (Bool.eq_false_iff.mpr h) rfl

end MenuItem

/-! ## Orders -/

/-- An item as it is left when its order is cancelled. -/
def ItemState.dropped (item : ItemState) : ItemState :=
  if item.status = .pending then { item with status := .cancelled } else item

/-- One event for each pending item, in order, leaves all of them cancelled. The induction is on the
items that are still to come; those in front of them are done. -/
theorem OrderState.leads_dropped (orderId : String) {s : OrderState}
    {done rest : List ItemState} (hopen : s.status = .opened) (hitems : s.items = done ++ rest)
    (hdistinct : (s.items.map (·.id)).Nodup) :
    Leads Order (some s) ((rest.filter (·.status = .pending)).map (.itemCancelled orderId ·.id))
      (some { s with items := done ++ rest.map ItemState.dropped }) := by
  induction rest generalizing s done with
  | nil =>
    rw [List.map_nil, ← hitems]
    exact .nil _
  | cons item rest ih =>
    have hother : ∀ other ∈ done, (other.id == item.id) = false := by
      intro other hmem
      rw [hitems, List.map_append, List.nodup_append] at hdistinct
      rw [beq_eq_false_iff_ne]
      exact hdistinct.2.2 _ (List.mem_map_of_mem hmem) _ (List.mem_map_of_mem List.mem_cons_self)
    by_cases hp : item.status = .pending
    · -- ids are distinct, so the event about this item finds it and no other
      have hfind : s.find? item.id = some item := by
        rw [OrderState.find?, hitems, List.find?_append,
          List.find?_eq_none.mpr (by simpa using hother)]
        simp
      have hset : s.setItem item.id .cancelled =
          { s with items := (done ++ [item.dropped]) ++ rest } := by
        rw [OrderState.setItem, hitems, updateFirst_append _ hother]
        simp [updateFirst, ItemState.dropped, hp]
      have hkeeps : (s.setItem item.id .cancelled).items.map (·.id) = s.items.map (·.id) := by
        refine map_updateFirst ?_ s.items
        intro item
        rfl
      have hlead : Leads Order (some (s.setItem item.id .cancelled)) _
          (some { s.setItem item.id .cancelled with
            items := (done ++ [item.dropped]) ++ rest.map ItemState.dropped }) :=
        ih hopen (by rw [hset]) (by rw [hkeeps]; exact hdistinct)
      rw [List.filter_cons_of_pos (by simpa using hp), List.map_cons]
      refine .cons ⟨hopen, item, hfind, hp⟩ ?_
      show Leads Order (some (s.setItem item.id .cancelled)) _ _
      simpa [OrderState.setItem] using hlead
    · -- there is no event for it, and it stays as it is
      rw [List.filter_cons_of_neg (by simpa using hp)]
      have hsame : item.dropped = item := if_neg hp
      have hlead : Leads Order (some s) _ (some
          { s with items := (done ++ [item]) ++ rest.map ItemState.dropped }) :=
        ih hopen (by simpa using hitems) hdistinct
      simpa [hsame] using hlead

namespace Order

variable {order order' : Order} {itemId : String}

theorem find?_state (order : Order) (itemId : String) :
    order.state.find? itemId = (order.items.find? (·.id == itemId)).map OrderItem.state := by
  rw [OrderState.find?, state, List.find?_map]
  rfl

theorem state_setItemStatus (order : Order) (itemId : String) (status : ItemStatus) :
    (order.setItemStatus itemId status).state = order.state.setItem itemId status := by
  have hitems :
      (updateFirst (·.id == itemId) (fun i : OrderItem => { i with status }) order.items).map
        OrderItem.state = updateFirst (·.id == itemId) (fun i : ItemState => { i with status })
        (order.items.map OrderItem.state) := by
    refine map_updateFirst_comm ?_ ?_ order.items
    · intro item
      rfl
    · intro item
      rfl
  simp only [state, setItemStatus, OrderState.setItem, hitems]

theorem isPending_state {item : OrderItem} (h : order.items.find? (·.id == itemId) = some item)
    (hp : item.status = .pending) : order.state.IsPending itemId :=
  ⟨item.state, by rw [find?_state, h]; rfl, hp⟩

theorem leads_place {orderId : String} {table : TableNumber}
    (h : Order.place orderId table = .ok order) :
    Leads Order none order.recorded (some order.state) ∧
      ∀ e ∈ order.recorded, e.orderId = order.id := by
  obtain ⟨-, horder⟩ := place_ok h
  rw [horder]
  refine ⟨Leads.single (α := Order) table.lt rfl, ?_⟩
  intro e he
  rw [List.mem_singleton.mp he]
  rfl

theorem tells_addItem {menuItemId name : String} {unitPrice : Money} {quantity : Quantity}
    (h : order.addItem itemId menuItemId name unitPrice quantity = .ok order')
    (hnew : ∀ item ∈ order.items, item.id ≠ Text.trim itemId) : Tells order order' := by
  obtain ⟨hopen, item, hid, -, -, rfl, rfl, hpending, rfl⟩ := addItem_ok h
  have hnone : order.state.find? item.id = none := by
    rw [find?_state, Option.map_eq_none_iff, List.find?_eq_none]
    intro other hother
    rw [beq_iff_eq, ← Text.trim_eq_of_required? hid]
    exact hnew other hother
  refine .of_single rfl rfl rfl ⟨hopen, hnone, item.quantity.lt⟩ ?_
  have hadd : order.state.add ⟨item.id, item.menuItemId, item.name, item.unitPrice.amount,
      item.quantity.value, .pending⟩ =
        { order.state with items := order.state.items ++ [item.state] } := by
    rw [OrderState.add, hnone, ← hpending]
    rfl
  refine (congrArg some hadd).trans ?_
  simp [Story.state, state]

theorem tells_markItemReady (h : order.markItemReady itemId = .ok order') : Tells order order' := by
  obtain ⟨hopen, item, hfind, hp, rfl⟩ := markItemReady_ok h
  exact .of_single rfl rfl rfl ⟨hopen, isPending_state hfind hp⟩
    (congrArg some (state_setItemStatus order itemId .ready).symm)

theorem tells_closeIfEmpty (hopen : order.status = .opened) : Tells order order.closeIfEmpty := by
  unfold closeIfEmpty
  split
  · exact .of_single rfl rfl rfl hopen rfl
  · exact .refl order

theorem tells_cancelItem (h : order.cancelItem itemId = .ok order') : Tells order order' := by
  obtain ⟨hopen, item, hfind, ⟨-, rfl⟩ | ⟨hp, rfl⟩⟩ := cancelItem_ok h
  · exact .refl _
  · refine Tells.trans (b := (order.setItemStatus itemId .cancelled).record
      (.itemCancelled order.id itemId)) ?_ (tells_closeIfEmpty hopen)
    exact .of_single rfl rfl rfl ⟨hopen, isPending_state hfind hp⟩
      (congrArg some (state_setItemStatus order itemId .cancelled).symm)

theorem tells_complete (h : order.complete = .ok order') : Tells order order' := by
  obtain ⟨hopen, -, -, rfl⟩ := complete_ok h
  exact .of_single rfl rfl rfl hopen rfl

/-! ### Cancelling an order -/

/-- No two items of an order have the same id. -/
def HasDistinctItems (order : Order) : Prop := (order.items.map (·.id)).Nodup

theorem tells_cancel (h : order.cancel = .ok order') (hdistinct : order.HasDistinctItems) :
    Tells order order' := by
  obtain ⟨hopen, rfl⟩ := cancel_ok h
  have hevents : (order.items.filter (·.status = .pending)).map (.itemCancelled order.id ·.id) =
      (order.state.items.filter (·.status = .pending)).map
        (OrderEvent.itemCancelled order.id ·.id) := by
    simp only [state, List.filter_map, List.map_map]
    rfl
  have hids : (order.state.items.map (·.id)).Nodup := by
    unfold HasDistinctItems at hdistinct
    simpa [state, List.map_map, Function.comp_def, OrderItem.state] using hdistinct
  have hdropped : Leads Order (some order.state) _ (some
      { order.state with items := [] ++ order.state.items.map ItemState.dropped }) :=
    OrderState.leads_dropped order.id hopen rfl hids
  refine ⟨rfl, _, List.append_assoc .., ?_, ?_⟩
  · intro e he
    rcases List.mem_append.mp he with he | he
    · obtain ⟨item, -, rfl⟩ := List.mem_map.mp he
      rfl
    · rw [List.mem_singleton.mp he]
      rfl
  · rw [hevents]
    refine hdropped.append (.single hopen ?_)
    have hitems : (order.items.map OrderItem.state).map ItemState.dropped =
        (order.items.map fun i =>
          if i.status = .pending then { i with status := .cancelled } else i).map
          OrderItem.state := by
      rw [List.map_map, List.map_map]
      refine List.map_congr_left ?_
      intro item _
      by_cases hp : item.status = .pending
      · simp [ItemState.dropped, OrderItem.state, hp]
      · simp [ItemState.dropped, OrderItem.state, hp]
    exact congrArg (fun items => some (OrderState.mk order.id order.table.value items .cancelled))
      hitems

/-! ### Items stay distinct -/

theorem hasDistinctItems_place {orderId : String} {table : TableNumber}
    (h : Order.place orderId table = .ok order) : order.HasDistinctItems := by
  obtain ⟨-, horder⟩ := place_ok h
  rw [horder]
  exact List.nodup_nil

theorem HasDistinctItems.addItem {menuItemId name : String} {unitPrice : Money}
    {quantity : Quantity} (h : order.HasDistinctItems)
    (hadd : order.addItem itemId menuItemId name unitPrice quantity = .ok order')
    (hnew : ∀ item ∈ order.items, item.id ≠ Text.trim itemId) : order'.HasDistinctItems := by
  obtain ⟨-, item, hid, -, -, -, -, -, rfl⟩ := addItem_ok hadd
  unfold HasDistinctItems at h ⊢
  rw [List.map_append, List.nodup_append]
  refine ⟨h, List.nodup_singleton _, ?_⟩
  rintro _ ha _ hb rfl
  obtain ⟨other, hother, hother'⟩ := List.mem_map.mp ha
  have hitem : other.id = item.id := hother'.trans (List.mem_singleton.mp hb)
  exact hnew other hother (hitem.trans (Text.trim_eq_of_required? hid).symm)

theorem ids_setItemStatus (order : Order) (itemId : String) (status : ItemStatus) :
    (order.setItemStatus itemId status).items.map (·.id) = order.items.map (·.id) := by
  refine map_updateFirst ?_ order.items
  intro item
  rfl

theorem ids_closeIfEmpty (order : Order) :
    order.closeIfEmpty.items.map (·.id) = order.items.map (·.id) := by
  unfold Order.closeIfEmpty
  split
  · rfl
  · rfl

theorem ids_cancel (h : order.cancel = .ok order') :
    order'.items.map (·.id) = order.items.map (·.id) := by
  obtain ⟨-, rfl⟩ := cancel_ok h
  rw [List.map_map]
  refine List.map_congr_left ?_
  intro item _
  by_cases hp : item.status = .pending
  · simp [hp]
  · simp [hp]

theorem HasDistinctItems.setItemStatus (h : order.HasDistinctItems) (status : ItemStatus) :
    (order.setItemStatus itemId status).HasDistinctItems := by
  unfold HasDistinctItems
  rw [ids_setItemStatus]
  exact h

theorem HasDistinctItems.closeIfEmpty (h : order.HasDistinctItems) :
    order.closeIfEmpty.HasDistinctItems := by
  unfold HasDistinctItems
  rw [ids_closeIfEmpty]
  exact h

theorem HasDistinctItems.markItemReady (h : order.HasDistinctItems)
    (hready : order.markItemReady itemId = .ok order') : order'.HasDistinctItems := by
  obtain ⟨-, -, -, -, rfl⟩ := markItemReady_ok hready
  exact h.setItemStatus .ready

theorem HasDistinctItems.cancelItem (h : order.HasDistinctItems)
    (hcancel : order.cancelItem itemId = .ok order') : order'.HasDistinctItems := by
  obtain ⟨-, -, -, ⟨-, rfl⟩ | ⟨-, rfl⟩⟩ := cancelItem_ok hcancel
  · exact h
  · exact closeIfEmpty (h.setItemStatus .cancelled)

theorem HasDistinctItems.complete (h : order.HasDistinctItems)
    (hcomplete : order.complete = .ok order') : order'.HasDistinctItems := by
  obtain ⟨-, -, -, rfl⟩ := complete_ok hcomplete
  exact h

theorem HasDistinctItems.cancel (h : order.HasDistinctItems) (hcancel : order.cancel = .ok order') :
    order'.HasDistinctItems := by
  unfold HasDistinctItems
  rw [ids_cancel hcancel]
  exact h

end Order

end TableService
