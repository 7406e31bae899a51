import TableService.Proofs.Domain.Calls
import TableService.Proofs.Domain.Stream
import TableService.Proofs.ReadModel.Shown

/-!
# Events that are delivered again

An event that comes again may find the read model as later events have left it. It changes nothing:
the order and each of its items get a last status once, so what an event has set is still set.

- `OrderState.Streams.after_of_mem`: an event that has been told already tells nothing new.
- `OrderState.visible`: what is shown of an order whose items are each added if their total price is
  not too large.
- `ReadModels.deliver_some`: an event takes what is shown of an order to what is shown behind it,
  also if it has been delivered before.
- `Redelivers`: events one after the other, with copies of earlier ones in between.
-/

namespace TableService

/-! ## What has been told already -/

namespace OrderState

variable {s : OrderState} {events : List OrderEvent} {e : OrderEvent}

/-- The item that an event is about is there, and the event is one of its own. -/
theorem Streams.mem_events {itemId : String} (h : s.Streams events) (he : e ∈ events)
    (hitem : e.itemId? = some itemId) :
    ∃ item, s.find? itemId = some item ∧ item.id = itemId ∧ e ∈ item.events s.id := by
  have hmem : e ∈ events.filter (·.itemId? = some itemId) :=
    List.mem_filter.mpr ⟨he, decide_eq_true hitem⟩
  rw [h.items itemId] at hmem
  cases hfind : s.find? itemId with
  | none =>
    rw [hfind] at hmem
    cases hmem
  | some item =>
    rw [hfind] at hmem
    exact ⟨item, rfl, by simpa using List.find?_some hfind, hmem⟩

/-- The event that has closed an order is the only one of its kind. -/
theorem Streams.mem_closing (h : s.Streams events) (he : e ∈ events) (hstatus : e.status? ≠ none) :
    e ∈ s.closing := by
  obtain ⟨front, rfl, hfront⟩ := h.closed
  rcases List.mem_append.mp he with he | he
  · exact absurd (hfront e he) hstatus
  · exact he

/-- To set the status that an item has changes nothing. -/
theorem setItem_of_status {itemId : String} {item : ItemState}
    (hfind : s.find? itemId = some item) : s.setItem itemId item.status = s := by
  have hitems := updateFirst_of_find? (f := fun i : ItemState => { i with status := item.status })
    hfind rfl
  rw [setItem, hitems]

/-- An event that has been told already tells nothing new. -/
theorem Streams.after_of_mem (h : s.Streams events) (he : e ∈ events) :
    OrderState.after (some s) e = some s := by
  cases e with
  | placed orderId table => rfl
  | itemAdded orderId itemId menuItemId name unitPrice quantity =>
    obtain ⟨item, hfind, -, -⟩ := h.mem_events he rfl
    have hadd : s.add ⟨itemId, menuItemId, name, unitPrice, quantity, .pending⟩ = s := by
      rw [OrderState.add, hfind]
      rfl
    exact congrArg some hadd
  | dishReady orderId itemId =>
    obtain ⟨item, hfind, -, hmem⟩ := h.mem_events he rfl
    have hstatus : item.status = .ready := by
      cases hs : item.status <;> simp [ItemState.events, hs] at hmem ⊢
    refine congrArg some ?_
    rw [← hstatus]
    exact setItem_of_status hfind
  | itemCancelled orderId itemId =>
    obtain ⟨item, hfind, -, hmem⟩ := h.mem_events he rfl
    have hstatus : item.status = .cancelled := by
      cases hs : item.status <;> simp [ItemState.events, hs] at hmem ⊢
    refine congrArg some ?_
    rw [← hstatus]
    exact setItem_of_status hfind
  | completed orderId =>
    have hmem := h.mem_closing he (Option.some_ne_none _)
    have hstatus : s.status = .completed := by
      cases hs : s.status <;> simp [closing, hs] at hmem ⊢
    refine congrArg some ?_
    rw [← hstatus]
  | cancelled orderId =>
    have hmem := h.mem_closing he (Option.some_ne_none _)
    have hstatus : s.status = .cancelled := by
      cases hs : s.status <;> simp [closing, hs] at hmem ⊢
    refine congrArg some ?_
    rw [← hstatus]

end OrderState


/-! ## What is shown -/

/-- No two items have the same id. -/
def OrderState.HasDistinctItems (s : OrderState) : Prop := (s.items.map (·.id)).Nodup

/-- What is shown of an order. An item whose total price is too large was never added. -/
def OrderState.visible (s : OrderState) : OrderModel :=
  ⟨s.id, s.table, s.status.text, s.items.filterMap ItemState.model?⟩

theorem ItemState.itemId_of_model? {item : ItemState} {shown : OrderItemModel}
    (h : item.model? = some shown) : shown.itemId = item.id :=
  (model?_eq_some h item.status).1

/-- The status of an item does not matter for whether it can be shown. -/
theorem ItemState.model?_with_status (item : ItemState) (status : ItemStatus) :
    ItemState.model? { item with status } =
      item.model?.map fun shown => { shown with status := status.text } := by
  cases h : item.model? with
  | none =>
    have htotal := Option.map_eq_none_iff.mp h
    exact Option.map_eq_none_iff.mpr htotal
  | some shown => exact (model?_eq_some h status).2

/-- Whether an item is among those that are shown. -/
theorem any_filterMap_model? {items : List ItemState} (hids : (items.map (·.id)).Nodup)
    (itemId : String) : (items.filterMap ItemState.model?).any (·.itemId == itemId) =
      ((items.find? (·.id == itemId)).bind ItemState.model?).isSome := by
  induction items with
  | nil => rfl
  | cons item rest ih =>
    rw [List.map_cons, List.nodup_cons] at hids
    by_cases hid : item.id = itemId
    · rw [List.find?_cons_of_pos (by simpa using hid), Option.bind_some]
      cases hitem : item.model? with
      | some shown =>
        rw [List.filterMap_cons_some hitem, List.any_cons, ItemState.itemId_of_model? hitem]
        simp [hid]
      | none =>
        -- no other item has the id
        have hnone : rest.find? (·.id == itemId) = none := by
          refine List.find?_eq_none.mpr fun other hother => ?_
          rw [beq_iff_eq, ← hid]
          exact fun heq => hids.1 (heq ▸ List.mem_map_of_mem hother)
        rw [List.filterMap_cons_none hitem, ih hids.2, hnone]
        rfl
    · rw [List.find?_cons_of_neg (by simpa using hid), ← ih hids.2]
      cases hitem : item.model? with
      | none => rw [List.filterMap_cons_none hitem]
      | some shown =>
        rw [List.filterMap_cons_some hitem, List.any_cons, ItemState.itemId_of_model? hitem,
          beq_eq_false_iff_ne.mpr hid, Bool.false_or]

/-- The status of an item is set where it is shown. -/
theorem filterMap_updateFirst {items : List ItemState} (hids : (items.map (·.id)).Nodup)
    (itemId : String) (status : ItemStatus) :
    (updateFirst (·.id == itemId) (fun i : ItemState => { i with status }) items).filterMap
        ItemState.model? =
      updateFirst (·.itemId == itemId) (fun i : OrderItemModel => { i with status := status.text })
        (items.filterMap ItemState.model?) := by
  induction items with
  | nil => rfl
  | cons item rest ih =>
    rw [List.map_cons, List.nodup_cons] at hids
    by_cases hid : item.id = itemId
    · rw [updateFirst, if_pos (by simpa using hid)]
      cases hitem : item.model? with
      | some shown =>
        have hset : ItemState.model? { item with status } =
            some { shown with status := status.text } := by
          rw [ItemState.model?_with_status, hitem]
          rfl
        rw [List.filterMap_cons_some hset, List.filterMap_cons_some hitem, updateFirst,
          if_pos (by simpa [ItemState.itemId_of_model? hitem] using hid)]
      | none =>
        have hset : ItemState.model? { item with status } = none := by
          rw [ItemState.model?_with_status, hitem]
          rfl
        rw [List.filterMap_cons_none hset, List.filterMap_cons_none hitem]
        refine (updateFirst_eq_self _ fun shown hshown => ?_).symm
        obtain ⟨other, hother, hmodel⟩ := List.mem_filterMap.mp hshown
        rw [ItemState.itemId_of_model? hmodel, beq_eq_false_iff_ne, ← hid]
        exact fun heq => hids.1 (heq ▸ List.mem_map_of_mem hother)
    · rw [updateFirst, if_neg (by simpa using hid)]
      cases hitem : item.model? with
      | none => rw [List.filterMap_cons_none hitem, List.filterMap_cons_none hitem, ih hids.2]
      | some shown =>
        rw [List.filterMap_cons_some hitem, List.filterMap_cons_some hitem, updateFirst,
          if_neg (by simpa [ItemState.itemId_of_model? hitem] using hid), ih hids.2]

namespace OrderState

variable {s : OrderState} {itemId : String}

theorem hasItem_visible (h : s.HasDistinctItems) (itemId : String) :
    s.visible.hasItem itemId = ((s.find? itemId).bind ItemState.model?).isSome :=
  any_filterMap_model? h itemId

theorem visible_setItem (h : s.HasDistinctItems) (itemId : String) (status : ItemStatus) :
    (s.setItem itemId status).visible = s.visible.setItemStatus itemId status.text :=
  congrArg (OrderModel.mk s.id s.table s.status.text) (filterMap_updateFirst h itemId status)

theorem visible_add {item : ItemState} (h : s.find? item.id = none) :
    (s.add item).visible =
      { s.visible with items := s.visible.items ++ item.model?.toList } := by
  have hadd : s.add item = { s with items := s.items ++ [item] } := by
    rw [add, h]
    rfl
  rw [hadd, visible]
  simp only [List.filterMap_append, List.filterMap_cons, List.filterMap_nil]
  cases item.model? <;> rfl

end OrderState

/-! ## Deliveries -/

namespace ReadModels

/-- The read models behind an event that is handed to the projector of orders. They are as before if
the projector fails. -/
def deliver (m : ReadModels) (e : OrderEvent) : ReadModels :=
  match orderProjector.project e.name e.fields [] m with
  | .ok models => models
  | .error _ => m

/-- The read models behind all events. -/
def deliverAll (m : ReadModels) (events : List OrderEvent) : ReadModels :=
  events.foldl deliver m

variable {m : ReadModels} {s : OrderState} {e : OrderEvent}

theorem deliver_of_ok {models : ReadModels}
    (h : Projection.ofSteps (e.handler e.fields) [] m = .ok models) : m.deliver e = models := by
  rw [deliver, OrderEvent.project_handler, h]

theorem deliver_of_error {failure : ProjectionFailure}
    (h : Projection.ofSteps (e.handler e.fields) [] m = .error failure) : m.deliver e = m := by
  rw [deliver, OrderEvent.project_handler, h]

/-- An order is shown from the event on that places it. -/
theorem deliver_none (hrange : e.InRange) (hnone : m.orders[e.orderId]? = none)
    (hs : OrderState.after none e = some s) :
    m.deliver e = { m with orders := m.orders.insert e.orderId s.visible } := by
  have hproject := OrderModel.project_none hrange hnone
  rw [OrderEvent.project_handler] at hproject
  cases e with
  | placed id table =>
    cases hs
    exact deliver_of_ok hproject
  | _ => cases hs

/-- An event sets the status of an item, if that is shown. -/
theorem deliver_item {itemId eventType : String} {data : Payload} (status : ItemStatus)
    (hids : s.HasDistinctItems) (hmodel : m.orders[s.id]? = some s.visible)
    (hid : data.lookup "order_id" = some (.str s.id))
    (hitem : data.lookup "order_item_id" = some (.str itemId)) :
    Projection.ofSteps (ProjectionM.setStatusOfItem eventType status.text data) [] m =
      .ok { m with orders := m.orders.insert s.id (s.setItem itemId status).visible } := by
  rw [OrderModel.setStatusOfItem_eq hid hitem, hmodel, OrderState.visible_setItem hids]
  by_cases hhas : s.visible.hasItem itemId = true
  · simp only [hhas, if_true]
    rfl
  · -- no such item is shown, so there is no status to set
    have hself : s.visible.setItemStatus itemId status.text = s.visible := by
      refine congrArg (OrderModel.mk s.id s.table s.status.text) (updateFirst_eq_self _ ?_)
      simpa [OrderModel.hasItem] using hhas
    rw [hself, OrderModel.put_self hmodel]
    simp only [hhas, Bool.false_eq_true, if_false]

/-- Whether an event may add an item: there is none with its id, or it is the one of this event. -/
def MayAdd (s : OrderState) (e : OrderEvent) : Prop :=
  ∀ item, e.added? = some item → s.find? item.id = none ∨
    ∃ old, s.find? item.id = some old ∧ old.unitPrice = item.unitPrice ∧
      old.quantity = item.quantity

theorem deliver_added {s' : OrderState} {id itemId menuItemId name : String} {price : Decimal}
    {quantity : Nat} (hs' : s.add ⟨itemId, menuItemId, name, price, quantity, .pending⟩ = s')
    (hrange : quantity < limit32) (hids : s.HasDistinctItems)
    (hmodel : m.orders[s.id]? = some s.visible) (hid : id = s.id)
    (hmay : MayAdd s (.itemAdded id itemId menuItemId name price quantity)) :
    m.deliver (.itemAdded id itemId menuItemId name price quantity) =
      { m with orders := m.orders.insert s.id s'.visible } := by
  subst hid hs'
  let e := OrderEvent.itemAdded s.id itemId menuItemId name price quantity
  have hproject : Projection.ofSteps (e.handler e.fields) [] m = _ :=
    OrderModel.onItemAdded_eq rfl rfl rfl rfl rfl rfl hrange m
  have hhas := OrderState.hasItem_visible hids itemId
  rw [hmodel] at hproject
  rcases hmay _ rfl with hnone | ⟨old, hold, hprice, hquantity⟩
  · change s.find? itemId = none at hnone
    rw [hnone] at hhas
    rw [OrderState.visible_add hnone]
    simp only [hhas, Option.bind_none, Option.isSome_none, Bool.false_eq_true, if_false] at hproject
    cases hitem : ItemState.model? ⟨itemId, menuItemId, name, price, quantity, .pending⟩ with
    | none =>
      rw [hitem] at hproject
      rw [deliver_of_error hproject]
      have hitems : s.visible.items ++ [] = s.visible.items := List.append_nil _
      simp only [Option.toList_none, hitems]
      exact (OrderModel.put_self hmodel).symm
    | some item =>
      rw [hitem] at hproject
      exact deliver_of_ok hproject
  · change s.find? itemId = some old at hold
    have hself : s.add ⟨itemId, menuItemId, name, price, quantity, .pending⟩ = s := by
      rw [OrderState.add, hold]
      rfl
    rw [hself, OrderModel.put_self hmodel]
    rw [hold, Option.bind_some] at hhas
    cases hitem : old.model? with
    | some shown =>
      -- the item is shown, so it is not added again
      rw [hitem] at hhas
      simp only [hhas, Option.isSome_some, if_true] at hproject
      exact deliver_of_ok hproject
    | none =>
      -- its total price is too large, and it still is
      have htotal : ItemState.model? ⟨itemId, menuItemId, name, price, quantity, .pending⟩ =
          none := by
        refine Option.map_eq_none_iff.mpr ?_
        rw [← hprice, ← hquantity]
        exact Option.map_eq_none_iff.mp hitem
      rw [hitem] at hhas
      simp only [hhas, Option.isSome_none, Bool.false_eq_true, if_false, htotal] at hproject
      exact deliver_of_error hproject

/-- An event about an order that is shown takes it to what is shown behind the event. -/
theorem deliver_some {s' : OrderState} (hrange : e.InRange) (hid : e.orderId = s.id)
    (hids : s.HasDistinctItems) (hmodel : m.orders[s.id]? = some s.visible) (hmay : MayAdd s e)
    (hs' : OrderState.after (some s) e = some s') :
    m.deliver e = { m with orders := m.orders.insert s.id s'.visible } := by
  cases e with
  | placed id table =>
    obtain rfl : id = s.id := hid
    cases hs'
    rw [OrderModel.put_self hmodel]
    refine deliver_of_ok ((OrderModel.onPlaced_eq rfl rfl hrange m).trans ?_)
    rw [hmodel]
  | itemAdded id itemId menuItemId name price quantity =>
    cases hs'
    exact deliver_added rfl hrange hids hmodel hid hmay
  | dishReady id itemId =>
    obtain rfl : id = s.id := hid
    cases hs'
    exact deliver_of_ok (deliver_item .ready hids hmodel rfl rfl)
  | itemCancelled id itemId =>
    obtain rfl : id = s.id := hid
    cases hs'
    exact deliver_of_ok (deliver_item .cancelled hids hmodel rfl rfl)
  | completed id | cancelled id =>
    obtain rfl : id = s.id := hid
    cases hs'
    refine deliver_of_ok ((OrderModel.setStatus_eq rfl m).trans ?_)
    rw [hmodel]
    rfl

end ReadModels

/-! ## Copies of what was delivered before -/

/-- The deliveries of the events `rest`, one after the other, with copies in between of events that
have been delivered by then. The events in `seen` have been delivered before. -/
inductive Redelivers : List OrderEvent → List OrderEvent → List OrderEvent → Prop where
  | nil (seen : List OrderEvent) : Redelivers seen [] []
  | next {seen rest deliveries : List OrderEvent} {e : OrderEvent}
      (later : Redelivers (seen ++ [e]) rest deliveries) :
      Redelivers seen (e :: rest) (e :: deliveries)
  | again {seen rest deliveries : List OrderEvent} {e : OrderEvent} (mem : e ∈ seen)
      (later : Redelivers seen rest deliveries) : Redelivers seen rest (e :: deliveries)

section

variable {seen rest deliveries : List OrderEvent} {id : String} {m : ReadModels}

theorem OrderState.hasDistinctItems_of_leads {s : OrderState}
    (h : Leads Order none seen (some s)) : s.HasDistinctItems := by
  have hne : seen ≠ [] := by
    rintro rfl
    cases h
  obtain ⟨s', hs', htold⟩ := told_of_inEffect (inEffect_of_leads h) hne
  obtain rfl : s = s' := Option.some.inj (h.foldl_eq.symm.trans hs')
  exact htold.nodup

/-- What comes next adds no item that is there. -/
theorem ReadModels.mayAdd_of_fits {s : OrderState} {e : OrderEvent}
    (h : OrderState.Fits (some s) e) : MayAdd s e := by
  intro item hitem
  cases e with
  | itemAdded =>
    cases hitem
    exact .inl h.2.1
  | _ => cases hitem

/-- What has been told already adds no other item. -/
theorem ReadModels.mayAdd_of_mem {s : OrderState} {e : OrderEvent} (h : s.Streams seen)
    (he : e ∈ seen) : MayAdd s e := by
  intro item hitem
  cases e with
  | itemAdded orderId itemId menuItemId name price quantity =>
    cases hitem
    obtain ⟨old, hfind, -, hmem⟩ := h.mem_events he rfl
    refine .inr ⟨old, hfind, ?_⟩
    cases hs : old.status <;> simp [ItemState.events, hs] at hmem <;> simp [hmem]
  | _ => cases hitem

/-- The next event is shown. -/
theorem ReadModels.deliver_next {told : Option OrderState} {e : OrderEvent}
    (hseen : Leads Order none seen told) (hfits : OrderState.Fits told e) (he : e.orderId = id)
    (hid : ∀ s ∈ told, s.id = id) (hshown : m.orders[id]? = told.map OrderState.visible) :
    (m.deliver e).orders[id]? = (OrderState.after told e).map OrderState.visible := by
  have hrange := OrderState.inRange_of_fits hfits
  cases told with
  | none =>
    subst he
    cases hs' : OrderState.after none e with
    | none => exact absurd hs' (OrderState.after_ne_none hfits)
    | some s' =>
      rw [deliver_none hrange hshown hs']
      exact Std.ExtTreeMap.getElem?_insert_self
  | some s =>
    obtain rfl : s.id = id := hid s rfl
    cases hs' : OrderState.after (some s) e with
    | none => exact absurd hs' (OrderState.after_ne_none hfits)
    | some s' =>
      rw [deliver_some hrange he (OrderState.hasDistinctItems_of_leads hseen) hshown
        (mayAdd_of_fits hfits) hs']
      exact Std.ExtTreeMap.getElem?_insert_self

/-- What has been told is shown behind the deliveries. -/
theorem ReadModels.shown_deliverAll {told t : Option OrderState}
    (hseen : Leads Order none seen told) (hrest : Leads Order told rest t)
    (habout : ∀ e ∈ rest, e.orderId = id) (hid : ∀ s ∈ told, s.id = id)
    (hshown : m.orders[id]? = told.map OrderState.visible) :
    (m.deliverAll rest).orders[id]? = t.map OrderState.visible := by
  induction rest generalizing m told seen with
  | nil =>
    rw [← hrest.foldl_eq]
    exact hshown
  | cons e rest ih =>
    have he := habout e List.mem_cons_self
    obtain ⟨hfits, hnext⟩ := hrest.of_cons
    exact ih (hseen.append (.single hfits rfl)) hnext
      (fun e' he' => habout e' (List.mem_cons_of_mem _ he')) (OrderState.stateId_after hid he)
      (deliver_next hseen hfits he hid hshown)

/-- Copies of events that have been delivered change nothing. -/
theorem ReadModels.deliverAll_eq {told t : Option OrderState} (h : Redelivers seen rest deliveries)
    (hseen : Leads Order none seen told) (hrest : Leads Order told rest t)
    (habout : ∀ e ∈ seen ++ rest, e.orderId = id)
    (hid : ∀ s ∈ told, s.id = id) (hshown : m.orders[id]? = told.map OrderState.visible) :
    m.deliverAll deliveries = m.deliverAll rest := by
  induction h generalizing m told with
  | nil seen => rfl
  | @next seen rest deliveries e later ih =>
    have he : e.orderId = id := habout e (by simp)
    obtain ⟨hfits, hnext⟩ := hrest.of_cons
    refine ih (hseen.append (.single hfits rfl)) hnext ?_ (OrderState.stateId_after hid he)
      (deliver_next hseen hfits he hid hshown)
    rw [List.append_assoc]
    exact habout
  | @again seen rest deliveries e mem later ih =>
    have he : e.orderId = id := habout e (List.mem_append_left _ mem)
    have hsame : m.deliver e = m := by
      cases told with
      | none =>
        rw [hseen.eq_nil] at mem
        cases mem
      | some s =>
        obtain rfl : s.id = id := hid s rfl
        have hstreams := OrderState.streams_of_leads hseen fun e' he' =>
          habout e' (List.mem_append_left _ he')
        rw [deliver_some (hseen.inRange e mem) he (OrderState.hasDistinctItems_of_leads hseen)
          hshown (mayAdd_of_mem hstreams mem) (hstreams.after_of_mem mem)]
        exact OrderModel.put_self hshown
    show (m.deliver e).deliverAll deliveries = m.deliverAll rest
    rw [hsame]
    exact ih hseen hrest habout hid hshown

/-- However many copies of what an order has recorded are delivered again, each at any time after
the event itself: the read models are the same as without the copies. -/
theorem Order.redelivery_absorbed {orderId : String} {table : TableNumber} {order : Order}
    {calls : List Order.Call} (hplace : Order.place orderId table = .ok order)
    (hids : (calls.filterMap Order.Call.addedId?).Nodup) (hnew : m.orders[order.id]? = none)
    (h : Redelivers [] (order.run calls).recorded deliveries) :
    m.deliverAll deliveries = m.deliverAll (order.run calls).recorded := by
  obtain ⟨hleads, habout⟩ := Order.leads_run hplace hids
  exact ReadModels.deliverAll_eq h (.nil none) hleads habout nofun hnew

end

namespace Order

/-- An order of two teas, of which the second is too dear to be shown. -/
def teas : List Call :=
  [.addItem "a" "tea" "Tea" ⟨.whole 4 (by decide), by decide⟩ ⟨1, by decide, by decide⟩,
    .addItem " b " "tea" "Tea" ⟨.whole (limit96 - 2) (by decide), by decide⟩
      ⟨2, by decide, by decide⟩,
    .markItemReady "a", .cancelItem "b", .complete]

theorem teas_redelivered :
    let table : TableNumber := ⟨4, by decide, by decide⟩
    let order : Order := ⟨"o1", table, [], .opened, [.placed "o1" 4]⟩
    let first := .placed "o1" 4
    let cheap := .itemAdded "o1" "a" "tea" "Tea" (.whole 4 (by decide)) 1
    let dear := .itemAdded "o1" "b" "tea" "Tea" (.whole (limit96 - 2) (by decide)) 2
    let ready := .dishReady "o1" "a"
    let dropped := .itemCancelled "o1" "b"
    let last := .completed "o1"
    let deliveries := [first, cheap, first, dear, ready, cheap, dropped, dear, last, ready,
      dropped, first]
    Order.place " o1 " table = .ok order ∧
    (order.run teas).recorded = [first, cheap, dear, ready, dropped, last] ∧
    (ReadModels.deliverAll {} deliveries).orders["o1"]?.map
        (fun model => (model.status, model.items.map fun item => (item.itemId, item.status))) =
      some ("completed", [("a", "ready")]) ∧
    ReadModels.deliverAll {} deliveries = ReadModels.deliverAll {} (order.run teas).recorded := by
  intro table order first cheap dear ready dropped last deliveries
  have hplace : Order.place " o1 " table = .ok order := by decide +kernel
  have hrecorded : (order.run teas).recorded = [first, cheap, dear, ready, dropped, last] := by
    decide +kernel
  have hdeliveries : Redelivers [] (order.run teas).recorded deliveries := by
    rw [hrecorded]
    refine .next (.next (.again ?_ (.next (.next (.again ?_ (.next (.again ?_ (.next
      (.again ?_ (.again ?_ (.again ?_ (.nil _))))))))))))
    all_goals simp [first, cheap, dear, ready, dropped]
  refine ⟨hplace, hrecorded, by decide +kernel, ?_⟩
  exact redelivery_absorbed hplace (by decide +kernel) rfl hdeliveries

end Order

end TableService
