import Mathlib.Data.List.Dedup
import TableService.Proofs.Command.Asked
import TableService.Proofs.Domain.ItemIds
import TableService.Proofs.ReadModel.Redelivered

/-!
# What becomes of two items with one id

The projector adds an item only if none with its id is shown. So if an order has two items with one
id, fewer items are shown than there are.

- `Order.Records`: the events that an order may have recorded.
- `OrderModel.Shows`: a read model shows no id twice, and no others than these.
- `Order.ItemIdentity`: what the ids of the items mean for an order, and when they are distinct.
-/

namespace TableService

namespace Order

variable {order order' : Order} {call : Call} {calls : List Call} {e : OrderEvent}

/-! ## What an order records -/

/-- An event that an order may record: it is about the order, and about its lines only. -/
structure Records (order : Order) (e : OrderEvent) : Prop where
  about : e.orderId = order.id
  inRange : e.InRange
  added {item : ItemState} : e.added? = some item → item.id ∈ order.items.map (·.id)

theorem Records.of_isMark (habout : e.orderId = order.id) (h : e.IsMark) : order.Records e where
  about := habout
  inRange := by
    cases e with
    | placed | itemAdded => exact h.elim
    | _ => trivial
  added hadded := by
    cases e with
    | itemAdded => exact h.elim
    | _ => cases hadded

/-- A call is recorded behind what was recorded before, and adds no other items than its own. -/
theorem Records.later (h : order.Records e) (hperform : order.perform call = .ok order') :
    order'.Records e where
  about := h.about.trans (advances_perform hperform).id.symm
  inRange := h.inRange
  added hadded := by
    rw [ids_perform hperform]
    exact List.mem_append_left _ (h.added hadded)

theorem onlyMarks_perform (hperform : order.perform call = .ok order')
    (hcall : call.addedId? = none) : order.OnlyMarks order' := by
  cases call with
  | addItem itemId menuItemId name unitPrice quantity => cases hcall
  | markItemReady itemId => exact onlyMarks_markItemReady hperform
  | cancelItem itemId => exact onlyMarks_cancelItem hperform
  | complete => exact onlyMarks_complete hperform
  | cancel => exact onlyMarks_cancel hperform

theorem records_perform (h : ∀ e ∈ order.recorded, order.Records e)
    (hperform : order.perform call = .ok order') : ∀ e ∈ order'.recorded, order'.Records e := by
  intro e he
  cases hadded : call.addedId? with
  | none =>
    rcases onlyMarks_perform hperform hadded e he with hold | ⟨habout, hmark⟩
    · exact (h e hold).later hperform
    · exact .of_isMark (habout.trans (advances_perform hperform).id.symm) hmark
  | some id =>
    cases call with
    | addItem itemId menuItemId name unitPrice quantity =>
      have hlater {e : OrderEvent} (h : order.Records e) := h.later hperform
      obtain ⟨-, item, -, -, -, -, -, -, rfl⟩ := addItem_ok hperform
      rcases List.mem_append.mp he with hold | hnew
      · exact hlater (h e hold)
      · rw [List.mem_singleton.mp hnew]
        refine ⟨rfl, quantity.lt, fun heq => ?_⟩
        cases heq
        exact List.mem_map_of_mem (List.mem_append_right _ (List.mem_singleton_self item))
    | _ => cases hadded

theorem recorded_prefix_perform (hperform : order.perform call = .ok order') :
    order.recorded <+: order'.recorded := by
  cases call with
  | addItem itemId menuItemId name unitPrice quantity =>
    obtain ⟨-, item, -, -, -, -, -, -, rfl⟩ := addItem_ok hperform
    exact List.prefix_append ..
  | markItemReady itemId =>
    obtain ⟨-, item, -, -, rfl⟩ := markItemReady_ok hperform
    exact List.prefix_append ..
  | cancelItem itemId =>
    obtain ⟨-, item, -, ⟨-, rfl⟩ | ⟨-, rfl⟩⟩ := cancelItem_ok hperform
    · exact List.prefix_rfl
    · unfold closeIfEmpty
      split
      · exact (List.prefix_append ..).trans (List.prefix_append ..)
      · exact List.prefix_append ..
  | complete =>
    obtain ⟨-, -, -, rfl⟩ := complete_ok hperform
    exact List.prefix_append ..
  | cancel =>
    obtain ⟨-, rfl⟩ := cancel_ok hperform
    exact (List.prefix_append ..).trans (List.prefix_append ..)

theorem records_run (h : ∀ e ∈ order.recorded, order.Records e) (calls : List Call) :
    (∀ e ∈ (order.run calls).recorded, (order.run calls).Records e) ∧
      order.recorded <+: (order.run calls).recorded := by
  induction calls using List.reverseRecOn with
  | nil => exact ⟨h, List.prefix_rfl⟩
  | append_singleton calls last ih =>
    rw [run_concat]
    cases hperform : (order.run calls).perform last with
    | error e =>
      rw [after_of_error hperform]
      exact ih
    | ok order' =>
      rw [after_of_ok hperform]
      exact ⟨records_perform ih.1 hperform, ih.2.trans (recorded_prefix_perform hperform)⟩

/-- An order whose items have ids of their own tells of all that was done to it. -/
theorem tells_run_of_distinct (h : (order.run calls).HasDistinctItems) :
    Tells order (order.run calls) := by
  induction calls using List.reverseRecOn with
  | nil => exact .refl order
  | append_singleton calls last ih =>
    rw [run_concat] at h ⊢
    have hbefore := (hasDistinctItems_after_iff.mp h).1
    cases hperform : (order.run calls).perform last with
    | error e =>
      rw [after_of_error hperform]
      exact ih hbefore
    | ok order' =>
      rw [after_of_ok hperform] at h ⊢
      refine (ih hbefore).trans (tells_perform hperform ?_)
      rw [← ids_perform hperform]
      exact h

end Order

/-! ## What is shown -/

/-- The read model is that of the order with this id, and shows items with some of these ids, each
id once. -/
structure OrderModel.Shows (model : OrderModel) (id : String) (ids : List String) : Prop where
  id : model.orderId = id
  nodup : (model.items.map (·.itemId)).Nodup
  subset : model.items.map (·.itemId) ⊆ ids

namespace OrderModel.Shows

variable {model model' : OrderModel} {id : String} {ids : List String}

theorem of_same (h : model.Shows id ids) (hid : model'.orderId = model.orderId)
    (hitems : model'.items.map (·.itemId) = model.items.map (·.itemId)) : model'.Shows id ids where
  id := hid.trans h.id
  nodup := hitems ▸ h.nodup
  subset := hitems ▸ h.subset

theorem setItemStatus (h : model.Shows id ids) (itemId status : String) :
    (model.setItemStatus itemId status).Shows id ids := by
  refine h.of_same rfl (map_updateFirst ?_ model.items)
  intro item
  rfl

theorem add (h : model.Shows id ids) {item : OrderItemModel} (hmem : item.itemId ∈ ids)
    (hnew : model.hasItem item.itemId = false) :
    ({ model with items := model.items ++ [item] } : OrderModel).Shows id ids where
  id := h.id
  nodup := by
    simp only [hasItem, List.any_eq_false, beq_iff_eq] at hnew
    rw [List.map_append, List.nodup_append]
    refine ⟨h.nodup, List.nodup_singleton _, ?_⟩
    rintro _ hold _ hitem rfl
    obtain ⟨old, hmem, heq⟩ := List.mem_map.mp hold
    exact hnew old hmem (heq.trans (List.mem_singleton.mp hitem))
  subset := by
    rw [List.map_append]
    exact List.append_subset.mpr ⟨h.subset, List.cons_subset.mpr ⟨hmem, List.nil_subset _⟩⟩

/-- Of ids that repeat, fewer are shown than there are. -/
theorem length_lt (h : model.Shows id ids) (hrepeat : ¬ ids.Nodup) :
    model.items.length < ids.length := by
  have hdedup : ids.dedup.length < ids.length := by
    refine Nat.lt_of_le_of_ne (List.dedup_sublist ids).length_le fun heq => hrepeat ?_
    rw [← (List.dedup_sublist ids).eq_of_length heq]
    exact List.nodup_dedup ids
  have hsubset : model.items.map (·.itemId) ⊆ ids.dedup :=
    fun _ hmem => List.mem_dedup.mpr (h.subset hmem)
  have hle := (h.nodup.subperm hsubset).length_le
  rw [List.length_map] at hle
  exact Nat.lt_of_le_of_lt hle hdedup

end OrderModel.Shows

namespace ReadModels

variable {m : ReadModels} {e : OrderEvent} {id : String} {ids : List String} {model : OrderModel}

theorem getElem?_deliver_put {model' : OrderModel}
    (h : Projection.ofSteps (e.handler e.fields) [] m =
      .ok { m with orders := m.orders.insert id model' }) :
    (m.deliver e).orders[id]? = some model' := by
  rw [deliver_of_ok h]
  exact Std.ExtTreeMap.getElem?_insert_self

/-- An event that reports or adds an item, if the item is shown, or may be. -/
theorem deliver_item_shows (itemId status : String) (h : model.Shows id ids)
    (hproject : Projection.ofSteps (e.handler e.fields) [] m =
      if model.hasItem itemId then
        .ok { m with orders := m.orders.insert model.orderId (model.setItemStatus itemId status) }
      else .ok m) (hmodel : m.orders[model.orderId]? = some model) :
    ∃ model', (m.deliver e).orders[model.orderId]? = some model' ∧ model'.Shows id ids := by
  split at hproject
  · exact ⟨_, getElem?_deliver_put hproject, h.setItemStatus itemId status⟩
  · rw [deliver_of_ok hproject]
    exact ⟨model, hmodel, h⟩

/-- Whatever is delivered of an order, no item is shown twice. -/
theorem deliver_shows (hmodel : m.orders[id]? = some model) (h : model.Shows id ids)
    (habout : e.orderId = id) (hrange : e.InRange)
    (hadded : ∀ item, e.added? = some item → item.id ∈ ids) :
    ∃ model', (m.deliver e).orders[id]? = some model' ∧ model'.Shows id ids := by
  obtain rfl := h.id
  cases e with
  | placed orderId table =>
    obtain rfl : orderId = model.orderId := habout
    have hsame : m.deliver (.placed model.orderId table) = m := by
      refine deliver_of_ok ((OrderModel.onPlaced_eq rfl rfl hrange m).trans ?_)
      rw [hmodel]
    rw [hsame]
    exact ⟨model, hmodel, h⟩
  | itemAdded orderId itemId menuItemId name price quantity =>
    obtain rfl : orderId = model.orderId := habout
    let e := OrderEvent.itemAdded model.orderId itemId menuItemId name price quantity
    have hproject : Projection.ofSteps (e.handler e.fields) [] m = _ :=
      OrderModel.onItemAdded_eq rfl rfl rfl rfl rfl rfl hrange m
    rw [hmodel] at hproject
    cases hhas : model.hasItem itemId with
    | true =>
      simp only [hhas, if_true] at hproject
      rw [deliver_of_ok hproject]
      exact ⟨model, hmodel, h⟩
    | false =>
      simp only [hhas, Bool.false_eq_true, if_false] at hproject
      cases hitem : ItemState.model? ⟨itemId, menuItemId, name, price, quantity, .pending⟩ with
      | none =>
        rw [hitem] at hproject
        rw [deliver_of_error hproject]
        exact ⟨model, hmodel, h⟩
      | some item =>
        rw [hitem] at hproject
        have hown : item.itemId = itemId := ItemState.itemId_of_model? hitem
        have hmem : item.itemId ∈ ids := hown ▸ hadded _ rfl
        exact ⟨_, getElem?_deliver_put hproject, h.add hmem (hown ▸ hhas)⟩
  | dishReady orderId itemId =>
    obtain rfl : orderId = model.orderId := habout
    refine deliver_item_shows itemId "ready" h ?_ hmodel
    refine (OrderModel.setStatusOfItem_eq rfl rfl m).trans ?_
    rw [hmodel]
  | itemCancelled orderId itemId =>
    obtain rfl : orderId = model.orderId := habout
    refine deliver_item_shows itemId "cancelled" h ?_ hmodel
    refine (OrderModel.setStatusOfItem_eq rfl rfl m).trans ?_
    rw [hmodel]
  | completed orderId =>
    obtain rfl : orderId = model.orderId := habout
    refine ⟨{ model with status := "completed" }, getElem?_deliver_put ?_, h.of_same rfl rfl⟩
    refine (OrderModel.setStatus_eq rfl m).trans ?_
    rw [hmodel]
  | cancelled orderId =>
    obtain rfl : orderId = model.orderId := habout
    refine ⟨{ model with status := "cancelled" }, getElem?_deliver_put ?_, h.of_same rfl rfl⟩
    refine (OrderModel.setStatus_eq rfl m).trans ?_
    rw [hmodel]

theorem deliverAll_shows {events : List OrderEvent} (hmodel : m.orders[id]? = some model)
    (h : model.Shows id ids)
    (hevents : ∀ e ∈ events, e.orderId = id ∧ e.InRange ∧
      ∀ item, e.added? = some item → item.id ∈ ids) :
    ∃ model', (m.deliverAll events).orders[id]? = some model' ∧ model'.Shows id ids := by
  induction events generalizing m model with
  | nil => exact ⟨model, hmodel, h⟩
  | cons e rest ih =>
    obtain ⟨habout, hrange, hadded⟩ := hevents e List.mem_cons_self
    obtain ⟨model', hmodel', h'⟩ := deliver_shows hmodel h habout hrange hadded
    exact ih hmodel' h' fun e' he' => hevents e' (List.mem_cons_of_mem _ he')

end ReadModels

namespace Order

variable {orderId : String} {table : TableNumber} {order : Order} {calls : List Call}

theorem records_place (hplace : Order.place orderId table = .ok order) :
    ∀ e ∈ order.recorded, order.Records e := by
  rw [(place_ok hplace).2]
  intro e he
  rw [List.mem_singleton.mp he]
  exact ⟨rfl, table.lt, fun h => by cases h⟩

/-- What is shown of an order, once all that it has recorded is delivered. -/
theorem shows_run (hplace : Order.place orderId table = .ok order) (calls : List Call)
    {m : ReadModels} (hnew : m.orders[order.id]? = none) :
    ∃ model, (m.deliverAll (order.run calls).recorded).orders[order.id]? = some model ∧
      model.Shows order.id ((order.run calls).items.map (·.id)) := by
  obtain ⟨hrecords, events, hrecorded⟩ := records_run (records_place hplace) calls
  have hid : (order.run calls).id = order.id := (advances_run order calls).id
  have hfirst : order.recorded = [.placed order.id table.value] := by
    rw [(place_ok hplace).2]
  rw [hfirst, List.singleton_append] at hrecorded
  have hevents : ∀ e ∈ events, e.orderId = order.id ∧ e.InRange ∧
      ∀ item, e.added? = some item → item.id ∈ (order.run calls).items.map (·.id) := by
    intro e he
    have h := hrecords e (hrecorded ▸ List.mem_cons_of_mem _ he)
    exact ⟨h.about.trans hid, h.inRange, fun _ => h.added⟩
  -- the first event puts the order there without any item
  have hplaced : (m.deliver (.placed order.id table.value)).orders[order.id]? =
      some ⟨order.id, table.value, "open", []⟩ := by
    refine ReadModels.getElem?_deliver_put ?_
    refine (OrderModel.onPlaced_eq rfl rfl table.lt m).trans ?_
    rw [hnew]
  have hempty : (⟨order.id, table.value, "open", []⟩ : OrderModel).Shows order.id
      ((order.run calls).items.map (·.id)) := ⟨rfl, List.nodup_nil, List.nil_subset _⟩
  have hshown := ReadModels.deliverAll_shows hplaced hempty hevents
  rw [← hrecorded]
  exact hshown

theorem visible_of_distinct (hplace : Order.place orderId table = .ok order)
    (hdistinct : (order.run calls).HasDistinctItems) {m : ReadModels}
    (hnew : m.orders[order.id]? = none) :
    (m.deliverAll (order.run calls).recorded).orders[order.id]? =
      some (order.run calls).state.visible := by
  obtain ⟨hleads, habout⟩ := leads_of_tells hplace (tells_run_of_distinct hdistinct)
  exact ReadModels.shown_deliverAll (.nil none) hleads habout nofun hnew

/-! ## Distinct ids -/

/-- What the ids of the items mean for an order after these calls. -/
structure ItemIdentity (order : Order) (calls : List Call) : Prop where
  /-- Ids are distinct as long as no item is added under an id that is there. -/
  distinct_iff : (order.run calls).HasDistinctItems ↔ ¬ order.RepeatsAnId calls
  /-- The order does not ask whether the id of a new item is there. -/
  accepts_iff {itemId menuItemId name : String} {unitPrice : Money} {quantity : Quantity} :
    (∃ order', (order.run calls).addItem itemId menuItemId name unitPrice quantity = .ok order') ↔
      (order.run calls).status = .opened ∧ Text.required? itemId ≠ none ∧
        Text.required? menuItemId ≠ none ∧ Text.required? name ≠ none
  /-- The first item with an id can be addressed by it. -/
  ready {k : Nat} {item : OrderItem} : (order.run calls).IsFirst k item →
    (order.run calls).status = .opened → item.status = .pending →
      ∃ order', (order.run calls).markItemReady item.id = .ok order' ∧
        order'.items = (order.run calls).items.set k { item with status := .ready }
  cancelled {k : Nat} {item : OrderItem} : (order.run calls).IsFirst k item →
    (order.run calls).status = .opened → item.status = .pending →
      ∃ order', (order.run calls).cancelItem item.id = .ok order' ∧
        order'.items = (order.run calls).items.set k { item with status := .cancelled }
  /-- Any other one cannot be addressed at all. -/
  hidden {k : Nat} {item : OrderItem} {call : Call} : (order.run calls).IsHidden k item →
    call ≠ .cancel → ((order.run calls).after call).items[k]? = some item
  /-- It stays pending, so the order cannot be completed. -/
  waits : (order.run calls).HiddenWait
  shown {m : ReadModels} : m.orders[order.id]? = none → (order.run calls).HasDistinctItems →
    (m.deliverAll (order.run calls).recorded).orders[order.id]? =
      some (order.run calls).state.visible
  /-- Of two items with one id one is not shown. -/
  fewer {m : ReadModels} : m.orders[order.id]? = none → ¬ (order.run calls).HasDistinctItems →
    ∃ model, (m.deliverAll (order.run calls).recorded).orders[order.id]? = some model ∧
      model.items.length < (order.run calls).items.length

end Order

/-- The items of an order have ids of their own exactly if no id is given again. Then each of them
can be addressed and is shown; otherwise one of them cannot, and is not. -/
theorem item_identity {orderId : String} {table : TableNumber} {order : Order}
    (hplace : Order.place orderId table = .ok order) (calls : List Order.Call) :
    order.ItemIdentity calls where
  distinct_iff := Order.hasDistinctItems_run_iff (Order.hasDistinctItems_place hplace) calls
  accepts_iff := Order.exists_addItem_iff
  ready := Order.IsFirst.markItemReady
  cancelled := Order.IsFirst.cancelItem
  hidden := Order.getElem?_after_of_hidden
  waits := Order.hiddenWait_run hplace calls
  shown hnew hdistinct := Order.visible_of_distinct hplace hdistinct hnew
  fewer hnew hrepeat := by
    obtain ⟨model, hmodel, hshows⟩ := Order.shows_run hplace calls hnew
    have hlt := hshows.length_lt hrepeat
    rw [List.length_map] at hlt
    exact ⟨model, hmodel, hlt⟩

/-- Two teas under one id, of which one is written with blanks around it. -/
theorem sameTea_item_identity :
    let table : TableNumber := ⟨4, by decide, by decide⟩
    let order : Order := ⟨"o1", table, [], .opened, [.placed "o1" 4]⟩
    let tea (itemId : String) : Order.Call := .addItem itemId "tea" "Tea"
      ⟨.whole 4 (by decide), by decide⟩ ⟨1, by decide, by decide⟩
    let calls := [tea "a", tea " a ", .markItemReady "a", .cancelItem "a", .complete]
    Order.place " o1 " table = .ok order ∧ order.ItemIdentity calls ∧
      (order.run calls).items.map (fun item => (item.id, item.status)) =
        [("a", .ready), ("a", .pending)] ∧
      (order.run calls).status = .opened := by
  intro table order tea calls
  have hplace : Order.place " o1 " table = .ok order := by decide +kernel
  exact ⟨hplace, item_identity hplace calls, by decide +kernel, by decide +kernel⟩

end TableService
