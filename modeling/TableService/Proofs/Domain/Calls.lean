import TableService.Proofs.Domain.Replay

/-!
# Calls of an order

- `Order.Call`: what can be asked of an order. A call that is refused leaves the order as it is.
- `Order.ids_perform`: a call adds the id of its new item, and no call takes an id away.
- `Order.tells_run`: so whatever is asked of an order that gets no id twice, its events tell of it.
-/

namespace TableService

namespace Order

/-- What can be asked of an order. -/
inductive Call where
  | addItem (itemId menuItemId name : String) (unitPrice : Money) (quantity : Quantity)
  | markItemReady (itemId : String)
  | cancelItem (itemId : String)
  | complete
  | cancel

/-- What a call comes to. -/
def perform (order : Order) : Call → Except OrderError Order
  | .addItem itemId menuItemId name unitPrice quantity =>
    order.addItem itemId menuItemId name unitPrice quantity
  | .markItemReady itemId => order.markItemReady itemId
  | .cancelItem itemId => order.cancelItem itemId
  | .complete => order.complete
  | .cancel => order.cancel

/-- A call that is refused changes nothing. -/
def after (order : Order) (call : Call) : Order :=
  match order.perform call with
  | .ok order' => order'
  | .error _ => order

/-- The order after one call after another, whether they are refused or not. -/
def run (order : Order) (calls : List Call) : Order :=
  calls.foldl after order

/-- The id of the item that a call adds, which has no blanks around it. -/
def Call.addedId? : Call → Option String
  | addItem itemId _ _ _ _ => some (Text.trim itemId)
  | markItemReady _ | cancelItem _ | complete | cancel => none

variable {order order' : Order} {call : Call} {calls : List Call}

/-- The ids of the items that an order has had. -/
theorem ids_perform (h : order.perform call = .ok order') :
    order'.items.map (·.id) = order.items.map (·.id) ++ call.addedId?.toList := by
  cases call with
  | addItem itemId menuItemId name unitPrice quantity =>
    obtain ⟨-, item, hid, -, -, -, -, -, rfl⟩ := addItem_ok h
    rw [List.map_append, List.map_singleton, ← Text.trim_eq_of_required? hid]
    rfl
  | markItemReady itemId =>
    obtain ⟨-, item, -, -, rfl⟩ := markItemReady_ok h
    exact (ids_setItemStatus order itemId .ready).trans (List.append_nil _).symm
  | cancelItem itemId =>
    obtain ⟨-, item, -, ⟨-, rfl⟩ | ⟨-, rfl⟩⟩ := cancelItem_ok h
    · exact (List.append_nil _).symm
    · rw [ids_closeIfEmpty]
      exact (ids_setItemStatus order itemId .cancelled).trans (List.append_nil _).symm
  | complete =>
    obtain ⟨-, -, -, rfl⟩ := complete_ok h
    exact (List.append_nil _).symm
  | cancel => exact (ids_cancel h).trans (List.append_nil _).symm

theorem tells_perform (h : order.perform call = .ok order')
    (hids : (order.items.map (·.id) ++ call.addedId?.toList).Nodup) : Tells order order' := by
  rw [List.nodup_append] at hids
  obtain ⟨hdistinct, -, hnew⟩ := hids
  cases call with
  | addItem itemId menuItemId name unitPrice quantity =>
    refine tells_addItem h fun item hitem => ?_
    exact hnew item.id (List.mem_map_of_mem hitem) _ List.mem_cons_self
  | markItemReady itemId => exact tells_markItemReady h
  | cancelItem itemId => exact tells_cancelItem h
  | complete => exact tells_complete h
  | cancel => exact tells_cancel h hdistinct

/-- The events of an order tell all that was done to it, if no id is given to two items. -/
theorem tells_run (hids : (order.items.map (·.id) ++ calls.filterMap Call.addedId?).Nodup) :
    Tells order (order.run calls) := by
  induction calls generalizing order with
  | nil => exact .refl order
  | cons call rest ih =>
    have hsplit : (call :: rest).filterMap Call.addedId? =
        call.addedId?.toList ++ rest.filterMap Call.addedId? := by
      rw [List.filterMap_cons]
      cases call.addedId? <;> rfl
    rw [hsplit, ← List.append_assoc] at hids
    cases hcall : order.perform call with
    | error e =>
      -- the ids that a refused call asked for are free again
      have hafter : order.after call = order := by
        rw [after, hcall]
      show Tells order ((order.after call).run rest)
      rw [hafter]
      refine ih (hids.sublist (List.Sublist.append ?_ (List.Sublist.refl _)))
      exact List.sublist_append_left _ _
    | ok order' =>
      have hafter : order.after call = order' := by
        rw [after, hcall]
      show Tells order ((order.after call).run rest)
      rw [hafter]
      refine (tells_perform hcall (List.nodup_append.mp hids).1).trans (ih ?_)
      rw [ids_perform hcall]
      exact hids

/-- What an order has recorded since it was placed, if its events tell of it. -/
theorem leads_of_tells {orderId : String} {table : TableNumber}
    (hplace : Order.place orderId table = .ok order) (htells : Tells order order') :
    Leads Order none order'.recorded (some order'.state) ∧
      ∀ e ∈ order'.recorded, e.orderId = order.id := by
  obtain ⟨hfirst, habout⟩ := leads_place hplace
  obtain ⟨events, hrecorded, hown, hleads⟩ := htells.events
  change order'.recorded = order.recorded ++ events at hrecorded
  rw [hrecorded]
  refine ⟨hfirst.append hleads, fun e he => ?_⟩
  rcases List.mem_append.mp he with he | he
  · exact habout e he
  · exact hown e he

theorem leads_run {orderId : String} {table : TableNumber}
    (hplace : Order.place orderId table = .ok order)
    (hids : (calls.filterMap Call.addedId?).Nodup) :
    Leads Order none (order.run calls).recorded (some (order.run calls).state) ∧
      ∀ e ∈ (order.run calls).recorded, e.orderId = order.id := by
  have hempty : order.items = [] := by
    rw [(place_ok hplace).2]
  refine leads_of_tells hplace (tells_run ?_)
  rw [hempty]
  exact hids

end Order

end TableService
