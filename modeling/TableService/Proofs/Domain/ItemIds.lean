import TableService.Proofs.Domain.Lifecycle

/-!
# Ids of items

An order takes a new item without a look at the ids that it has. Items are found by their ids, so of
two with the same id only the first one is ever found.

- `Order.IsHidden`: an item with another one in front that has the same id.
- `Order.hasDistinctItems_run_iff`: an order has such an item exactly if an id was given again.
- `Order.IsFirst.markItemReady`, `Order.IsFirst.cancelItem`: any other item can be reached.
- `Order.getElem?_after_of_hidden`: a hidden item cannot, other than by cancelling the order.
- `Order.hiddenWait_run`: so it stays pending, and its order is never completed.
-/

namespace TableService

theorem OrderItem.Becomes.id_eq {old new : OrderItem} (h : old.Becomes new) : new.id = old.id := by
  rw [h.same]

theorem OrderM.run_check_of_ok {α β : Type} {order : Order} {f : Order → Except OrderError α}
    {next : α → OrderM β} {a : α} (h : f order = .ok a) :
    (OrderM.check f >>= next).run.run order = (next a).run.run order := by
  rw [run_check_bind, h]

namespace Order

/-- The item in place `k` is the first one with its id. -/
structure IsFirst (order : Order) (k : Nat) (item : OrderItem) : Prop where
  getElem? : order.items[k]? = some item
  first {j : Nat} {other : OrderItem} : j < k → order.items[j]? = some other → other.id ≠ item.id

/-- The item in place `k` has another one in front with the same id. -/
structure IsHidden (order : Order) (k : Nat) (item : OrderItem) : Prop where
  getElem? : order.items[k]? = some item
  behind : ∃ j other, j < k ∧ order.items[j]? = some other ∧ other.id = item.id

variable {order order' : Order} {call : Call} {calls : List Call} {k : Nat} {item : OrderItem}
  {itemId menuItemId name : String} {unitPrice : Money} {quantity : Quantity}

theorem hasDistinctItems_iff : order.HasDistinctItems ↔ ∀ k item, ¬ order.IsHidden k item := by
  unfold HasDistinctItems
  rw [List.nodup_iff_getElem?_ne_getElem?]
  constructor
  · rintro hne k item ⟨hk, j, other, hjk, hj, hid⟩
    refine hne j k hjk ?_ ?_
    · rw [List.length_map]
      exact (List.getElem?_eq_some_iff.mp hk).1
    · rw [List.getElem?_map, List.getElem?_map, hj, hk]
      exact congrArg some hid
  · intro hnone j k hjk hk heq
    rw [List.length_map] at hk
    have hitem : order.items[k]? = some order.items[k] := List.getElem?_eq_getElem hk
    have hother : order.items[j]? = some order.items[j] :=
      List.getElem?_eq_getElem (Nat.lt_trans hjk hk)
    rw [List.getElem?_map, List.getElem?_map, hitem, hother] at heq
    exact hnone k _ ⟨hitem, j, _, hjk, hother, Option.some.inj heq⟩

/-! ## Items that are added -/

theorem run_requireText_of_required? {α : Type} {entity field value t : String}
    {next : String → OrderM α} (h : Text.required? value = some t) :
    (OrderM.check (fun _ => requireText entity field value) >>= next).run.run order =
      (next t).run.run order := by
  refine OrderM.run_check_of_ok ?_
  rw [requireText, TableService.requireText, h]
  rfl

theorem assertOpen_of_opened (h : order.status = .opened) : order.assertOpen = .ok () := if_pos h

theorem change_of_run {m : OrderM Unit} (h : m.run.run order = (.ok (), order')) :
    order.change m = .ok order' := by
  rw [change, h]

/-- Nothing is asked of the ids that are there. -/
theorem exists_addItem_iff :
    (∃ order', order.addItem itemId menuItemId name unitPrice quantity = .ok order') ↔
      order.status = .opened ∧ Text.required? itemId ≠ none ∧ Text.required? menuItemId ≠ none ∧
        Text.required? name ≠ none := by
  constructor
  · rintro ⟨order', h⟩
    obtain ⟨hopen, item, hid, hmenu, hname, -⟩ := addItem_ok h
    rw [hid, hmenu, hname]
    exact ⟨hopen, Option.some_ne_none _, Option.some_ne_none _, Option.some_ne_none _⟩
  · rintro ⟨hopen, hid, hmenu, hname⟩
    obtain ⟨i, hid⟩ := Option.ne_none_iff_exists'.mp hid
    obtain ⟨m, hmenu⟩ := Option.ne_none_iff_exists'.mp hmenu
    obtain ⟨n, hname⟩ := Option.ne_none_iff_exists'.mp hname
    let new : OrderItem := ⟨i, m, n, unitPrice, quantity, .pending⟩
    let added : OrderEvent := .itemAdded order.id i m n unitPrice.amount quantity.value
    refine ⟨{ order.record added with items := order.items ++ [new] }, change_of_run ?_⟩
    refine (OrderM.run_check_of_ok (assertOpen_of_opened hopen)).trans ?_
    refine (run_requireText_of_required? hid).trans ?_
    refine (run_requireText_of_required? hmenu).trans ?_
    exact run_requireText_of_required? hname

/-- The call adds an item under an id that an item of the order has. -/
def RepeatsId (order : Order) (call : Call) : Prop :=
  ∃ id order', call.addedId? = some id ∧ order.perform call = .ok order' ∧
    id ∈ order.items.map (·.id)

/-- One of the calls does so when its turn has come. -/
def RepeatsAnId (order : Order) (calls : List Call) : Prop :=
  ∃ before call later, calls = before ++ call :: later ∧ (order.run before).RepeatsId call

theorem run_concat (order : Order) (calls : List Call) (last : Call) :
    order.run (calls ++ [last]) = (order.run calls).after last := List.foldl_concat ..

theorem after_of_ok (h : order.perform call = .ok order') : order.after call = order' := by
  rw [after, h]

theorem after_of_error {e : OrderError} (h : order.perform call = .error e) :
    order.after call = order := by
  rw [after, h]

theorem repeatsAnId_concat {last : Call} : order.RepeatsAnId (calls ++ [last]) ↔
    order.RepeatsAnId calls ∨ (order.run calls).RepeatsId last := by
  constructor
  · rintro ⟨before, call, later, hcalls, hrepeats⟩
    rcases List.eq_nil_or_concat' later with rfl | ⟨later, last', rfl⟩
    · obtain ⟨rfl, hlast⟩ := List.append_inj' hcalls rfl
      cases hlast
      exact .inr hrepeats
    · rw [← List.cons_append, ← List.append_assoc] at hcalls
      obtain ⟨rfl, -⟩ := List.append_inj' hcalls rfl
      exact .inl ⟨before, call, later, rfl, hrepeats⟩
  · rintro (⟨before, call, later, rfl, hrepeats⟩ | hrepeats)
    · exact ⟨before, call, later ++ [last], by rw [List.append_assoc, List.cons_append], hrepeats⟩
    · exact ⟨calls, last, [], rfl, hrepeats⟩

theorem hasDistinctItems_after_iff : (order.after call).HasDistinctItems ↔
    order.HasDistinctItems ∧ ¬ order.RepeatsId call := by
  cases hperform : order.perform call with
  | error e =>
    rw [after_of_error hperform]
    refine ⟨fun h => ⟨h, ?_⟩, And.left⟩
    rintro ⟨id, order', -, hok, -⟩
    rw [hperform] at hok
    cases hok
  | ok order' =>
    rw [after_of_ok hperform, HasDistinctItems, ids_perform hperform, List.nodup_append]
    refine and_congr_right fun _ => ?_
    constructor
    · rintro ⟨-, hne⟩ ⟨id, -, hadded, -, hmem⟩
      exact hne id hmem id (by rw [hadded]; exact List.mem_singleton_self id) rfl
    · intro hnot
      refine ⟨by cases call.addedId? <;> simp, ?_⟩
      rintro id hmem added hadded rfl
      exact hnot ⟨id, order', Option.mem_toList.mp hadded, hperform, hmem⟩

/-- Ids repeat exactly if an id was given again. -/
theorem hasDistinctItems_run_iff (h : order.HasDistinctItems) (calls : List Call) :
    (order.run calls).HasDistinctItems ↔ ¬ order.RepeatsAnId calls := by
  induction calls using List.reverseRecOn with
  | nil =>
    refine ⟨fun _ => ?_, fun _ => h⟩
    rintro ⟨before, call, later, hnil, -⟩
    simp at hnil
  | append_singleton calls last ih =>
    rw [run_concat, hasDistinctItems_after_iff, repeatsAnId_concat, ih, not_or]

/-! ## Items that are found -/

theorem IsFirst.updateFirst (h : order.IsFirst k item) (status : ItemStatus) :
    order.items.find? (·.id == item.id) = some item ∧
      (order.setItemStatus item.id status).items = order.items.set k { item with status } :=
  updateFirst_eq_set (p := (·.id == item.id)) h.getElem? (beq_self_eq_true _)
    (fun hj hother => beq_eq_false_iff_ne.mpr (h.first hj hother)) _

theorem findItem_of_find? (h : order.items.find? (·.id == itemId) = some item) :
    order.findItem itemId = .ok item := by
  rw [findItem, h]

theorem IsFirst.markItemReady (h : order.IsFirst k item) (hopen : order.status = .opened)
    (hpending : item.status = .pending) : ∃ order', order.markItemReady item.id = .ok order' ∧
      order'.items = order.items.set k { item with status := .ready } := by
  obtain ⟨hfind, hset⟩ := h.updateFirst .ready
  refine ⟨(order.setItemStatus item.id .ready).record (.dishReady order.id item.id),
    change_of_run ?_, hset⟩
  refine (OrderM.run_check_of_ok (assertOpen_of_opened hopen)).trans ?_
  refine (OrderM.run_check_of_ok (findItem_of_find? hfind)).trans ?_
  simp only [hpending, ne_eq, not_true_eq_false, if_false]
  rfl

@[simp] theorem items_closeIfEmpty (order : Order) : order.closeIfEmpty.items = order.items := by
  unfold closeIfEmpty
  split <;> rfl

theorem IsFirst.cancelItem (h : order.IsFirst k item) (hopen : order.status = .opened)
    (hpending : item.status = .pending) : ∃ order', order.cancelItem item.id = .ok order' ∧
      order'.items = order.items.set k { item with status := .cancelled } := by
  obtain ⟨hfind, hset⟩ := h.updateFirst .cancelled
  refine ⟨((order.setItemStatus item.id .cancelled).record
    (.itemCancelled order.id item.id)).closeIfEmpty, change_of_run ?_,
    (items_closeIfEmpty _).trans hset⟩
  refine (OrderM.run_check_of_ok (assertOpen_of_opened hopen)).trans ?_
  refine (OrderM.run_check_of_ok (findItem_of_find? hfind)).trans ?_
  simp only [hpending]
  rfl

/-! ## Items that are hidden -/

theorem IsHidden.setItemStatus (h : order.IsHidden k item) (itemId : String)
    (status : ItemStatus) : (order.setItemStatus itemId status).items[k]? = some item := by
  obtain ⟨j, other, hjk, hj, hid⟩ := h.behind
  refine getElem?_updateFirst_of_behind hjk hj h.getElem? fun hitem => ?_
  rw [hid]
  exact hitem

theorem IsHidden.perform (h : order.IsHidden k item) (hperform : order.perform call = .ok order')
    (hcall : call ≠ .cancel) : order'.items[k]? = some item := by
  cases call with
  | addItem itemId menuItemId name unitPrice quantity =>
    obtain ⟨-, new, -, -, -, -, -, -, rfl⟩ := addItem_ok hperform
    rw [List.getElem?_append_left (List.getElem?_eq_some_iff.mp h.getElem?).1]
    exact h.getElem?
  | markItemReady itemId =>
    obtain ⟨-, found, -, -, rfl⟩ := markItemReady_ok hperform
    exact h.setItemStatus itemId .ready
  | cancelItem itemId =>
    obtain ⟨-, found, -, ⟨-, rfl⟩ | ⟨-, rfl⟩⟩ := cancelItem_ok hperform
    · exact h.getElem?
    · rw [items_closeIfEmpty]
      exact h.setItemStatus itemId .cancelled
  | complete =>
    obtain ⟨-, -, -, rfl⟩ := complete_ok hperform
    exact h.getElem?
  | cancel => exact absurd rfl hcall

/-- Nothing reaches a hidden item, other than by cancelling the order. -/
theorem getElem?_after_of_hidden (h : order.IsHidden k item) (hcall : call ≠ .cancel) :
    (order.after call).items[k]? = some item := by
  cases hperform : order.perform call with
  | error e =>
    rw [after_of_error hperform]
    exact h.getElem?
  | ok order' =>
    rw [after_of_ok hperform]
    exact h.perform hperform hcall

/-- An item that is hidden behind a change was hidden before it, if it was there. -/
theorem Advances.isHidden (h : order.Advances order') {new : OrderItem}
    (hhidden : order'.IsHidden k new) (hitem : order.items[k]? = some item) :
    order.IsHidden k item := by
  obtain ⟨hnew, j, other', hjk, hj, hid⟩ := hhidden
  obtain ⟨new', hnew', hbecomes⟩ := h.items hitem
  obtain rfl : new = new' := Option.some.inj (hnew.symm.trans hnew')
  have hlt : j < order.items.length := Nat.lt_trans hjk (List.getElem?_eq_some_iff.mp hitem).1
  have hother : order.items[j]? = some order.items[j] := List.getElem?_eq_getElem hlt
  obtain ⟨other, hother', hbecomes'⟩ := h.items hother
  obtain rfl : other' = other := Option.some.inj (hj.symm.trans hother')
  exact ⟨hitem, j, _, hjk, hother, by rw [← hbecomes'.id_eq, hid, hbecomes.id_eq]⟩

/-- Hidden items are pending, and hold the order open until it is cancelled. -/
structure HiddenWait (order : Order) : Prop where
  opened {k : Nat} {item : OrderItem} : order.status = .opened → order.IsHidden k item →
    item.status = .pending
  completed {k : Nat} {item : OrderItem} : order.status = .completed → ¬ order.IsHidden k item

theorem opened_of_perform (h : order.perform call = .ok order') : order.status = .opened := by
  cases call with
  | addItem itemId menuItemId name unitPrice quantity => exact (addItem_ok h).1
  | markItemReady itemId => exact (markItemReady_ok h).1
  | cancelItem itemId => exact (cancelItem_ok h).1
  | complete => exact (complete_ok h).1
  | cancel => exact (cancel_ok h).1

/-- An item that was not there before is pending. -/
theorem pending_of_added (hperform : order.perform call = .ok order')
    (hnone : order.items[k]? = none) {new : OrderItem} (hnew : order'.items[k]? = some new) :
    new.status = .pending := by
  have hlength := congrArg List.length (ids_perform hperform)
  rw [List.length_append, List.length_map, List.length_map] at hlength
  have hk : order.items.length ≤ k := List.getElem?_eq_none_iff.mp hnone
  have hk' : k < order'.items.length := (List.getElem?_eq_some_iff.mp hnew).1
  cases call with
  | addItem itemId menuItemId name unitPrice quantity =>
    obtain ⟨-, item, -, -, -, -, -, hpending, rfl⟩ := addItem_ok hperform
    rw [List.getElem?_append_right hk] at hnew
    rw [List.mem_singleton.mp (List.mem_of_getElem? hnew)]
    exact hpending
  | _ =>
    -- no other call adds an item
    simp only [Call.addedId?, Option.toList_none, List.length_nil] at hlength
    omega

theorem HiddenWait.pending (h : order.HiddenWait) (hperform : order.perform call = .ok order')
    (hcall : call ≠ .cancel) {new : OrderItem} (hhidden : order'.IsHidden k new) :
    new.status = .pending := by
  cases hitem : order.items[k]? with
  | none => exact pending_of_added hperform hitem hhidden.getElem?
  | some item =>
    have hold := (advances_perform hperform).isHidden hhidden hitem
    obtain rfl : item = new :=
      Option.some.inj ((hold.perform hperform hcall).symm.trans hhidden.getElem?)
    exact h.opened (opened_of_perform hperform) hold

theorem HiddenWait.perform (h : order.HiddenWait) (hperform : order.perform call = .ok order')
    (hcoherent : order'.Coherent) : order'.HiddenWait := by
  have hcall : order'.status ≠ .cancelled → call ≠ .cancel := by
    rintro hstatus rfl
    obtain ⟨-, rfl⟩ := cancel_ok hperform
    exact hstatus rfl
  constructor
  · intro k new hopen hhidden
    exact h.pending hperform (hcall (by rw [hopen]; exact nofun)) hhidden
  · intro k new hdone hhidden
    have hpending := h.pending hperform (hcall (by rw [hdone]; exact nofun)) hhidden
    exact (hcoherent.completed hdone).2 new (List.mem_of_getElem? hhidden.getElem?) hpending

/-- A run of calls, as steps. -/
theorem run_eq_walk (order : Order) (calls : List Call) :
    order.run calls = order.walk (calls.map .call) := by
  induction calls using List.reverseRecOn with
  | nil => rfl
  | append_singleton calls last ih =>
    rw [run_concat, ih, List.map_append, List.map_singleton, walk_concat, step_call]

section

variable {orderId : String} {table : TableNumber}

theorem coherent_run (hplace : Order.place orderId table = .ok order) (calls : List Call) :
    (order.run calls).Coherent := by
  rw [run_eq_walk]
  exact coherent_walk (coherent_place hplace) _

theorem advances_run (order : Order) (calls : List Call) : order.Advances (order.run calls) := by
  rw [run_eq_walk]
  exact advances_walk order _

/-- A hidden item stays pending until the order is cancelled, and its order is never completed. -/
theorem hiddenWait_run (hplace : Order.place orderId table = .ok order) (calls : List Call) :
    (order.run calls).HiddenWait := by
  induction calls using List.reverseRecOn with
  | nil =>
    have hdistinct := hasDistinctItems_iff.mp (hasDistinctItems_place hplace)
    exact ⟨fun _ hhidden => absurd hhidden (hdistinct _ _), fun _ => hdistinct _ _⟩
  | append_singleton calls last ih =>
    have hcoherent := coherent_run hplace (calls ++ [last])
    rw [run_concat] at hcoherent ⊢
    cases hperform : (order.run calls).perform last with
    | error e =>
      rw [after_of_error hperform]
      exact ih
    | ok order' =>
      rw [after_of_ok hperform] at hcoherent ⊢
      exact ih.perform hperform hcoherent

end

end Order

end TableService
