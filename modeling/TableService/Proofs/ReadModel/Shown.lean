import Mathlib.Data.List.Induction
import TableService.Proofs.ReadModel.Projection
import TableService.Proofs.Store.Tables

/-!
# Read models show what events tell

- `Shown`: the read models of a kind of aggregate, and the projector that keeps them. There are two
  of them, `Order` and `MenuItem`.
- `Shown.project_eq`: if the read model shows what was told before an event, then the projector puts
  there what is told behind it, or crashes if that cannot be shown.
- `Projected`: the read models behind an event that was projected.
- `Apart`: projecting an event of one kind leaves what is shown of the other kind.
-/

namespace TableService

/-! ## Items that are shown -/

theorem mapM_cons_eq_some {α β : Type} {f : α → Option β} {a : α} {l : List α} {bs : List β} :
    (a :: l).mapM f = some bs ↔ ∃ b rest, f a = some b ∧ l.mapM f = some rest ∧ bs = b :: rest := by
  simp only [List.mapM_cons, Option.bind_eq_bind, Option.bind_eq_some_iff, Option.pure_def,
    Option.some.injEq]
  constructor
  · rintro ⟨b, hb, rest, hrest, rfl⟩
    exact ⟨b, rest, hb, hrest, rfl⟩
  · rintro ⟨b, rest, hb, hrest, rfl⟩
    exact ⟨b, hb, rest, hrest, rfl⟩

theorem ItemState.model?_eq_some {item : ItemState} {shown : OrderItemModel}
    (h : item.model? = some shown) (status : ItemStatus) :
    shown.itemId = item.id ∧
      ItemState.model? { item with status } = some { shown with status := status.text } := by
  obtain ⟨totalPrice, htotal, rfl⟩ := Option.map_eq_some_iff.mp h
  refine ⟨rfl, ?_⟩
  show (((Decimal.ofInt? item.quantity).bind item.unitPrice.mul?).map _) = _
  rw [htotal]
  rfl

theorem any_itemId {items : List ItemState} {shown : List OrderItemModel}
    (h : items.mapM ItemState.model? = some shown) (itemId : String) :
    shown.any (·.itemId == itemId) = (items.find? (·.id == itemId)).isSome := by
  induction items generalizing shown with
  | nil =>
    cases h
    rfl
  | cons item rest ih =>
    obtain ⟨first, shown, hfirst, hrest, rfl⟩ := mapM_cons_eq_some.mp h
    have hid := (ItemState.model?_eq_some hfirst item.status).1
    by_cases hitem : item.id = itemId
    · simp [hid, hitem]
    · simp [hid, hitem, ih hrest]

theorem mapM_updateFirst {items : List ItemState} {shown : List OrderItemModel}
    (h : items.mapM ItemState.model? = some shown) (itemId : String) (status : ItemStatus) :
    (updateFirst (·.id == itemId) (fun i : ItemState => { i with status }) items).mapM
        ItemState.model? =
      some (updateFirst (·.itemId == itemId)
        (fun i : OrderItemModel => { i with status := status.text }) shown) := by
  induction items generalizing shown with
  | nil =>
    cases h
    rfl
  | cons item rest ih =>
    obtain ⟨first, shown, hfirst, hrest, rfl⟩ := mapM_cons_eq_some.mp h
    obtain ⟨hid, hstatus⟩ := ItemState.model?_eq_some hfirst status
    by_cases hitem : item.id = itemId
    · -- ids are shown as they are, so both sides update the same item
      subst hitem
      rw [updateFirst, updateFirst, if_pos (beq_self_eq_true _), if_pos (beq_iff_eq.mpr hid)]
      exact mapM_cons_eq_some.mpr ⟨_, _, hstatus, hrest, rfl⟩
    · simp only [updateFirst, hid, beq_eq_false_iff_ne.mpr hitem, Bool.false_eq_true, if_false]
      exact mapM_cons_eq_some.mpr ⟨_, _, hfirst, ih hrest, rfl⟩

namespace OrderState

theorem model?_eq_some {s : OrderState} {shown : OrderModel} (h : s.model? = some shown) :
    shown.orderId = s.id ∧ s.items.mapM ItemState.model? = some shown.items ∧
      shown = ⟨s.id, s.table, s.status.text, shown.items⟩ := by
  obtain ⟨items, hitems, rfl⟩ := Option.map_eq_some_iff.mp h
  exact ⟨rfl, hitems, rfl⟩

theorem hasItem_of_model? {s : OrderState} {shown : OrderModel} (h : s.model? = some shown)
    (itemId : String) : shown.hasItem itemId = (s.find? itemId).isSome :=
  any_itemId (model?_eq_some h).2.1 itemId

theorem model?_setItem {s : OrderState} {shown : OrderModel} (h : s.model? = some shown)
    (itemId : String) (status : ItemStatus) :
    (s.setItem itemId status).model? = some (shown.setItemStatus itemId status.text) := by
  obtain ⟨-, hitems, hshown⟩ := model?_eq_some h
  have hset := mapM_updateFirst hitems itemId status
  rw [hshown]
  simp only [model?, setItem, hset]
  rfl

theorem model?_add {s : OrderState} {shown : OrderModel} (h : s.model? = some shown)
    {item : ItemState} (hnew : s.find? item.id = none) :
    (s.add item).model? = item.model?.map fun i => { shown with items := shown.items ++ [i] } := by
  obtain ⟨-, hitems, hshown⟩ := model?_eq_some h
  have hadd : s.add item = { s with items := s.items ++ [item] } := by
    rw [add, hnew]
    rfl
  rw [hadd, hshown]
  simp only [model?, List.mapM_append, hitems, Option.bind_eq_bind, Option.bind_some]
  cases hitem : item.model? with
  | none => simp [hitem]
  | some i => simp [hitem]

end OrderState

/-- Puts what is told, if it can be shown. As long as nothing is told there is nothing to put. -/
def ReadModels.putTold {M : Type} (m : ReadModels) (put : M → ReadModels) :
    Option (Option M) → Except ProjectionFailure ReadModels
  | none => .ok m
  | some none => .error (.panic Decimal.overflowMessage)
  | some (some model) => .ok (put model)

/-! ## Orders -/

namespace OrderModel

variable {m : ReadModels} {s : OrderState} {model : OrderModel}

/-- An order that is shown already. -/
theorem put_self (hmodel : m.orders[s.id]? = some model) :
    { m with orders := m.orders.insert s.id model } = m := by
  rw [Table.insert_eq_self hmodel]

theorem project_item {eventType : String} {data : Payload} {itemId : String} (status : ItemStatus)
    (hmodel : m.orders[s.id]? = some model) (hshown : s.model? = some model)
    (hid : data.lookup "order_id" = some (.str s.id))
    (hitem : data.lookup "order_item_id" = some (.str itemId)) :
    ∃ model', (s.setItem itemId status).model? = some model' ∧
      Projection.ofSteps (ProjectionM.setStatusOfItem eventType status.text data) [] m =
        .ok { m with orders := m.orders.insert s.id model' } := by
  refine ⟨_, OrderState.model?_setItem hshown itemId status, ?_⟩
  have hhas := OrderState.hasItem_of_model? hshown itemId
  rw [setStatusOfItem_eq hid hitem, hmodel]
  simp only [hhas]
  cases hfind : s.find? itemId with
  | none =>
    -- no such item is shown, and none is told of either
    have hself := OrderState.model?_setItem hshown itemId status
    rw [OrderState.setItem_eq_self hfind, hshown] at hself
    rw [← Option.some.inj hself, put_self hmodel]
    rfl
  | some item =>
    rw [(OrderState.model?_eq_some hshown).1]
    rfl

theorem project_status {eventType : String} {data : Payload} (status : OrderStatus)
    (hmodel : m.orders[s.id]? = some model) (hshown : s.model? = some model)
    (hid : data.lookup "order_id" = some (.str s.id)) :
    ∃ model', OrderState.model? { s with status } = some model' ∧
      Projection.ofSteps (ProjectionM.setStatus eventType status.text data) [] m =
        .ok { m with orders := m.orders.insert s.id model' } := by
  obtain ⟨horder, hitems, hmodel'⟩ := OrderState.model?_eq_some hshown
  refine ⟨{ model with status := status.text }, ?_, ?_⟩
  · rw [hmodel']
    simp only [OrderState.model?, hitems]
    rfl
  · rw [setStatus_eq hid, hmodel]
    simp only [horder]

theorem project_add {data : Payload} (item : ItemState) (hmodel : m.orders[s.id]? = some model)
    (hshown : s.model? = some model) (hpending : item.status = .pending)
    (hid : data.lookup "order_id" = some (.str s.id))
    (hitem : data.lookup "order_item_id" = some (.str item.id))
    (hmenu : data.lookup "menu_item_id" = some (.str item.menuItemId))
    (hname : data.lookup "name" = some (.str item.name))
    (hprice : data.lookup "unit_price" = some (.str item.unitPrice.text))
    (hnumber : data.lookup "quantity" = some (.int item.quantity))
    (hrange : item.quantity < limit32) :
    Projection.ofSteps (ProjectionM.onItemAdded data) [] m =
      match (s.add item).model? with
      | none => .error (.panic Decimal.overflowMessage)
      | some model' => .ok { m with orders := m.orders.insert s.id model' } := by
  have hhas := OrderState.hasItem_of_model? hshown item.id
  have horder := (OrderState.model?_eq_some hshown).1
  rw [onItemAdded_eq hid hitem hmenu hname hprice hnumber hrange, hmodel]
  simp only [hhas]
  cases hfind : s.find? item.id with
  | some other =>
    have hself : s.add item = s := by
      rw [OrderState.add, hfind]
      rfl
    rw [hself, hshown]
    simp only [Option.isSome_some, if_true]
    rw [put_self hmodel]
  | none =>
    rw [OrderState.model?_add hshown hfind, ← hpending]
    simp only [Option.isSome_none, Bool.false_eq_true, if_false, horder]
    cases item.model? with
    | none => rfl
    | some i => rfl

/-- As long as nothing is told, every event but the placing of the order is passed over. -/
theorem project_none {e : OrderEvent} (hrange : e.InRange) (hnone : m.orders[e.orderId]? = none) :
    orderProjector.project e.name e.fields [] m =
      m.putTold (fun model => { m with orders := m.orders.insert e.orderId model })
        ((OrderState.after none e).map OrderState.model?) := by
  rw [OrderEvent.project_handler]
  cases e with
  | placed id table =>
    refine (onPlaced_eq rfl rfl hrange m).trans ?_
    rw [show m.orders[id]? = none from hnone]
    rfl
  | itemAdded id itemId menuItemId name price quantity =>
    refine (onItemAdded_eq rfl rfl rfl rfl rfl rfl hrange m).trans ?_
    rw [show m.orders[id]? = none from hnone]
    rfl
  | dishReady id itemId | itemCancelled id itemId =>
    refine (setStatusOfItem_eq rfl rfl m).trans ?_
    rw [show m.orders[id]? = none from hnone]
    rfl
  | completed id | cancelled id =>
    refine (setStatus_eq rfl m).trans ?_
    rw [show m.orders[id]? = none from hnone]
    rfl

/-- An event about an order that is shown. -/
theorem project_some {e : OrderEvent} (hrange : e.InRange) (hsid : e.orderId = s.id)
    (hmodel : m.orders[s.id]? = some model) (hmodel' : s.model? = some model) :
    orderProjector.project e.name e.fields [] m =
      m.putTold (fun model => { m with orders := m.orders.insert e.orderId model })
        ((OrderState.after (some s) e).map OrderState.model?) := by
  rw [hsid, OrderEvent.project_handler]
  cases e with
  | placed id table =>
    obtain rfl : id = s.id := hsid
    refine (onPlaced_eq rfl rfl hrange m).trans ?_
    simp only [hmodel, OrderState.after, Option.map_some, hmodel', ReadModels.putTold,
      put_self hmodel]
  | itemAdded id itemId menuItemId name price quantity =>
    obtain rfl : id = s.id := hsid
    refine (project_add ⟨itemId, menuItemId, name, price, quantity, .pending⟩ hmodel hmodel'
      rfl rfl rfl rfl rfl rfl rfl hrange).trans ?_
    simp only [OrderState.after, Option.map_some]
    cases (s.add ⟨itemId, menuItemId, name, price, quantity, .pending⟩).model? with
    | none => rfl
    | some model' => rfl
  | dishReady id itemId =>
    obtain rfl : id = s.id := hsid
    have hitem : (OrderEvent.dishReady s.id itemId).fields.lookup "order_item_id" =
        some (.str itemId) := rfl
    obtain ⟨model', hbehind, hproject⟩ := project_item .ready hmodel hmodel' rfl hitem
    refine hproject.trans ?_
    simp only [OrderState.after, Option.map_some, hbehind, ReadModels.putTold]
  | itemCancelled id itemId =>
    obtain rfl : id = s.id := hsid
    have hitem : (OrderEvent.itemCancelled s.id itemId).fields.lookup "order_item_id" =
        some (.str itemId) := rfl
    obtain ⟨model', hbehind, hproject⟩ := project_item .cancelled hmodel hmodel' rfl hitem
    refine hproject.trans ?_
    simp only [OrderState.after, Option.map_some, hbehind, ReadModels.putTold]
  | completed id =>
    obtain rfl : id = s.id := hsid
    have horder : (OrderEvent.completed s.id).fields.lookup "order_id" = some (.str s.id) := rfl
    obtain ⟨model', hbehind, hproject⟩ := project_status .completed hmodel hmodel' horder
    refine hproject.trans ?_
    simp only [OrderState.after, Option.map_some, hbehind, ReadModels.putTold]
  | cancelled id =>
    obtain rfl : id = s.id := hsid
    have horder : (OrderEvent.cancelled s.id).fields.lookup "order_id" = some (.str s.id) := rfl
    obtain ⟨model', hbehind, hproject⟩ := project_status .cancelled hmodel hmodel' horder
    refine hproject.trans ?_
    simp only [OrderState.after, Option.map_some, hbehind, ReadModels.putTold]

/-- The order projector puts what is told behind an event. -/
theorem project_eq {told : Option OrderState} {e : OrderEvent} (hrange : e.InRange)
    (hid : ∀ t ∈ told, t.id = e.orderId)
    (hshown : m.orders[e.orderId]?.map some = told.map OrderState.model?) :
    orderProjector.project e.name e.fields [] m =
      m.putTold (fun model => { m with orders := m.orders.insert e.orderId model })
        ((OrderState.after told e).map OrderState.model?) := by
  cases told with
  | none => exact project_none hrange (by simpa using hshown)
  | some s =>
    have hsid : e.orderId = s.id := (hid s rfl).symm
    obtain ⟨model, hmodel, hmodel'⟩ :
        ∃ model, m.orders[s.id]? = some model ∧ s.model? = some model := by
      rw [hsid] at hshown
      obtain ⟨model, hmodel, heq⟩ := Option.map_eq_some_iff.mp hshown
      exact ⟨model, hmodel, heq.symm⟩
    exact project_some hrange hsid hmodel hmodel'

end OrderModel

theorem OrderState.stateId_after {told : Option OrderState} {e : OrderEvent} {id : String}
    (h : ∀ t ∈ told, t.id = id) (habout : e.orderId = id) : ∀ t ∈ after told e, t.id = id := by
  intro t ht
  cases told with
  | none =>
    cases e with
    | placed => exact (Option.some.inj ht) ▸ habout
    | _ => cases ht
  | some s =>
    have hs := h s rfl
    cases e with
    | itemAdded =>
      rw [← Option.some.inj ht, add]
      split
      · exact hs
      · exact hs
    | _ => exact (Option.some.inj ht) ▸ hs

/-! ## Menu items -/

/-- The menu item projector puts what is told behind an event. -/
theorem MenuItemModel.project_eq {m : ReadModels} {told : Option MenuItemState} {e : MenuItemEvent}
    (hid : ∀ t ∈ told, t.id = e.menuItemId)
    (hshown : m.menuItems[e.menuItemId]?.map some = told.map MenuItemState.model?) :
    menuItemProjector.project e.name e.fields [] m =
      m.putTold (fun model => { m with menuItems := m.menuItems.insert e.menuItemId model })
        ((MenuItemState.after told e).map MenuItemState.model?) := by
  rw [MenuItemEvent.project_handler]
  cases told with
  | none =>
    have hnone : m.menuItems[e.menuItemId]? = none := by simpa using hshown
    cases e with
    | created id name price =>
      refine (onCreated_eq rfl rfl rfl m).trans ?_
      rw [show m.menuItems[id]? = none from hnone]
      rfl
    | soldOut id | available id =>
      refine (setAvailable_eq rfl m).trans ?_
      rw [show m.menuItems[id]? = none from hnone]
      rfl
  | some s =>
    have hsid : e.menuItemId = s.id := (hid s rfl).symm
    have hmodel : m.menuItems[s.id]? = some ⟨s.id, s.name, s.price.plain, s.available⟩ := by
      rw [hsid] at hshown
      obtain ⟨model, hmodel, heq⟩ := Option.map_eq_some_iff.mp hshown
      rw [hmodel, heq]
      rfl
    rw [hsid]
    cases e with
    | created id name price =>
      obtain rfl : id = s.id := hsid
      refine (onCreated_eq rfl rfl rfl m).trans ?_
      simp only [hmodel, MenuItemState.after, Option.map_some, MenuItemState.model?,
        ReadModels.putTold, Table.insert_eq_self hmodel]
    | soldOut id | available id =>
      obtain rfl : id = s.id := hsid
      refine (setAvailable_eq rfl m).trans ?_
      rw [hmodel]
      rfl

theorem MenuItemState.stateId_after {told : Option MenuItemState} {e : MenuItemEvent} {id : String}
    (h : ∀ t ∈ told, t.id = id) (habout : e.menuItemId = id) : ∀ t ∈ after told e, t.id = id := by
  intro t ht
  cases told with
  | none =>
    cases e with
    | created => exact (Option.some.inj ht) ▸ habout
    | _ => cases ht
  | some s =>
    have hs := h s rfl
    cases e with
    | _ => exact (Option.some.inj ht) ▸ hs

/-! ## Both kinds -/

/-- The read models of a kind of aggregate, and the projector that keeps them. -/
class Shown (α : Type) [Aggregate α] [Story α] where
  Model : Type
  models : ReadModels → Table Model
  put : ReadModels → String → Model → ReadModels
  /-- The read model that shows a state, if it can be shown. -/
  model? : Story.State α → Option Model
  stateId : Story.State α → String
  projector : Projector Projection
  name_mem (e : Story.Event α) : Story.name e ∈ projector.eventTypes
  models_empty : models {} = ∅
  models_put (m : ReadModels) (id : String) (model : Model) :
    models (put m id model) = (models m).insert id model
  stateId_after {told : Option (Story.State α)} {e : Story.Event α} {id : String} :
    (∀ t ∈ told, stateId t = id) → Story.about e = id → ∀ t ∈ Story.after told e, stateId t = id
  /-- The projector puts what is told behind an event, or crashes if that cannot be shown. -/
  project_eq {told : Option (Story.State α)} {e : Story.Event α} {m : ReadModels} :
    Story.InRange e → (∀ t ∈ told, stateId t = Story.about e) →
    (models m)[Story.about e]?.map some = told.map model? →
    projector.project (Story.name e) (Story.fields e) [] m =
      m.putTold (put m (Story.about e)) ((Story.after told e).map model?)

theorem OrderEvent.name_mem (e : OrderEvent) : e.name ∈ orderProjector.eventTypes := by
  have htypes : orderProjector.eventTypes = ["OrderPlaced", "OrderItemAdded", "DishMarkedReady",
    "OrderItemCancelled", "OrderCompleted", "OrderCancelled"] := by decide
  rw [htypes]
  cases e <;> simp [name]

theorem MenuItemEvent.name_mem (e : MenuItemEvent) : e.name ∈ menuItemProjector.eventTypes := by
  have htypes : menuItemProjector.eventTypes = ["MenuItemCreated", "MenuItemSoldOut",
    "MenuItemAvailable"] := by decide
  rw [htypes]
  cases e <;> simp [name]

instance : Shown Order where
  Model := OrderModel
  models := ReadModels.orders
  put m id model := { m with orders := m.orders.insert id model }
  model? := OrderState.model?
  stateId := OrderState.id
  projector := orderProjector
  name_mem := OrderEvent.name_mem
  models_empty := rfl
  models_put _ _ _ := rfl
  stateId_after := OrderState.stateId_after
  project_eq := OrderModel.project_eq

instance : Shown MenuItem where
  Model := MenuItemModel
  models := ReadModels.menuItems
  put m id model := { m with menuItems := m.menuItems.insert id model }
  model? := MenuItemState.model?
  stateId := MenuItemState.id
  projector := menuItemProjector
  name_mem := MenuItemEvent.name_mem
  models_empty := rfl
  models_put _ _ _ := rfl
  stateId_after := MenuItemState.stateId_after
  project_eq _ := MenuItemModel.project_eq

/-- The read model under an id shows what is told, if it can be shown. -/
def Shows (α : Type) [Aggregate α] [Story α] [Shown α] (m : ReadModels) (id : String)
    (told : Option (Story.State α)) : Prop :=
  (Shown.models (α := α) m)[id]?.map some = told.map Shown.model?

section

variable {α : Type} [Aggregate α] [Story α] [Shown α]

theorem stateId_replay {events : List (Story.Event α)} {id : String}
    (h : ∀ e ∈ events, Story.about e = id) : ∀ t ∈ Story.replay α events, Shown.stateId t = id := by
  induction events using List.reverseRecOn with
  | nil =>
    intro t ht
    cases ht
  | append_singleton events e ih =>
    rw [Story.replay_concat]
    exact Shown.stateId_after (ih fun e' he => h e' (List.mem_append_left _ he))
      (h e (List.mem_append_right _ List.mem_cons_self))

theorem shows_empty (id : String) : Shows α {} id none := by
  show (Shown.models (α := α) {})[id]?.map some = none
  rw [Shown.models_empty, Std.ExtTreeMap.getElem?_empty]
  rfl

/-- The read models behind an event that was projected. Nothing is put as long as nothing is
told. -/
inductive Projected (α : Type) [Aggregate α] [Story α] [Shown α] (m : ReadModels)
    (told : Option (Story.State α)) (e : Story.Event α) : ReadModels → Prop where
  | skipped (nothing : Story.after told e = none) : Projected α m told e m
  | put {s : Story.State α} {model : Shown.Model α} (after : Story.after told e = some s)
      (shown : Shown.model? s = some model) :
      Projected α m told e (Shown.put m (Story.about e) model)

variable {m m' : ReadModels} {told : Option (Story.State α)} {e : Story.Event α} {id : String}

theorem projected_of_ok (hrange : Story.InRange e)
    (hid : ∀ t ∈ told, Shown.stateId t = Story.about e) (hshows : Shows α m (Story.about e) told)
    (h : (Shown.projector α).project (Story.name e) (Story.fields e) [] m = .ok m') :
    Projected α m told e m' := by
  rw [Shown.project_eq hrange hid hshows] at h
  cases hafter : Story.after told e with
  | none =>
    rw [hafter] at h
    cases h
    exact .skipped hafter
  | some s =>
    rw [hafter] at h
    cases hmodel : Shown.model? s with
    | none => simp [hmodel, ReadModels.putTold] at h
    | some model =>
      simp only [Option.map_some, hmodel, ReadModels.putTold, Except.ok.injEq] at h
      rw [← h]
      exact .put hafter hmodel

/-- The read model of the event shows what is told behind it. -/
theorem Shows.projected (h : Shows α m (Story.about e) told) (hproject : Projected α m told e m') :
    Shows α m' (Story.about e) (Story.after told e) := by
  cases hproject with
  | skipped nothing =>
    -- what is told of stays, so nothing was told before either
    have htold : told = none := by
      cases told with
      | none => rfl
      | some s => exact absurd nothing (Story.after_some s e)
    rw [nothing, ← htold]
    exact h
  | put after shown =>
    show (Shown.models (α := α) _)[_]?.map some = _
    rw [Shown.models_put, Std.ExtTreeMap.getElem?_insert_self, after, Option.map_some,
      Option.map_some, shown]

/-- A read model of another id is left alone. -/
theorem Shows.projected_of_ne {other : Option (Story.State α)} (h : Shows α m id other)
    (hne : Story.about e ≠ id) (hproject : Projected α m told e m') : Shows α m' id other := by
  cases hproject with
  | skipped => exact h
  | put =>
    show (Shown.models (α := α) _)[_]?.map some = _
    rw [Shown.models_put, Table.getElem?_insert_of_ne hne]
    exact h

end

/-! ## Kinds that have nothing to do with each other -/

/-- The entries of one kind are not of the other kind, and neither are its read models. -/
structure Apart (α β : Type) [Aggregate α] [Story α] [Shown α] [Aggregate β] [Story β] [Shown β] :
    Prop where
  kind : Aggregate.kind α ≠ Aggregate.kind β
  models (m : ReadModels) (id : String) (model : Shown.Model α) :
    Shown.models (α := β) (Shown.put m id model) = Shown.models m

theorem apart_order : Apart Order MenuItem where
  kind := by decide
  models _ _ _ := rfl

theorem apart_menuItem : Apart MenuItem Order where
  kind := by decide
  models _ _ _ := rfl

theorem Apart.shows {α β : Type} [Aggregate α] [Story α] [Shown α] [Aggregate β] [Story β] [Shown β]
    (hapart : Apart α β) {m m' : ReadModels} {told : Option (Story.State α)} {e : Story.Event α}
    {other : Option (Story.State β)} {id : String} (h : Shows β m id other)
    (hproject : Projected α m told e m') : Shows β m' id other := by
  cases hproject with
  | skipped => exact h
  | put =>
    unfold Shows
    rw [hapart.models]
    exact h

end TableService
