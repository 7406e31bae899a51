import TableService.Proofs.Command.AllOrNothing
import TableService.Proofs.Service.InOrder

/-!
# Queries show a prefix of what has happened

- `Flow.HasDone`: the first entries about an aggregate are processed, the others are pending, and
  the read model shows what is told up to there.
- `Service.AnswersOrder`, `Service.AnswersMenu`: queries answer what is told.
- `Order.ShownAs`, `MenuItem.ShownAs`: what a read model shows of an aggregate as it is committed.
- `Flow.Reached.shows_prefix`: as long as no attempt has failed, queries show a prefix of the events
  of an aggregate, and the aggregate as it is committed once nothing is pending.
-/

namespace TableService

/-! ## Events that have been delivered -/

theorem forall₂_carries_take {α : Type} [Aggregate α] [Story α] {done todo : List Entry}
    {events : List (Story.Event α)} (h : List.Forall₂ (Entry.Carries α) (done ++ todo) events) :
    List.Forall₂ (Entry.Carries α) done (events.take done.length) := by
  have htake := List.forall₂_take done.length h
  rw [List.take_left'] at htake
  · exact htake
  · rfl

namespace Flow

/-- The entries about an aggregate carry `events`, from its beginning to what is committed. The
first `k` of them are processed and the others are pending, and the read model shows what is told up
to there. -/
structure HasDone (α : Type) [Aggregate α] [Collection α] [Story α] [Shown α] (w : Flow)
    (id : String) (k : Nat) (events : List (Story.Event α)) : Prop where
  carries : List.Forall₂ (Entry.Carries α) (Log.of α w.service.log id) events
  leads : Leads α none events (w.service.backend.stores.told α id)
  processed : ∀ e ∈ (Log.of α w.service.log id).take k, e.status = .processed
  pending : ∀ e ∈ (Log.of α w.service.log id).drop k, e.status = .pending
  shows : Shows α w.service.models id (Story.replay α (events.take k))

variable {α : Type} [Aggregate α] [Collection α] [Story α] [Shown α] {w : Flow} {id : String}
  {k : Nat}
  {events : List (Story.Event α)}

theorem InOrder.hasDone {done todo : List Entry} (h : w.InOrder α id done todo) (hsound : w.Sound)
    (hrecounts : w.service.backend.stores.Recounts α)
    (hdelivers : Delivers α w.delivered w.service.models) :
    ∃ k events, w.HasDone α id k events := by
  obtain ⟨events, hcarries, hleads⟩ := hrecounts id
  obtain ⟨delivered, hdelivered, hshows⟩ := hdelivers id
  have hsplit := h.split
  have hall : List.Forall₂ (Entry.Carries α) (done ++ todo) events := by
    rw [← hsplit]
    exact hcarries
  -- the entries that have been delivered and those that are processed have the same ids
  have hdone : List.Forall₂ (Log.HasAt α w.service.log) (done.map Entry.id) delivered := by
    rw [← h.delivered]
    exact hsound.relays.forall₂_hasAt hdelivered
  have hprefix : List.Forall₂ (Log.HasAt α w.service.log) (done.map Entry.id)
      (events.take done.length) := by
    refine Log.forall₂_hasAt ?_ (forall₂_carries_take hall)
    intro e he
    have hmem : e ∈ Log.of α w.service.log id := by
      rw [hsplit]
      exact List.mem_append_left _ he
    exact ⟨e, (Log.mem_of.mp hmem).1, .refl e⟩
  have htake : delivered = events.take done.length :=
    List.right_unique_forall₂' (Log.hasAt_unique hsound.log.nodup) hdone hprefix
  refine ⟨done.length, events, hcarries, hleads, ?_, ?_, ?_⟩
  · rw [hsplit, List.take_left']
    · exact h.processed
    · rfl
  · rw [hsplit, List.drop_left']
    · exact h.pending
    · rfl
  · rw [← htake]
    exact hshows

/-- If nothing is pending, everything has been delivered. -/
theorem HasDone.shows_told (h : w.HasDone α id k events)
    (hpending : ∀ e ∈ Log.of α w.service.log id, e.status ≠ .pending) :
    Shows α w.service.models id (w.service.backend.stores.told α id) := by
  have hdrop : (Log.of α w.service.log id).drop k = [] := by
    rw [List.eq_nil_iff_forall_not_mem]
    exact fun e he => hpending e (List.mem_of_mem_drop he) (h.pending e he)
  have hlength : events.length ≤ k := by
    rw [← h.carries.length_eq]
    exact List.drop_eq_nil_iff.mp hdrop
  have hshows := h.shows
  rw [List.take_of_length_le hlength, Story.replay, h.leads.foldl_eq] at hshows
  exact hshows

end Flow

/-! ## What queries answer -/

namespace Service

/-- The answer to a query for an order, if this is what is told of it. -/
def AnswersOrder (s : Service) (id : String) : Option OrderState → Prop
  | none => s.models.getOrder s.outage id = .error (.orderNotFound id)
  | some told => ∃ shown, told.model? = some shown ∧ s.models.getOrder s.outage id = .ok shown

/-- What the menu lists under an id. -/
def listed (s : Service) (id : String) : Except QueryError (List MenuItemModel) :=
  (s.models.getAvailableMenuItems s.outage).map (·.filter (·.menuItemId == id))

/-- The menu lists an item that is available, and no other. -/
def AnswersMenu (s : Service) (id : String) : Option MenuItemState → Prop
  | none => s.listed id = .ok []
  | some told => s.listed id =
    .ok (if told.available then [⟨told.id, told.name, told.price.plain, true⟩] else [])

end Service

theorem Shows.answersOrder {s : Service} {id : String} {told : Option OrderState}
    (hup : s.outage = []) (h : Shows Order s.models id told) : s.AnswersOrder id told := by
  have hmodel : s.models.orders[id]?.map some = told.map OrderState.model? := h
  cases told with
  | none =>
    have hnone : s.models.orders[id]? = none := by simpa using hmodel
    show s.models.getOrder s.outage id = _
    simp only [hup, ReadModels.getOrder, ReadModels.findOrder_nil, hnone]
    rfl
  | some told =>
    obtain ⟨shown, hfound, heq⟩ := Option.map_eq_some_iff.mp hmodel
    refine ⟨shown, heq.symm, ?_⟩
    simp only [hup, ReadModels.getOrder, ReadModels.findOrder_nil, hfound]
    rfl

/-- The read model of a menu item sits under its own id. -/
theorem menuItemId_of_delivers {m : ReadModels} {delivered : List Entry}
    (h : Delivers MenuItem delivered m) {id : String} {shown : MenuItemModel}
    (hshown : m.menuItems[id]? = some shown) : shown.menuItemId = id := by
  obtain ⟨events, hevents, hshows⟩ := h id
  have hmodel : m.menuItems[id]?.map some =
      (Story.replay MenuItem events).map MenuItemState.model? := hshows
  rw [hshown, Option.map_some] at hmodel
  obtain ⟨told, htold, heq⟩ := Option.map_eq_some_iff.mp hmodel.symm
  have hid := stateId_replay (about_of_forall₂ hevents fun x hx => (Log.mem_of.mp hx).2) told htold
  rw [← Option.some.inj heq]
  exact hid

theorem Shows.answersMenu {s : Service} {id : String} {told : Option MenuItemState}
    {delivered : List Entry} (hup : s.outage = [])
    (hdelivers : Delivers MenuItem delivered s.models) (h : Shows MenuItem s.models id told) :
    s.AnswersMenu id told := by
  have hlisted : s.listed id = .ok (s.models.menuItems[id]?.toList.filter (·.available)) := by
    have hown : s.models.menuItems.values.filter (·.menuItemId == id) =
        s.models.menuItems[id]?.toList :=
      Table.filter_values (fun hfound => menuItemId_of_delivers hdelivers hfound) id
    rw [← hown, List.filter_comm]
    simp only [Service.listed, hup]
    rfl
  have hmodel : s.models.menuItems[id]?.map some = told.map MenuItemState.model? := h
  cases told with
  | none =>
    have hnone : s.models.menuItems[id]? = none := by simpa using hmodel
    rw [hnone] at hlisted
    exact hlisted
  | some told =>
    obtain ⟨shown, hfound, heq⟩ := Option.map_eq_some_iff.mp hmodel
    -- every item has a read model, but the menu lists it only if it is available
    have hshown : shown = ⟨told.id, told.name, told.price.plain, told.available⟩ :=
      Option.some.inj heq
    rw [hfound, hshown] at hlisted
    show s.listed id = _
    rw [hlisted]
    cases told.available with
    | true => rfl
    | false => rfl

/-! ## What is shown of an aggregate -/

/-- An item as it is shown. Its prices are the same numbers. -/
structure OrderItem.ShownAs (item : OrderItem) (shown : OrderItemModel) : Prop where
  itemId : shown.itemId = item.id
  menuItemId : shown.menuItemId = item.menuItemId
  name : shown.name = item.name
  unitPrice : shown.unitPrice.cmp item.unitPrice.amount = .eq
  quantity : shown.quantity = item.quantity.value
  status : shown.status = item.status.text
  totalPrice : item.totalPrice?.map Money.amount = some shown.totalPrice

/-- An order as it is shown, with its items in their order. -/
structure Order.ShownAs (order : Order) (shown : OrderModel) : Prop where
  orderId : shown.orderId = order.id
  tableNumber : shown.tableNumber = order.table.value
  status : shown.status = order.status.text
  items : List.Forall₂ OrderItem.ShownAs order.items shown.items

/-- A menu item as it is shown. Its price is the same number. -/
structure MenuItem.ShownAs (item : MenuItem) (shown : MenuItemModel) : Prop where
  menuItemId : shown.menuItemId = item.id
  name : shown.name = item.name
  price : shown.price.cmp item.price.amount = .eq
  available : shown.available = item.available

theorem OrderItem.shownAs {item : OrderItem} {shown : OrderItemModel}
    (h : item.state.model? = some shown) : item.ShownAs shown := by
  obtain ⟨total, htotal, rfl⟩ := Option.map_eq_some_iff.mp h
  refine ⟨rfl, rfl, rfl, Decimal.cmp_plain _, rfl, rfl, ?_⟩
  -- a quantity is read back as the amount that it was multiplied by
  have hquantity : Decimal.ofInt? item.quantity.value = some item.quantity.amount := by
    refine Decimal.of?_eq_some_iff.mpr ⟨?_, ?_, rfl⟩
    · exact (decide_eq_false (Int.not_lt.mpr (Int.natCast_nonneg _))).symm
    · rfl
  have hmul : item.unitPrice.amount.mul? item.quantity.amount = some total := by
    have hbind : (Decimal.ofInt? item.quantity.value).bind item.unitPrice.amount.mul? =
        some total :=
      htotal
    rw [hquantity] at hbind
    exact hbind
  rw [totalPrice?, Money.times?]
  split
  · rename_i d hd
    exact hd.symm.trans hmul
  · rename_i hnone
    rw [hmul] at hnone
    cases hnone

theorem forall₂_shownAs {items : List OrderItem} {shown : List OrderItemModel}
    (h : (items.map OrderItem.state).mapM ItemState.model? = some shown) :
    List.Forall₂ OrderItem.ShownAs items shown := by
  induction items generalizing shown with
  | nil =>
    cases h
    exact .nil
  | cons item rest ih =>
    obtain ⟨first, others, hfirst, hothers, rfl⟩ := mapM_cons_eq_some.mp h
    exact .cons (OrderItem.shownAs hfirst) (ih hothers)

theorem Order.shownAs {order : Order} {shown : OrderModel} (h : order.state.model? = some shown) :
    order.ShownAs shown := by
  obtain ⟨-, hitems, hshown⟩ := OrderState.model?_eq_some h
  rw [hshown]
  exact ⟨rfl, rfl, rfl, forall₂_shownAs hitems⟩

namespace Service

variable {s : Service} {id : String}

/-- The order that is committed is shown; one that is not committed is not found. -/
def AnswersCommittedOrder (s : Service) (id : String) : Prop :=
  match s.backend.stores.orders[id]? with
  | none => s.models.getOrder s.outage id = .error (.orderNotFound id)
  | some v => ∃ shown, s.models.getOrder s.outage id = .ok shown ∧ v.value.ShownAs shown

/-- The menu item that is committed is listed if it is available. -/
def AnswersCommittedMenuItem (s : Service) (id : String) : Prop :=
  match s.backend.stores.menuItems[id]? with
  | none => s.listed id = .ok []
  | some v =>
    if v.value.available then ∃ shown, s.listed id = .ok [shown] ∧ v.value.ShownAs shown
    else s.listed id = .ok []

theorem AnswersOrder.committed (h : s.AnswersOrder id (s.backend.stores.told Order id)) :
    s.AnswersCommittedOrder id := by
  unfold AnswersCommittedOrder
  cases hv : s.backend.stores.orders[id]? with
  | none =>
    rw [Stores.told_eq_none hv] at h
    exact h
  | some v =>
    have htold : s.backend.stores.told Order id = some v.value.state := congrArg (Option.map _) hv
    rw [htold] at h
    obtain ⟨shown, hmodel, hget⟩ := h
    exact ⟨shown, hget, Order.shownAs hmodel⟩

theorem AnswersMenu.committed (h : s.AnswersMenu id (s.backend.stores.told MenuItem id)) :
    s.AnswersCommittedMenuItem id := by
  unfold AnswersCommittedMenuItem
  cases hv : s.backend.stores.menuItems[id]? with
  | none =>
    rw [Stores.told_eq_none hv] at h
    exact h
  | some v =>
    have htold : s.backend.stores.told MenuItem id = some v.value.state :=
      congrArg (Option.map _) hv
    have hlisted : s.listed id = .ok (if v.value.available then
        [⟨v.value.id, v.value.name, v.value.price.amount.plain, true⟩] else []) := by
      rw [htold] at h
      exact h
    show if v.value.available then ∃ shown, s.listed id = .ok [shown] ∧ v.value.ShownAs shown
      else s.listed id = .ok []
    split
    · rename_i havailable
      rw [if_pos havailable] at hlisted
      exact ⟨_, hlisted, rfl, rfl, Decimal.cmp_plain _, havailable.symm⟩
    · rename_i havailable
      rw [if_neg havailable] at hlisted
      exact hlisted

end Service

/-! ## The prefix that is shown -/

/-- As long as no attempt at an entry about an aggregate has failed, queries show what its first
events tell, as far as its entries are processed. Once nothing is pending they show it as it is
committed. -/
theorem Flow.Reached.shows_prefix {w : Flow} (h : w.Reached) (id : String) :
    ((∀ e ∈ Log.of Order w.service.log id, e.retryCount = 0 ∧ e.status ≠ .deadLettered) →
      ∃ k events, w.HasDone Order id k events ∧
        w.service.AnswersOrder id (Story.replay Order (events.take k)) ∧
        ((∀ e ∈ Log.of Order w.service.log id, e.status ≠ .pending) →
          w.service.AnswersCommittedOrder id)) ∧
    ((∀ e ∈ Log.of MenuItem w.service.log id, e.retryCount = 0 ∧ e.status ≠ .deadLettered) →
      ∃ k events, w.HasDone MenuItem id k events ∧
        w.service.AnswersMenu id (Story.replay MenuItem (events.take k)) ∧
        ((∀ e ∈ Log.of MenuItem w.service.log id, e.status ≠ .pending) →
          w.service.AnswersCommittedMenuItem id)) := by
  have hsound := h.sound
  have hclean : ∀ e ∈ w.service.log, e.retryCount = 0 ∧ e.status ≠ .deadLettered → e.IsClean :=
    fun e he => (hsound.log.kept e he).sound.isClean_iff.mpr
  constructor
  · intro horder
    obtain ⟨done, todo, hinOrder⟩ := h.keepsOrder (α := Order) id fun e he =>
      hclean e (Log.mem_of.mp he).1 (horder e he)
    obtain ⟨k, events, hdone⟩ := hinOrder.hasDone hsound hsound.orders hsound.shownOrders
    refine ⟨k, events, hdone, hdone.shows.answersOrder hsound.up.outage, fun hpending => ?_⟩
    exact ((hdone.shows_told hpending).answersOrder hsound.up.outage).committed
  · intro hitem
    obtain ⟨done, todo, hinOrder⟩ := h.keepsOrder (α := MenuItem) id fun e he =>
      hclean e (Log.mem_of.mp he).1 (hitem e he)
    obtain ⟨k, events, hdone⟩ := hinOrder.hasDone hsound hsound.menuItems hsound.shownMenuItems
    refine ⟨k, events, hdone, hdone.shows.answersMenu hsound.up.outage hsound.shownMenuItems,
      fun hpending => ?_⟩
    exact ((hdone.shows_told hpending).answersMenu hsound.up.outage hsound.shownMenuItems).committed

/-! ## An order that is served -/

/-- The registry of the two projectors. -/
def realRegistry : Registry Call :=
  match Registry.ofProjectors realProjectors with
  | .ok registry => registry
  | .error _ => ∅

theorem ofProjectors_real : Registry.ofProjectors realProjectors = .ok realRegistry := by
  have hok : (Registry.ofProjectors realProjectors).isOk = true := by decide +kernel
  unfold realRegistry
  cases hregistry : Registry.ofProjectors realProjectors with
  | ok registry => rfl
  | error e =>
    rw [hregistry] at hok
    cases hok

/-- A service at the start. -/
def Service.fresh : Service where
  backend := .fresh
  registry := realRegistry

theorem Service.fresh_isNew : Service.fresh.IsNew where
  stores := rfl
  models := rfl
  up := ⟨rfl, ofProjectors_real⟩
  ids := Backend.fresh_ids
  retries := by decide

/-- The service with a dish on the menu, and an order of it. -/
def Service.withOrder : Service := ((fresh.execute .createTea).2.execute .placeTea).2

/-- The service when everything has been projected. -/
def Service.served : Service := (attemptAll withOrder.log withOrder).2

theorem Service.reached_withOrder : Flow.Reached { service := withOrder } := by
  have hcreate : Text.trim Command.createTea.target = Command.createTea.target := by decide +kernel
  have hplace : Text.trim Command.placeTea.target = Command.placeTea.target := by decide +kernel
  exact ((Flow.Reached.start fresh_isNew).step (.command hcreate)).step (.command hplace)

theorem Service.exists_reached_served : ∃ delivered, Flow.Reached ⟨served, [], delivered⟩ := by
  -- nothing has been attempted yet, so a pass that is long enough fetches the whole log
  have hdue : withOrder.log.filter (·.isDue withOrder.now) = withOrder.log :=
    List.filter_eq_self.mpr (by decide +kernel)
  have hfound : withOrder.findPending withOrder.log.length = .ok withOrder.log := by
    rw [reached_withOrder.sound.findPending_eq, hdue, List.take_length]
  exact (reached_withOrder.step (.fetch rfl hfound)).attemptAll

theorem served_shows_order : ∃ delivered, Flow.Reached ⟨.served, [], delivered⟩ ∧
    Service.served.AnswersCommittedOrder "o1" ∧ Service.served.AnswersCommittedMenuItem "tea" := by
  obtain ⟨delivered, hreached⟩ := Service.exists_reached_served
  have horder : ∀ e ∈ Log.of Order Service.served.log "o1",
      (e.retryCount = 0 ∧ e.status ≠ .deadLettered) ∧ e.status ≠ .pending := by decide +kernel
  have hitem : ∀ e ∈ Log.of MenuItem Service.served.log "tea",
      (e.retryCount = 0 ∧ e.status ≠ .deadLettered) ∧ e.status ≠ .pending := by decide +kernel
  obtain ⟨-, -, -, -, hshown⟩ :=
    (Flow.Reached.shows_prefix hreached "o1").1 fun e he => (horder e he).1
  obtain ⟨-, -, -, -, hlisted⟩ :=
    (Flow.Reached.shows_prefix hreached "tea").2 fun e he => (hitem e he).1
  refine ⟨delivered, hreached, ?_, ?_⟩
  · exact hshown fun e he => (horder e he).2
  · exact hlisted fun e he => (hitem e he).2

end TableService
