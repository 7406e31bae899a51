import TableService.Proofs.Command.AllOrNothing
import TableService.Proofs.ReadModel.Plan
import TableService.Service.Basic

/-!
# One call of a projector

Whatever the event and its payload are, and whatever the read models have become so far:

- a call that fails changes nothing;
- a call that succeeds changes at most the read model that the payload names;
- the same call at once once more ends in the same way and changes nothing.

`HandlerTable.OneCall` says so of one call, and `ReadModels.Stored.projects_once` of every call of
the two projectors.
-/

namespace TableService

variable {α : Type} {out : Outage} {m m' : ReadModels}

/-! ## What read models become -/

/-- Read models that the calls of their stores have made. -/
inductive ReadModels.Stored : ReadModels → Prop
  | empty : Stored {}
  | saveOrder {m m' : ReadModels} {out : Outage} {order : OrderModel} :
    Stored m → m.saveOrder out order = .ok m' → Stored m'
  | deleteOrder {m : ReadModels} (id : String) : Stored m → Stored (m.deleteOrder id)
  | saveMenuItem {m m' : ReadModels} {out : Outage} {item : MenuItemModel} :
    Stored m → m.saveMenuItem out item = .ok m' → Stored m'

namespace ReadModels

/-- A call for one kind of read models leaves the other kind alone. -/
theorem Stored.keyed (h : m.Stored) : Shelf.orders.Keyed m ∧ Shelf.menuItems.Keyed m := by
  induction h with
  | empty =>
    constructor
    · intro id order h
      simp [Shelf.orders] at h
    · intro id item h
      simp [Shelf.menuItems] at h
  | @saveOrder _ _ _ order _ hsave ih =>
    obtain ⟨rfl, -⟩ := Shelf.orders.save_ok hsave
    exact ⟨Shelf.Keyed.put ih.1 order, ih.2⟩
  | @deleteOrder m id _ ih =>
    refine ⟨?_, ih.2⟩
    intro other order h
    refine ih.1 other order ?_
    change (m.orders.erase id)[other]? = some order at h
    rw [Std.ExtTreeMap.getElem?_erase] at h
    split at h
    · cases h
    · exact h
  | @saveMenuItem _ _ _ item _ hsave ih =>
    obtain ⟨rfl, -⟩ := Shelf.menuItems.save_ok hsave
    exact ⟨ih.1, Shelf.Keyed.put ih.2 item⟩

/-- Only the order with this id may differ. -/
def SameButOrder (id : String) (m m' : ReadModels) : Prop :=
  m'.menuItems = m.menuItems ∧ ∀ other, other ≠ id → m'.orders[other]? = m.orders[other]?

/-- Only the menu item with this id may differ. -/
def SameButMenuItem (id : String) (m m' : ReadModels) : Prop :=
  m'.orders = m.orders ∧ ∀ other, other ≠ id → m'.menuItems[other]? = m.menuItems[other]?

end ReadModels

open ReadModels

/-! ## Dispatch -/

namespace HandlerTable

variable {table : HandlerTable α} {holds : (Payload → α) → Prop}

/-- All handlers of the table are like this. -/
def All (table : HandlerTable α) (holds : (Payload → α) → Prop) : Prop :=
  ∀ (eventType : String) handler, table.handlers[eventType]? = some handler → holds handler

theorem all_of_empty (projector : String) : ({ projector } : HandlerTable α).All holds := by
  intro eventType handler h
  simp at h

theorem All.on (h : table.All holds) (eventType : String) {handler : Payload → α}
    (hhandler : holds handler) : (table.on eventType handler).All holds := by
  intro other found hfound
  rw [getElem?_handlers_on] at hfound
  split at hfound
  · exact Option.some.inj hfound ▸ hhandler
  · exact h other found hfound

/-- A payload is handed to a handler of the table, or refused. -/
theorem All.dispatch (h : table.All holds) (refuse : ProjectionError → α) (eventType : String)
    (data : Payload) :
    (∃ handler, holds handler ∧ table.dispatch refuse eventType data = handler data) ∨
      table.dispatch refuse eventType data =
        refuse (.unhandledEventType table.projector eventType) := by
  rw [HandlerTable.dispatch]
  cases hfound : table.handlers[eventType]? with
  | none => exact .inr rfl
  | some handler => exact .inl ⟨handler, h eventType handler hfound, rfl⟩

end HandlerTable

/-- The handlers of a projector all do what they do by a plan for the same kind of read models. -/
def HandlerTable.Planned (table : HandlerTable Steps) (shelf : Shelf α) : Prop :=
  table.All fun handler => ∀ data, Steps.Planned shelf data (handler data)

open ProjectionM

/-- A call fails whatever there is, or a plan is carried out for the read model that is named. -/
theorem HandlerTable.Planned.cases {table : HandlerTable Steps} {shelf : Shelf α}
    (h : table.Planned shelf) (eventType : String) (data : Payload) :
    (∃ e, ∀ out m, (table.steps eventType data).run out m = (.error e, m)) ∨
      ∃ id, data.named shelf.field = some id ∧ ∃ plan : Plan shelf id,
        ∀ out m, (table.steps eventType data).run out m = behind m (plan.apply out m) := by
  rw [steps]
  obtain ⟨handler, hplanned, hsteps⟩ | hsteps := All.dispatch h _ eventType data
  · rw [hsteps]
    exact (hplanned data).cases
  · rw [hsteps]
    exact .inl ⟨_, fun _ _ => rfl⟩

theorem menuItemHandlers_planned : menuItemHandlers.Planned .menuItems := by
  have hnone : HandlerTable.Planned { projector := "MenuItemProjector" } .menuItems :=
    HandlerTable.all_of_empty _
  exact ((hnone.on _ onCreated_planned).on _ (setAvailable_planned _ _)).on _
    (setAvailable_planned _ _)

theorem orderHandlers_planned : orderHandlers.Planned .orders := by
  have hnone : HandlerTable.Planned { projector := "OrderProjector" } .orders :=
    HandlerTable.all_of_empty _
  have hready : "ready" ∈ ["ready", "cancelled"] := by decide
  have hcancelled : "cancelled" ∈ ["ready", "cancelled"] := by decide
  have hcompleted : "completed" ∈ ["completed", "cancelled"] := by decide
  have hclosed : "cancelled" ∈ ["completed", "cancelled"] := by decide
  exact (((((hnone.on _ onPlaced_planned).on _ onItemAdded_planned).on _
    (setStatusOfItem_planned _ hready)).on _ (setStatusOfItem_planned _ hcancelled)).on _
    (setStatus_planned _ hcompleted)).on _ (setStatus_planned _ hclosed)

/-! ## Calls -/

/-- What holds of one call with `data`, which names a read model in `field`. -/
structure Steps.Once (steps : Steps) (field : String)
    (sameBut : String → ReadModels → ReadModels → Prop) (data : Payload) (out : Outage)
    (m : ReadModels) : Prop where
  failed : ∀ e, (steps.run out m).1 = .error e → (steps.run out m).2 = m
  changed : (steps.run out m).1 = .ok () →
    ∃ id, data.named field = some id ∧ sameBut id m (steps.run out m).2
  again : steps.run out (steps.run out m).2 = steps.run out m

variable {data : Payload} {field : String} {sameBut : String → ReadModels → ReadModels → Prop}

theorem Steps.once_throw (e : ProjectionFailure) :
    Steps.Once (fun _ => throw e) field sameBut data out m where
  failed _ _ := rfl
  changed h := by cases h
  again := rfl

theorem Steps.Planned.once {shelf : Shelf α} {steps : Steps} (h : Steps.Planned shelf data steps)
    (hm : shelf.Keyed m) (hself : ∀ id, sameBut id m m)
    (hput : ∀ a, sameBut (shelf.own a) m (shelf.put m a)) :
    Steps.Once steps shelf.field sameBut data out m := by
  obtain ⟨eventType, plan, hsteps⟩ := h
  cases hplan : Plan.perform ⟨eventType, data⟩ plan out m with
  | error e =>
    have hrun : steps.run out m = (.error e, m) := by rw [hsteps, hplan]; rfl
    constructor
    · intro _ _
      rw [hrun]
    · rw [hrun]
      nofun
    · rw [hrun, hrun]
  | ok m' =>
    obtain ⟨⟨id, hid, hchange⟩, hagain⟩ := Plan.perform_ok hm hplan
    have hrun : steps.run out m = (.ok (), m') := by rw [hsteps, hplan]; rfl
    have hrun' : steps.run out m' = (.ok (), m') := by rw [hsteps, hagain]; rfl
    constructor
    · rw [hrun]
      nofun
    · intro _
      refine ⟨id, hid, ?_⟩
      rw [hrun]
      rcases hchange with rfl | ⟨a, rfl, rfl⟩
      · exact hself id
      · exact hput a
    · rw [hrun, hrun']

/-- A service keeps the read models that the steps leave. -/
theorem Steps.Once.finishCall {steps : Steps} {s : Service}
    (h : Steps.Once steps field sameBut data s.outage s.models) :
    s.finishCall (.project (.ofSteps steps)) =
      ((steps.run s.outage s.models).1, { s with models := (steps.run s.outage s.models).2 }) := by
  have hfailed := h.failed
  simp only [Service.finishCall, Projection.ofSteps]
  rcases hrun : steps.run s.outage s.models with ⟨e | u, m'⟩
  · rw [hrun] at hfailed
    rw [hfailed e rfl]
  · rfl

/-- One call of the projector with these handlers, in whatever way it ends. -/
structure HandlerTable.OneCall (table : HandlerTable Steps) (field : String)
    (sameBut : String → ReadModels → ReadModels → Prop) (eventType : String) (data : Payload)
    (s : Service) : Prop where
  once : Steps.Once (table.steps eventType data) field sameBut data s.outage s.models
  finished : s.finishCall (.project ((Projector.ofTable table).project eventType data)) =
    (((table.steps eventType data).run s.outage s.models).1,
      { s with models := ((table.steps eventType data).run s.outage s.models).2 })

theorem HandlerTable.Planned.oneCall {table : HandlerTable Steps} {shelf : Shelf α} {s : Service}
    (h : table.Planned shelf) (hkeyed : shelf.Keyed s.models)
    (hself : ∀ id, sameBut id s.models s.models)
    (hput : ∀ a, sameBut (shelf.own a) s.models (shelf.put s.models a)) (eventType : String)
    (data : Payload) : table.OneCall shelf.field sameBut eventType data s := by
  have honce : Steps.Once (table.steps eventType data) shelf.field sameBut data s.outage
      s.models := by
    rw [steps]
    obtain ⟨handler, hplanned, hsteps⟩ | hsteps := All.dispatch h _ eventType data
    · rw [hsteps]
      exact (hplanned data).once hkeyed hself hput
    · rw [hsteps]
      exact Steps.once_throw _
  exact ⟨honce, honce.finishCall⟩

/-- Whatever a projector is called with, a failure changes nothing, a success changes no read model
but the one that is named, and a second call at once is one too many. -/
theorem ReadModels.Stored.projects_once {s : Service} (hs : s.models.Stored) (eventType : String)
    (data : Payload) :
    menuItemHandlers.OneCall "menu_item_id" SameButMenuItem eventType data s ∧
      orderHandlers.OneCall "order_id" SameButOrder eventType data s := by
  constructor
  · refine menuItemHandlers_planned.oneCall hs.keyed.2 (fun _ => ⟨rfl, fun _ _ => rfl⟩)
      (fun item => ⟨rfl, ?_⟩) eventType data
    intro other hother
    exact Table.getElem?_insert_of_ne hother.symm
  · refine orderHandlers_planned.oneCall hs.keyed.1 (fun _ => ⟨rfl, fun _ _ => rfl⟩)
      (fun order => ⟨rfl, ?_⟩) eventType data
    intro other hother
    exact Table.getElem?_insert_of_ne hother.symm

/-- An order with one item, which has the status `status`. -/
def OrderModel.oneDish (status : String) : OrderModel :=
  ⟨"7", 3, "open", [⟨"i", "m", "Tea", .whole 3 three_lt_limit96, 1, status,
    .whole 3 three_lt_limit96⟩]⟩

/-- A service that shows this order and nothing else. -/
def Service.showing (order : OrderModel) : Service where
  backend := .fresh
  models := { orders := (∅ : Table OrderModel).insert order.orderId order }

/-- A number may stand for the id of an order. -/
def Payload.numbered : Payload := [("order_item_id", .str "i"), ("order_id", .int 7)]

theorem oneDish_projects_once :
    (Service.showing (.oneDish "pending")).models.Stored ∧
      (orderHandlers.steps "DishMarkedReady" .numbered).run []
          (Service.showing (.oneDish "pending")).models =
        (.ok (), (Service.showing (.oneDish "ready")).models) ∧
      menuItemHandlers.OneCall "menu_item_id" SameButMenuItem "DishMarkedReady" .numbered
          (Service.showing (.oneDish "pending")) ∧
        orderHandlers.OneCall "order_id" SameButOrder "DishMarkedReady" .numbered
          (Service.showing (.oneDish "pending")) := by
  have hsave : ReadModels.saveOrder {} [] (.oneDish "pending") =
      .ok (Service.showing (.oneDish "pending")).models := rfl
  have hstored := ReadModels.Stored.empty.saveOrder hsave
  exact ⟨hstored, rfl, hstored.projects_once _ _⟩

end TableService
