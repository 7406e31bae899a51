import TableService.Proofs.Command.AllOrNothing
import TableService.Proofs.Command.Asked
import TableService.Proofs.ReadModel.Shown
import TableService.Proofs.Relay.Routing
import TableService.Relay.Attempt

/-!
# Entries handed over in the order of the log

The command side checks a price and a quantity each on its own. The order projector multiplies them,
and crashes if the product has more than 96 bits.

- `Registry.handOver`: an entry is handed to the projector of its type, while storage is up.
- `OrderEvent.Overflows`: an item is added to an order that is shown without it, and its total price
  is too large.
- `Traffic.handedOver`: of all that commands put into the log, this alone fails, and it fails at
  every attempt. It comes of a line with too large a total price.
-/

namespace TableService

/-! ## Handing over -/

namespace Registry

/-- Hands an entry to the projector of its type. One that fails leaves the read models alone. -/
def handOver (registry : Registry Projection) (m : ReadModels) (entry : Entry) :
    Attempt × ReadModels :=
  match registry[entry.eventType]? with
  | none => (.noProjector entry.eventType, m)
  | some p =>
    match p.project entry.eventType entry.eventData [] m with
    | .ok models => (.projected, models)
    | .error failure => (.ofProjection p.name (.error failure : Except ProjectionFailure Unit), m)

/-- The read models behind entries that were handed over one after the other. -/
def handOverAll (registry : Registry Projection) (m : ReadModels) (entries : List Entry) :
    ReadModels :=
  entries.foldl (fun m entry => (registry.handOver m entry).2) m

/-- What came of entries that were handed over one after the other. -/
def outcomes (registry : Registry Projection) : ReadModels → List Entry → List Attempt
  | _, [] => []
  | m, entry :: rest =>
    (registry.handOver m entry).1 :: registry.outcomes (registry.handOver m entry).2 rest

end Registry

/-! ## Products that are too large -/

/-- The price of the whole line, if there is such a number. -/
def OrderLine.totalPrice? (line : OrderLine) : Option Decimal :=
  (Decimal.ofInt? line.quantity).bind line.unitPrice.mul?

namespace OrderEvent

/-- The event adds an item that its order is shown without, and the total price is too large. -/
def Overflows (m : ReadModels) : OrderEvent → Prop
  | itemAdded orderId itemId _ _ price quantity =>
    (∃ order, m.orders[orderId]? = some order ∧ order.hasItem itemId = false) ∧
      (Decimal.ofInt? quantity).bind price.mul? = none
  | _ => False

variable {e : OrderEvent} {m : ReadModels}

theorem project_of_overflows (hrange : e.InRange) (h : e.Overflows m) :
    orderProjector.project e.name e.fields [] m = .error (.panic Decimal.overflowMessage) := by
  rw [project_handler]
  cases e with
  | itemAdded orderId itemId menuItemId name price quantity =>
    obtain ⟨⟨order, hshown, hnew⟩, htotal⟩ := h
    refine (OrderModel.onItemAdded_eq rfl rfl rfl rfl rfl rfl hrange m).trans ?_
    simp [hshown, hnew, ItemState.model?, htotal]
  | _ => exact h.elim

/-- Nothing else fails. -/
theorem isOk_project (hrange : e.InRange) (h : ¬ e.Overflows m) :
    (orderProjector.project e.name e.fields [] m).isOk = true := by
  rw [project_handler]
  cases e with
  | placed orderId table =>
    refine (congrArg Except.isOk (OrderModel.onPlaced_eq rfl rfl hrange m)).trans ?_
    split
    · rfl
    · rfl
  | itemAdded orderId itemId menuItemId name price quantity =>
    refine (congrArg Except.isOk
      (OrderModel.onItemAdded_eq rfl rfl rfl rfl rfl rfl hrange m)).trans ?_
    split
    · rfl
    · rename_i order hshown
      split
      · rfl
      · rename_i hnew
        split
        · rfl
        · -- the order is shown without the item, so its total price is the reason
          rename_i hnone
          exact absurd ⟨⟨order, hshown, Bool.eq_false_iff.mpr hnew⟩,
            Option.map_eq_none_iff.mp hnone⟩ h
  | dishReady orderId itemId | itemCancelled orderId itemId =>
    refine (congrArg Except.isOk (OrderModel.setStatusOfItem_eq rfl rfl m)).trans ?_
    split
    · rfl
    · split
      · rfl
      · rfl
  | completed orderId | cancelled orderId =>
    refine (congrArg Except.isOk (OrderModel.setStatus_eq rfl m)).trans ?_
    split
    · rfl
    · rfl

end OrderEvent

theorem MenuItemEvent.isOk_project (e : MenuItemEvent) (m : ReadModels) :
    (menuItemProjector.project e.name e.fields [] m).isOk = true := by
  rw [project_handler]
  cases e with
  | created id name price =>
    refine (congrArg Except.isOk (MenuItemModel.onCreated_eq rfl rfl rfl m)).trans ?_
    split
    · rfl
    · rfl
  | soldOut id | available id =>
    refine (congrArg Except.isOk (MenuItemModel.setAvailable_eq rfl m)).trans ?_
    split
    · rfl
    · rfl

/-! ## Entries that commands have made -/

/-- What is recorded of a projector that has crashed over a total price. -/
def Attempt.overflowed : Attempt :=
  .ofProjection orderProjector.name
    (.error (.panic Decimal.overflowMessage) : Except ProjectionFailure Unit)

/-- The entry is about an item whose total price is too large. -/
def Entry.Overflows (m : ReadModels) (entry : Entry) : Prop :=
  ∃ e : OrderEvent, entry.Carries Order e ∧ e.Overflows m

namespace Registry

section

variable {registry : Registry Projection} {entry : Entry} {m : ReadModels} {α : Type} [Aggregate α]
  [Story α] [Shown α] {e : Story.Event α}

/-- An event goes to the projector that keeps the read models of its kind. -/
theorem route (hreal : ofProjectors [menuItemProjector, orderProjector] = .ok registry)
    (hmem : Shown.projector α ∈ [menuItemProjector, orderProjector]) (h : entry.Carries α e) :
    registry[entry.eventType]? = some (Shown.projector α) := by
  rw [h.eventType]
  exact getElem?_of_mem_claims hreal hmem (Shown.name_mem e)

theorem handOver_of_isOk (hroute : registry[entry.eventType]? = some (Shown.projector α))
    (h : entry.Carries α e)
    (hok : ((Shown.projector α).project (Story.name e) (Story.fields e) [] m).isOk = true) :
    (registry.handOver m entry).1 = .projected := by
  rw [handOver, hroute, h.eventType, h.eventData]
  cases hproject : (Shown.projector α).project (Story.name e) (Story.fields e) [] m with
  | ok models => simp only [hproject]
  | error failure =>
    rw [hproject] at hok
    cases hok

theorem handOver_of_error (hroute : registry[entry.eventType]? = some (Shown.projector α))
    (h : entry.Carries α e) {failure : ProjectionFailure}
    (herror : (Shown.projector α).project (Story.name e) (Story.fields e) [] m = .error failure) :
    registry.handOver m entry =
      (.ofProjection (Shown.projector α).name (.error failure : Except ProjectionFailure Unit),
        m) := by
  rw [handOver, hroute, h.eventType, h.eventData]
  simp only [herror]

end

variable {registry : Registry Projection} {entry : Entry} {m : ReadModels}
  {moves : List Traffic.Move}

/-- An entry that a command has asked for is projected, unless its total price is too large. -/
theorem handOver_of_isAsked
    (hreal : ofProjectors [menuItemProjector, orderProjector] = .ok registry)
    (h : entry.IsAsked moves) :
    (entry.Overflows m → registry.handOver m entry = (.overflowed, m)) ∧
      (¬ entry.Overflows m → (registry.handOver m entry).1 = .projected) := by
  cases h with
  | menuItem carries =>
    rename_i e
    have hroute := route hreal List.mem_cons_self carries
    refine ⟨fun ⟨_, hother, _⟩ => ?_, fun _ => ?_⟩
    · exact absurd (carries.aggregateType.symm.trans hother.aggregateType) (by decide)
    · exact handOver_of_isOk hroute carries (MenuItemEvent.isOk_project e m)
  | order accepted carries asked =>
    rename_i e
    have hroute := route hreal (List.mem_cons_of_mem _ List.mem_cons_self) carries
    constructor
    · rintro ⟨e', carries', hover⟩
      obtain rfl := carries.unique carries'
      exact handOver_of_error hroute carries (OrderEvent.project_of_overflows asked.inRange hover)
    · intro hnot
      refine handOver_of_isOk hroute carries (OrderEvent.isOk_project asked.inRange ?_)
      exact fun hover => hnot ⟨e, carries, hover⟩

end Registry

/-- A total price that is too large was asked for. -/
theorem Entry.IsAsked.exists_line {moves : List Traffic.Move} {entry : Entry} {m : ReadModels}
    (h : entry.IsAsked moves) (hover : entry.Overflows m) :
    ∃ policy command, .accept policy command ∈ moves ∧
      ∃ line ∈ command.lines, line.totalPrice? = none := by
  obtain ⟨e, carries, hover⟩ := hover
  cases h with
  | menuItem carries' =>
    exact absurd (carries'.aggregateType.symm.trans carries.aggregateType) (by decide)
  | order accepted carries' asked =>
    obtain rfl := carries.unique carries'
    cases e with
    | itemAdded orderId itemId menuItemId name price quantity =>
      obtain ⟨line, hline, rfl, hquantity⟩ := asked.line rfl
      refine ⟨_, _, accepted, line, hline, ?_⟩
      rw [OrderLine.totalPrice?, hquantity]
      exact hover.2
    | _ => exact hover.elim

/-! ## All that commands put into the log -/

/-- What comes of a log that is handed over from its first entry to its last, over empty read
models. -/
structure Registry.HandedOver (registry : Registry Projection) (moves : List Traffic.Move)
    (log : Log) : Prop where
  /-- The projector crashes over a total price that is too large, and does so again at every later
  attempt while nothing else is handed over. -/
  overflowed {front rest : List Entry} {entry : Entry} : log = front ++ entry :: rest →
    entry.Overflows (registry.handOverAll {} front) →
      registry.handOver (registry.handOverAll {} front) entry =
        (.overflowed, registry.handOverAll {} front)
  /-- Every other entry is projected. -/
  projected {front rest : List Entry} {entry : Entry} : log = front ++ entry :: rest →
    ¬ entry.Overflows (registry.handOverAll {} front) →
      (registry.handOver (registry.handOverAll {} front) entry).1 = .projected
  /-- Some command has asked for it. -/
  asked {entry : Entry} {m : ReadModels} : entry ∈ log → entry.Overflows m →
    ∃ policy command, .accept policy command ∈ moves ∧
      ∃ line ∈ command.lines, line.totalPrice? = none
  /-- As long as no line has too large a total price, the whole log is projected. -/
  whole : (∀ {policy command}, .accept policy command ∈ moves →
    ∀ line ∈ command.lines, line.totalPrice? ≠ none) →
      registry.outcomes {} log = List.replicate log.length .projected

theorem Registry.outcomes_eq_replicate {registry : Registry Projection} {m : ReadModels}
    {entries : List Entry}
    (h : ∀ entry ∈ entries, ∀ m, (registry.handOver m entry).1 = .projected) :
    registry.outcomes m entries = List.replicate entries.length .projected := by
  induction entries generalizing m with
  | nil => rfl
  | cons entry rest ih =>
    rw [outcomes, h entry List.mem_cons_self m,
      ih fun entry' hentry => h entry' (List.mem_cons_of_mem _ hentry)]
    rfl

namespace Traffic

variable {start : Backend} {moves : List Move} {registry : Registry Projection}

/-- Of all that commands put into the log, in whatever turns and with whatever ids, an entry fails
exactly if it adds an item with too large a total price to an order that is shown without it. -/
theorem handedOver (hempty : start.stores = {})
    (hreal : Registry.ofProjectors [menuItemProjector, orderProjector] = .ok registry) :
    registry.HandedOver moves (run ⟨start, []⟩ moves).backend.stores.outbox := by
  have hasked : ∀ entry ∈ (run ⟨start, []⟩ moves).backend.stores.outbox, entry.IsAsked moves :=
    isAsked_of_mem hempty
  refine ⟨fun hlog hover => ?_, fun hlog hnot => ?_, fun hentry hover => ?_, fun hlines => ?_⟩
  · have hentry := hasked _ (hlog ▸ List.mem_append_right _ List.mem_cons_self)
    exact (Registry.handOver_of_isAsked hreal hentry).1 hover
  · have hentry := hasked _ (hlog ▸ List.mem_append_right _ List.mem_cons_self)
    exact (Registry.handOver_of_isAsked hreal hentry).2 hnot
  · exact (hasked _ hentry).exists_line hover
  · refine Registry.outcomes_eq_replicate fun entry hentry m => ?_
    refine (Registry.handOver_of_isAsked hreal (hasked entry hentry)).2 fun hover => ?_
    obtain ⟨policy, command, haccepted, line, hline, hnone⟩ :=
      (hasked entry hentry).exists_line hover
    exact hlines haccepted line hline hnone

/-- The registry of the two projectors. -/
def bothProjectors : Registry Projection :=
  match Registry.ofProjectors [menuItemProjector, orderProjector] with
  | .ok registry => registry
  | .error _ => ∅

theorem ofProjectors_both :
    Registry.ofProjectors [menuItemProjector, orderProjector] = .ok bothProjectors := by
  have hok : (Registry.ofProjectors [menuItemProjector, orderProjector]).isOk = true := by
    decide +kernel
  unfold bothProjectors
  cases hregistry : Registry.ofProjectors [menuItemProjector, orderProjector] with
  | ok registry => rfl
  | error e =>
    rw [hregistry] at hok
    cases hok

/-- Two cups of tea at the highest price there is. -/
def dearTea : List Move :=
  .accept {} .createTea :: List.replicate 9 (.turn 0) ++
    .accept {} (.placeOrder "o1" 4 [⟨"tea", "Tea", .whole (limit96 - 1) (by decide), 2⟩]) ::
    List.replicate 13 (.turn 1)

/-- Both commands are accepted, and the entry of the item is the one that fails. -/
theorem dearTea_handedOver :
    bothProjectors.HandedOver dearTea (run ⟨.fresh, []⟩ dearTea).backend.stores.outbox ∧
      (run ⟨.fresh, []⟩ dearTea).running.map (·.result?.map Except.isOk) =
        [some true, some true] ∧
      bothProjectors.outcomes {} (run ⟨.fresh, []⟩ dearTea).backend.stores.outbox =
        [.projected, .projected, .overflowed] :=
  ⟨handedOver Backend.fresh_stores ofProjectors_both, by decide +kernel, by decide +kernel⟩

end Traffic

end TableService
