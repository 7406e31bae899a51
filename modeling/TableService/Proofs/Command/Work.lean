import TableService.Proofs.Command.Alone
import TableService.Proofs.Command.Outcome
import TableService.Proofs.Outbox.InPlace

/-!
# Commands at work

- `Overlay.Looked`: a unit that has only looked things up. Nothing that it has seen can have moved
  on while its command runs alone, so its commit succeeds.
- `run_findMenuItems`: to look up what is committed of the menu stages nothing.
- `alone_loadOrder`, `alone_place` and their like: what each part of a command comes to.
- `alone_work`: the work of a command is refused and leaves the stores, or it is accepted.
- `Command.execute_spec`: and so it is for the command as a whole.
- `Command.execute_inPlace`: no command moves the clock or the source of the ids.
-/

namespace TableService

open UnitOfWork CommandM

/-! ## Looking things up -/

/-- Nothing is staged, and what has been looked up is still as it was. -/
structure StagedTable.Looked {α : Type} (t : StagedTable α)
    (committed : Table (Versioned α)) : Prop where
  staged : t.staged = ∅
  observed {id : String} {v : Nat} : t.observed[id]? = some v → v = versionOf committed id

theorem StagedTable.looked_empty {α : Type} (committed : Table (Versioned α)) :
    ({} : StagedTable α).Looked committed where
  staged := rfl
  observed h := by simp at h

theorem StagedTable.Looked.observe {α : Type} {t : StagedTable α} {committed : Table (Versioned α)}
    (h : t.Looked committed) (id : String) : (t.observe committed id).Looked committed where
  staged := h.staged
  observed {id' v} hv := by
    rw [observed_observe] at hv
    split at hv
    · rename_i hid
      cases hv
      rw [hid.1]
    · exact h.observed hv

theorem StagedTable.Looked.find_eq {α : Type} {t : StagedTable α} {committed : Table (Versioned α)}
    (h : t.Looked committed) (id : String) :
    t.find committed id = (committed[id]?.map Versioned.value, t.observe committed id) := by
  have hs : t.staged[id]? = none := by simp [h.staged]
  rw [StagedTable.find, hs]

/-- A unit that has only looked things up while nobody else was at work. -/
structure Overlay.Looked (o : Overlay) (s : Stores) : Prop where
  orders : o.orders.Looked s.orders
  menuItems : o.menuItems.Looked s.menuItems
  outbox : o.outbox = []

theorem Overlay.looked_empty (s : Stores) : ({} : Overlay).Looked s where
  orders := StagedTable.looked_empty _
  menuItems := StagedTable.looked_empty _
  outbox := rfl

section Alone

variable {b : Backend} {o : Overlay}

theorem alone_loadOrder {Q : Order → Backend → UnitOfWork → Prop} {id : String}
    (h : o.Looked b.stores)
    (hQ : ∀ v o', b.stores.orders[id]? = some v → o'.Looked b.stores → Q v.value b (some o')) :
    Alone b.stores (loadOrder id) Q b (some o) := by
  rw [loadOrder, alone_bind, alone_findOrder, h.orders.find_eq]
  cases hv : b.stores.orders[id]? with
  | none => rfl
  | some v => exact hQ v _ hv ⟨h.orders.observe id, h.menuItems, h.outbox⟩

theorem alone_loadMenuItem {Q : MenuItem → Backend → UnitOfWork → Prop} {id : String}
    (h : o.Looked b.stores)
    (hQ : ∀ v o', b.stores.menuItems[id]? = some v → o'.Looked b.stores → Q v.value b (some o')) :
    Alone b.stores (loadMenuItem id) Q b (some o) := by
  rw [loadMenuItem, alone_bind, alone_findMenuItem, h.menuItems.find_eq]
  cases hv : b.stores.menuItems[id]? with
  | none => rfl
  | some v => exact hQ v _ hv ⟨h.orders, h.menuItems.observe id, h.outbox⟩

/-- To look for menu items is never refused. -/
theorem run_findMenuItems (ids : List String) (h : o.Looked b.stores) :
    ∃ o', o'.Looked b.stores ∧ Program.run b (some o) (findMenuItems ids).run =
      (.ok (b.stores.menuItemsOf ids), b, some o') := by
  induction ids generalizing o with
  | nil => exact ⟨o, h, rfl⟩
  | cons id rest ih =>
    obtain ⟨o', ho', hrun⟩ :=
      ih (o := { o with menuItems := o.menuItems.observe b.stores.menuItems id })
        ⟨h.orders, h.menuItems.observe id, h.outbox⟩
    refine ⟨o', ho', ?_⟩
    change Program.run b (some { o with menuItems := (o.menuItems.find b.stores.menuItems id).2 })
      (findMenuItems rest >>= fun items =>
        pure ((o.menuItems.find b.stores.menuItems id).1.toList ++ items) : CommandM _).run = _
    rw [h.menuItems.find_eq, ExceptT.run_bind, Program.run_bind, hrun]
    simp only [Stores.menuItemsOf, List.filterMap_cons]
    cases b.stores.menuItems[id]? <;> rfl

theorem alone_findMenuItems {s : Stores} {Q : List MenuItem → Backend → UnitOfWork → Prop}
    {ids : List String} (h : o.Looked b.stores)
    (hQ : ∀ o', o'.Looked b.stores → Q (b.stores.menuItemsOf ids) b (some o')) :
    Alone s (findMenuItems ids) Q b (some o) := by
  obtain ⟨o', ho', hrun⟩ := run_findMenuItems ids h
  rw [Alone, hrun]
  exact hQ o' ho'

theorem alone_addLines {s : Stores} {u : UnitOfWork} {Q : Order → Backend → UnitOfWork → Prop}
    (order : Order) (lines : List OrderLine) (hs : b.stores = s)
    (hQ : ∀ order' ids', order.addAll b.ids lines = .ok (order', ids') →
      Q order' { b with ids := ids' } u) :
    Alone s (addLines order lines) Q b u := by
  induction lines generalizing order b with
  | nil => exact hQ order b.ids rfl
  | cons line rest ih =>
    rw [addLines, alone_bind, alone_nextId, alone_bind, alone_check]
    -- a line that is refused has taken an id, but nothing is stored
    cases hm : Money.of? line.unitPrice with
    | error e => exact hs
    | ok price =>
      simp only [alone_bind, alone_check]
      cases hq : Quantity.of? line.quantity with
      | error e => exact hs
      | ok quantity =>
        simp only
        cases hi : order.addItem b.ids.next.1 line.menuItemId line.name price quantity with
        | error e => exact hs
        | ok order₁ =>
          refine ih (b := { b with ids := b.ids.next.2 }) order₁ hs ?_
          intro order' ids' hall
          refine hQ order' ids' ?_
          rw [Order.addAll_cons rest hm hq hi]
          exact hall

/-! ## Handing events on -/

theorem Entry.create_ok {id : String} {event : DomainEvent} {aggregateId kind : String}
    {occurredAt : Instant} {entry : Entry}
    (h : Entry.create id event aggregateId kind occurredAt = .ok entry) :
    ∃ data, event.payload = .ok data ∧
      entry = ⟨id, event.name, data, aggregateId, kind, occurredAt, .pending, 0, {}, none, none,
        none⟩ := by
  have keep {field value t : String} (hr : Entry.requireField field value = .ok t) : t = value := by
    simp only [Entry.requireField] at hr
    split at hr
    · cases hr
      rfl
    · cases hr
  simp only [Entry.create] at h
  obtain ⟨id', hid, h⟩ := bind_ok h
  obtain ⟨aggregateId', hagg, h⟩ := bind_ok h
  obtain ⟨kind', hkind, h⟩ := bind_ok h
  obtain ⟨data, hdata, h⟩ := bind_ok h
  cases h
  obtain rfl := keep hid
  obtain rfl := keep hagg
  obtain rfl := keep hkind
  exact ⟨data, mapError_ok hdata, rfl⟩

theorem Entry.isNew_of_create {policy : RetryPolicy} {id : String} {event : DomainEvent}
    {aggregateId kind : String} {occurredAt : Instant} {entry entry' : Entry}
    (h : Entry.create id event aggregateId kind occurredAt = .ok entry)
    (h' : entry.withPolicy policy = .ok entry') :
    entry'.id = id ∧ Entry.IsNew policy aggregateId kind occurredAt event entry' := by
  obtain ⟨data, hdata, rfl⟩ := Entry.create_ok h
  have hnew : ¬ (EntryStatus.pending ≠ .pending ∨ (0 : UInt32) < 0) := by decide
  rw [Entry.withPolicy_eq, if_neg hnew] at h'
  cases h'
  exact ⟨rfl, ⟨rfl, hdata, rfl, rfl, rfl, rfl, rfl, rfl, rfl, rfl, rfl⟩⟩

/-- The entries that are staged have ids of their own. -/
theorem alone_stageEntries {s : Stores} {policy : RetryPolicy} {aggregateId kind : String}
    {occurredAt : Instant} {Q : Unit → Backend → UnitOfWork → Prop} (events : List DomainEvent)
    (hs : b.stores = s)
    (hQ : ∀ entries ids',
      List.Forall₂ (Entry.IsNew policy aggregateId kind occurredAt) events entries →
      (entries.map Entry.id).Nodup →
      (∀ e ∈ entries, ∀ old ∈ b.stores.outbox ++ o.outbox, e.id ≠ old.id) →
      Q () { b with ids := { b.ids with used := ids' } }
        (some { o with outbox := o.outbox ++ entries })) :
    Alone s (stageEntries policy aggregateId kind occurredAt events) Q b (some o) := by
  induction events generalizing b o with
  | nil =>
    -- nothing is staged, and the overlay is as it was
    have h := hQ [] b.ids.used .nil List.nodup_nil (by simp)
    simp only [List.append_nil] at h
    exact h
  | cons event rest ih =>
    rw [stageEntries, alone_bind, alone_nextId, alone_bind, alone_check]
    cases hc : Entry.create b.ids.next.1 event aggregateId kind occurredAt with
    | error e => exact hs
    | ok entry =>
      simp only [alone_bind, alone_check]
      cases hp : entry.withPolicy policy with
      | error e => exact hs
      | ok entry' =>
        obtain ⟨-, hnew⟩ := Entry.isNew_of_create hc hp
        simp only [alone_saveEntry]
        split
        · exact hs
        · rename_i hfree
          rw [Overlay.findEntry_eq_none_iff] at hfree
          refine ih hs ?_
          intro entries used hall hnodup hfresh
          have h := hQ (entry' :: entries) used (.cons hnew hall) ?_ ?_
          · rw [List.append_cons o.outbox] at h
            exact h
          · -- the entries that follow have found this one staged
            rw [List.map_cons, List.nodup_cons]
            refine ⟨?_, hnodup⟩
            intro hmem
            obtain ⟨e, he, heq⟩ := List.mem_map.mp hmem
            exact hfresh e he entry' (by simp) heq
          · intro e he old hold
            rcases List.mem_cons.mp he with rfl | he
            · exact (hfree old hold).symm
            · refine hfresh e he old ?_
              rw [← List.append_assoc]
              exact List.mem_append_left _ hold

/-- The events of an aggregate are staged, and its unit has touched no aggregate. -/
theorem alone_stageEvents {α : Type} [Aggregate α] {policy : RetryPolicy} (a : α)
    {Q : Nat × α → Backend → UnitOfWork → Prop}
    (hQ : ∀ entries used,
      List.Forall₂ (Entry.IsNew policy (Aggregate.id a) (Aggregate.kind α) b.clock)
        (Aggregate.events a) entries →
      (entries.map Entry.id).Nodup →
      (∀ e ∈ entries, ∀ old ∈ b.stores.outbox ++ o.outbox, e.id ≠ old.id) →
      Q ((Aggregate.events a).length, Aggregate.drained a) { b with ids := { b.ids with used } }
        (some { o with outbox := o.outbox ++ entries })) :
    Alone b.stores (stageEvents policy a) Q b (some o) := by
  rw [stageEvents, alone_bind, alone_now, alone_bind, alone_requireOpen, alone_bind]
  exact alone_stageEntries _ rfl fun entries used hall hnodup hfresh =>
    (alone_pure _).mpr (hQ entries used hall hnodup hfresh)

/-- What was looked up, or is looked up now, is no obstacle to a commit. -/
theorem StagedTable.Looked.save_conflict? {α : Type} [Aggregate α] {t : StagedTable α}
    {committed : Table (Versioned α)} (h : t.Looked committed) (a : α) :
    (t.save committed a).conflict? committed = none := by
  rw [conflict?_save_eq_none_iff h.staged]
  cases hv : t.observed[Aggregate.id a]? with
  | none => rfl
  | some v => exact h.observed hv

theorem alone_commitOrder {policy : RetryPolicy} {order : Order}
    {Q : Nat → Backend → UnitOfWork → Prop} (h : o.Looked b.stores)
    (hQ : ∀ b' u, Committed policy b.clock b.stores b'.stores order →
      b'.stores.menuItems = b.stores.menuItems →
      Q (Aggregate.events order).length b' u) :
    Alone b.stores (commitOrder policy order) Q b (some o) := by
  rw [commitOrder, alone_bind]
  refine alone_stageEvents order ?_
  intro entries used hall hnodup hfresh
  simp only [alone_bind, alone_saveOrder, alone_commit, alone_pure]
  have hnone : Overlay.conflict? {
      orders := o.orders.save b.stores.orders (Aggregate.drained order)
      menuItems := o.menuItems
      outbox := o.outbox ++ entries } b.stores = none :=
    Overlay.conflict?_eq_none_iff.mpr ⟨h.orders.save_conflict? _,
      StagedTable.conflict?_eq_none_of_empty h.menuItems.staged _⟩
  rw [hnone]
  refine hQ _ _ ⟨?_, rfl, ?_, entries, ?_, hall, hnodup, ?_⟩
    (StagedTable.merge_of_empty h.menuItems.staged _)
  · exact (StagedTable.getElem?_merge_save h.orders.staged _ _ _ _).trans (if_pos rfl)
  · intro id hid
    exact (StagedTable.getElem?_merge_save h.orders.staged _ _ _ _).trans (if_neg (Ne.symm hid))
  · simp [Overlay.merge, h.outbox]
  · intro e he old hold
    exact hfresh e he old (List.mem_append_left _ hold)

theorem alone_commitMenuItem {policy : RetryPolicy} {item : MenuItem}
    {Q : Nat → Backend → UnitOfWork → Prop} (h : o.Looked b.stores)
    (hQ : ∀ b' u, Committed policy b.clock b.stores b'.stores item →
      b'.stores.orders = b.stores.orders →
      Q (Aggregate.events item).length b' u) :
    Alone b.stores (commitMenuItem policy item) Q b (some o) := by
  rw [commitMenuItem, alone_bind]
  refine alone_stageEvents item ?_
  intro entries used hall hnodup hfresh
  simp only [alone_bind, alone_saveMenuItem, alone_commit, alone_pure]
  have hnone : Overlay.conflict? {
      orders := o.orders
      menuItems := o.menuItems.save b.stores.menuItems (Aggregate.drained item)
      outbox := o.outbox ++ entries } b.stores = none :=
    Overlay.conflict?_eq_none_iff.mpr ⟨StagedTable.conflict?_eq_none_of_empty h.orders.staged _,
      h.menuItems.save_conflict? _⟩
  rw [hnone]
  refine hQ _ _ ⟨?_, rfl, ?_, entries, ?_, hall, hnodup, ?_⟩
    (StagedTable.merge_of_empty h.orders.staged _)
  · exact (StagedTable.getElem?_merge_save h.menuItems.staged _ _ _ _).trans (if_pos rfl)
  · intro id hid
    exact (StagedTable.getElem?_merge_save h.menuItems.staged _ _ _ _).trans (if_neg (Ne.symm hid))
  · simp [Overlay.merge, h.outbox]
  · intro e he old hold
    exact hfresh e he old (List.mem_append_left _ hold)

/-! ## The work of a command -/

theorem alone_createMenuItem {id name : String} {amount : Decimal}
    {Q : MenuItem → Backend → UnitOfWork → Prop} (h : o.Looked b.stores)
    (hQ : ∀ item o', MenuItemChange b.stores (.createMenuItem id name amount) item →
      item.id = Text.trim id → o'.Looked b.stores → Q item b (some o')) :
    Alone b.stores (createMenuItem id name amount) Q b (some o) := by
  rw [createMenuItem, alone_bind, alone_findMenuItem, h.menuItems.find_eq]
  have ho : Overlay.Looked
      { o with menuItems := o.menuItems.observe b.stores.menuItems id } b.stores :=
    ⟨h.orders, h.menuItems.observe id, h.outbox⟩
  cases hv : b.stores.menuItems[id]? with
  | some v => rfl
  | none =>
    change Alone b.stores
      (do check .validation (MenuItem.create id name (← check .validation _))) Q b _
    rw [alone_bind, alone_check]
    cases hm : Money.of? amount with
    | error e => rfl
    | ok price =>
      simp only [alone_check]
      cases hi : MenuItem.create id name price with
      | error e => exact trivial
      | ok item =>
        exact hQ item _ (.created hv hm hi)
          (Text.trim_eq_of_required? (MenuItem.create_ok hi).1).symm ho

theorem alone_place {id : String} {number : Int} {lines : List OrderLine}
    {Q : Order → Backend → UnitOfWork → Prop} (h : o.Looked b.stores)
    (hQ : ∀ order ids' o', OrderChange b.stores b.ids (.placeOrder id number lines) order →
      order.id = Text.trim id → o'.Looked b.stores →
      Q order { b with ids := ids' } (some o')) :
    Alone b.stores (place id number lines) Q b (some o) := by
  rw [place]
  by_cases hne : lines = []
  · simp only [hne, if_true, alone_bind]
    rfl
  · simp only [hne, if_false, alone_bind, alone_findOrder, h.orders.find_eq]
    cases hv : b.stores.orders[id]? with
    | some v => rfl
    | none =>
      simp only [Option.map_none, Option.isSome_none, Bool.false_eq_true, if_false, alone_bind]
      refine alone_findMenuItems (o := { o with orders := o.orders.observe b.stores.orders id })
        ⟨h.orders.observe id, h.menuItems, h.outbox⟩ fun o' ho' => ?_
      rw [alone_check]
      cases ha : verifyAvailable (lines.map (·.menuItemId))
          (b.stores.menuItemsOf (lines.map (·.menuItemId))) with
      | error e => rfl
      | ok _ =>
        simp only [alone_check]
        cases ht : TableNumber.of? number with
        | error e => exact trivial
        | ok table =>
          simp only
          cases hp : Order.place id table with
          | error e => exact trivial
          | ok order =>
            refine alone_addLines order lines rfl ?_
            intro order' ids' hall
            have hid := Order.id_addAll hall
            exact hQ order' ids' o' (.placed hne hv ha ht hp hall)
              (hid.trans (Text.trim_eq_of_required? (Order.place_ok hp).1).symm) ho'

/-- A change of a committed menu item, which is never refused. -/
theorem alone_changeMenuItem {policy : RetryPolicy} (command : Command) (hs : b.stores.Settled)
    (h : o.Looked b.stores) (change : MenuItem → MenuItem)
    (keeps : ∀ item, (change item).id = item.id)
    (made : ∀ {v}, b.stores.menuItems[command.target]? = some v →
      MenuItemChange b.stores command (change v.value)) :
    Alone b.stores (do commitMenuItem policy (change (← loadMenuItem command.target)))
      (fun count b' _ => Accepts policy b command count b'.stores) b (some o) := by
  rw [alone_bind]
  refine alone_loadMenuItem h ?_
  intro v o' hv ho'
  obtain ⟨hid, hsettled⟩ := hs.menuItems hv
  refine alone_commitMenuItem ho' ?_
  intro b' u hc horders
  refine .menuItem (made hv) ?_ rfl hc horders
  rw [keeps, ← hid]
  exact (Text.trim_eq_of_required? hsettled.id).symm

/-- A change of a committed order, which may be refused. -/
theorem alone_changeOrder {policy : RetryPolicy} (command : Command) (hs : b.stores.Settled)
    (h : o.Looked b.stores) (change : Order → Except OrderError Order)
    (keeps : ∀ {order order'}, change order = .ok order' → order'.id = order.id)
    (made : ∀ {v order}, b.stores.orders[command.target]? = some v → change v.value = .ok order →
      OrderChange b.stores b.ids command order) :
    Alone b.stores (do commitOrder policy (← check .order (change (← loadOrder command.target))))
      (fun count b' _ => Accepts policy b command count b'.stores) b (some o) := by
  rw [alone_bind]
  refine alone_loadOrder h ?_
  intro v o' hv ho'
  obtain ⟨hid, hsettled⟩ := hs.orders hv
  rw [alone_bind, alone_check]
  cases hc : change v.value with
  | error e => rfl
  | ok order =>
    refine alone_commitOrder ho' ?_
    intro b' u hcommit hitems
    refine .order (made hv hc) ?_ rfl hcommit hitems
    rw [keeps hc, ← hid]
    exact (Text.trim_eq_of_required? hsettled.id).symm

/-- The work of a command, in a unit that has only looked things up, is refused and leaves the
stores as they are, or it commits what the command makes of them. -/
theorem alone_work (policy : RetryPolicy) (command : Command) (hs : b.stores.Settled)
    (h : o.Looked b.stores) :
    Alone b.stores (command.work policy)
      (fun count b' _ => Accepts policy b command count b'.stores) b (some o) := by
  cases command with
  | createMenuItem id name amount =>
    rw [Command.work, alone_bind]
    refine alone_createMenuItem h ?_
    intro item o' hchange hid ho'
    exact alone_commitMenuItem ho' fun b' u hc horders => .menuItem hchange hid rfl hc horders
  | placeOrder id number lines =>
    rw [Command.work, alone_bind]
    refine alone_place h ?_
    intro order ids' o' hchange hid ho'
    exact alone_commitOrder (b := { b with ids := ids' }) ho' fun b' u hc hitems =>
      .order hchange hid rfl hc hitems
  | markSoldOut id =>
    exact alone_changeMenuItem (.markSoldOut id) hs h _ MenuItem.id_markSoldOut .soldOut
  | markAvailable id =>
    exact alone_changeMenuItem (.markAvailable id) hs h _ MenuItem.id_markAvailable .available
  | markItemReady id itemId =>
    exact alone_changeOrder (.markItemReady id itemId) hs h _ Order.id_markItemReady .itemReady
  | cancelItem id itemId =>
    exact alone_changeOrder (.cancelItem id itemId) hs h _ Order.id_cancelItem .itemCancelled
  | completeOrder id =>
    exact alone_changeOrder (.completeOrder id) hs h _ Order.id_complete .completed
  | cancelOrder id =>
    exact alone_changeOrder (.cancelOrder id) hs h _ Order.id_cancel .cancelled

end Alone

/-! ## The scope of a command -/

/-- A program moves neither the clock nor the source of the ids. -/
theorem Program.run_inPlace {α : Type} (p : Program α) (b : Backend) (u : UnitOfWork) :
    (p.run b u).2.1.clock = b.clock ∧ (p.run b u).2.1.ids.text = b.ids.text := by
  induction p generalizing b u with
  | done a => exact ⟨rfl, rfl⟩
  | ask request next ih =>
    have hanswer : (request.answer b u).2.1.clock = b.clock ∧
        (request.answer b u).2.1.ids.text = b.ids.text := by
      cases request with
      | unit act => exact ⟨rfl, rfl⟩
      | now => exact ⟨rfl, rfl⟩
      | nextId => exact ⟨rfl, rfl⟩
    obtain ⟨hclock, htext⟩ := ih _ (request.answer b u).2.1 (request.answer b u).2.2
    exact ⟨hclock.trans hanswer.1, htext.trans hanswer.2⟩

/-- To close a unit, behind failed work or not, changes nothing that is shared and is not
refused. -/
theorem Program.run_close (failed : Bool) (b : Backend) (u : UnitOfWork) :
    (Program.close failed).run b u = (.ok (), b, none) := by
  cases failed with
  | false => rfl
  | true => cases u <;> rfl

/-- Work in a scope ends as it does in an open unit with nothing staged. -/
theorem Program.run_inScope {ε α : Type} (refusal : UnitOfWorkError → ε)
    (work : Program (Except ε α)) (b : Backend) :
    (Program.inScope refusal work).run b none =
      ((work.run b (some {})).1, (work.run b (some {})).2.1, none) := by
  change (work >>= _).run b (some {}) = _
  rw [Program.run_bind, Program.run_bind, Program.run_close]
  rfl

theorem Command.execute_eq (policy : RetryPolicy) (b : Backend) (command : Command) :
    command.execute policy b =
      (((command.work policy).run.run b (some {})).1,
        ((command.work policy).run.run b (some {})).2.1) := by
  rw [Command.execute, Command.handle, Program.run_inScope]

/-- A command that runs alone on settled stores is refused and leaves them, or it is accepted. -/
theorem Command.execute_spec (policy : RetryPolicy) {b : Backend} (command : Command)
    (hs : b.stores.Settled) :
    match command.execute policy b with
    | (.error _, b') => b'.stores = b.stores
    | (.ok count, b') => Accepts policy b command count b'.stores := by
  have h := alone_work policy command hs (Overlay.looked_empty b.stores)
  rw [Command.execute_eq]
  revert h
  rw [Alone]
  rcases (command.work policy).run.run b (some {}) with ⟨_ | count, b', u⟩
  · exact id
  · exact id

theorem Command.execute_inPlace (policy : RetryPolicy) (b : Backend) (command : Command) :
    (command.execute policy b).2.clock = b.clock ∧
      (command.execute policy b).2.ids.text = b.ids.text := by
  rw [Command.execute_eq]
  exact Program.run_inPlace _ b (some {})

end TableService
