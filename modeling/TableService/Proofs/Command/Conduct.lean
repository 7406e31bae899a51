import TableService.Proofs.Command.Outcome
import TableService.Proofs.Text.Trim

/-!
# How programs treat a law

Programs take turns over the same stores, so nothing is known of what a program finds but that it
was committed. A program may rely on the law for what it finds, and has to keep it for what it
saves.

- `Stores.Lawful`, `Overlay.Lawful`: the law holds of what is committed, and of what is staged.
- `Program.Lawful`: a program that saves by the law as long as it finds by the law.
- `perform_lawful`: an act by the law keeps the stores and the overlay lawful.
- `Command.handle_lawful`: every command keeps aggregates settled.
-/

namespace TableService

open UnitOfWork CommandM

variable {law : Law}

/-! ## Acts -/

/-- The law holds of what is staged, and each aggregate is staged under its own id. -/
structure Overlay.Lawful (law : Law) (o : Overlay) : Prop where
  orders {id : String} {order : Order} : o.orders.staged[id]? = some order →
    order.id = id ∧ law.order order
  menuItems {id : String} {item : MenuItem} : o.menuItems.staged[id]? = some item →
    item.id = id ∧ law.menuItem item

/-- What an act saves is by the law. -/
def UnitOfWork.Act.Lawful (law : Law) : Act → Prop
  | .saveOrder order => law.order order
  | .saveMenuItem item => law.menuItem item
  | _ => True

/-- What an act finds is by the law. -/
def UnitOfWork.Act.Reliable (law : Law) : (act : Act) → act.Reply → Prop
  | .findOrder id, reply => ∀ order, reply = .ok (some order) → order.id = id ∧ law.order order
  | .findMenuItem id, reply => ∀ item, reply = .ok (some item) → item.id = id ∧ law.menuItem item
  | _, _ => True

theorem Stores.lawful_empty : ({} : Stores).Lawful law where
  orders h := by simp at h
  menuItems h := by simp at h

theorem Overlay.lawful_empty : ({} : Overlay).Lawful law where
  orders h := by simp at h
  menuItems h := by simp at h

section Tables

variable {α : Type} [Aggregate α] {P : α → Prop} {t : StagedTable α} {table : Table (Versioned α)}

theorem StagedTable.lawful_merge
    (ht : ∀ {id : String} {a : α}, t.staged[id]? = some a → Aggregate.id a = id ∧ P a)
    (htable : ∀ {id : String} {v : Versioned α},
      table[id]? = some v → Aggregate.id v.value = id ∧ P v.value)
    {id : String} {v : Versioned α} (h : (t.merge table)[id]? = some v) :
    Aggregate.id v.value = id ∧ P v.value := by
  rw [getElem?_merge] at h
  cases hs : t.staged[id]? with
  | some a =>
    rw [hs] at h
    cases h
    exact ht hs
  | none =>
    rw [hs] at h
    exact htable h

theorem StagedTable.lawful_find
    (ht : ∀ {id : String} {a : α}, t.staged[id]? = some a → Aggregate.id a = id ∧ P a)
    (htable : ∀ {id : String} {v : Versioned α},
      table[id]? = some v → Aggregate.id v.value = id ∧ P v.value)
    {id : String} {a : α} (h : (t.find table id).1 = some a) : Aggregate.id a = id ∧ P a := by
  rw [find] at h
  cases hs : t.staged[id]? with
  | some a' =>
    rw [hs] at h
    cases h
    exact ht hs
  | none =>
    rw [hs] at h
    obtain ⟨v, hv, rfl⟩ := Option.map_eq_some_iff.mp h
    exact htable hv

theorem StagedTable.lawful_save
    (ht : ∀ {id : String} {a : α}, t.staged[id]? = some a → Aggregate.id a = id ∧ P a) {a : α}
    (ha : P a) {id : String} {a' : α} (h : (t.save table a).staged[id]? = some a') :
    Aggregate.id a' = id ∧ P a' := by
  simp only [save, staged_observe, Std.ExtTreeMap.getElem?_insert,
    Std.LawfulEqCmp.compare_eq_iff_eq] at h
  split at h
  · rename_i hid
    cases h
    exact ⟨hid, ha⟩
  · exact ht h

end Tables

/-- A closed unit finds nothing, and an overlay that is opened is empty. -/
theorem perform_lawful_closed {s : Stores} {act : Act} (hs : s.Lawful law) :
    (perform s none act).2.1.Lawful law ∧
      (∀ o, (perform s none act).2.2 = some o → o.Lawful law) ∧
      act.Reliable law (perform s none act).1 := by
  have hreply : act.Reliable law (perform s none act).1 := by
    cases act with
    | findOrder id => exact fun order h => by cases h
    | findMenuItem id => exact fun item h => by cases h
    | _ => trivial
  rcases perform_none s act with h | ⟨rfl, h⟩
  · rw [h]
    exact ⟨hs, nofun, hreply⟩
  · rw [h]
    refine ⟨hs, ?_, hreply⟩
    intro o ho
    cases ho
    exact Overlay.lawful_empty

theorem perform_lawful_open {s : Stores} {o : Overlay} {act : Act} (hs : s.Lawful law)
    (ho : o.Lawful law) (hact : act.Lawful law) :
    (perform s (some o) act).2.1.Lawful law ∧
      (∀ o', (perform s (some o) act).2.2 = some o' → o'.Lawful law) ∧
      act.Reliable law (perform s (some o) act).1 := by
  have keeps {o' : Overlay} (h : o'.Lawful law) : ∀ o'', some o' = some o'' → o''.Lawful law :=
    fun o'' h' => Option.some.inj h' ▸ h
  cases act with
  | exit => exact ⟨hs, nofun, trivial⟩
  | rollback => exact ⟨hs, keeps Overlay.lawful_empty, trivial⟩
  | commit =>
    -- what is staged by the law is stored by the law
    simp only [perform]
    split
    · exact ⟨hs, keeps ho, trivial⟩
    · refine ⟨⟨?_, ?_⟩, keeps Overlay.lawful_empty, trivial⟩
      · exact StagedTable.lawful_merge ho.orders hs.orders
      · exact StagedTable.lawful_merge ho.menuItems hs.menuItems
  | findOrder id =>
    -- what is found was staged or is committed, so it can be relied on
    refine ⟨hs, keeps ⟨?_, ho.menuItems⟩, fun order h => ?_⟩
    · intro id' order h
      change (o.orders.find s.orders id).2.staged[id']? = some order at h
      rw [StagedTable.staged_find] at h
      exact ho.orders h
    · exact StagedTable.lawful_find ho.orders hs.orders (Except.ok.inj h)
  | findMenuItem id =>
    refine ⟨hs, keeps ⟨ho.orders, ?_⟩, fun item h => ?_⟩
    · intro id' item h
      change (o.menuItems.find s.menuItems id).2.staged[id']? = some item at h
      rw [StagedTable.staged_find] at h
      exact ho.menuItems h
    · exact StagedTable.lawful_find ho.menuItems hs.menuItems (Except.ok.inj h)
  | saveOrder order =>
    exact ⟨hs, keeps ⟨StagedTable.lawful_save ho.orders hact, ho.menuItems⟩, trivial⟩
  | saveMenuItem item =>
    exact ⟨hs, keeps ⟨ho.orders, StagedTable.lawful_save ho.menuItems hact⟩, trivial⟩
  | saveEntry entry =>
    obtain ⟨o', h, horders, hitems⟩ := Overlay.perform_saveEntry s o entry
    rw [h]
    exact ⟨hs, keeps ⟨horders ▸ ho.orders, hitems ▸ ho.menuItems⟩, trivial⟩
  | _ => exact ⟨hs, keeps ho, trivial⟩

/-- An act by the law keeps the stores and the unit lawful, and what it finds can be relied on. -/
theorem perform_lawful {s : Stores} {u : UnitOfWork} {act : Act} (hs : s.Lawful law)
    (hu : ∀ o, u = some o → o.Lawful law) (hact : act.Lawful law) :
    (perform s u act).2.1.Lawful law ∧ (∀ o, (perform s u act).2.2 = some o → o.Lawful law) ∧
      act.Reliable law (perform s u act).1 := by
  cases u with
  | none => exact perform_lawful_closed hs
  | some o => exact perform_lawful_open hs (hu o rfl) hact

/-! ## Programs -/

/-- Only what a unit saves is under the law. -/
def Request.Lawful (law : Law) : Request → Prop
  | .unit act => act.Lawful law
  | _ => True

/-- What can be relied on in a reply, given that the law has been kept so far. -/
def Request.Reliable (law : Law) : (r : Request) → r.Reply → Prop
  | .unit act, reply => act.Reliable law reply
  | _, _ => True

/-- As long as what it finds can be relied on, a program saves by the law, and `Q` holds of its
value. -/
def Program.Lawful {α : Type} (law : Law) (Q : α → Prop) : Program α → Prop
  | done a => Q a
  | ask r next => r.Lawful law ∧ ∀ reply, r.Reliable law reply → (next reply).Lawful law Q

theorem Program.lawful_bind {α β : Type} {Q : β → Prop} (p : Program α) (f : α → Program β) :
    (p >>= f).Lawful law Q ↔ p.Lawful law fun a => (f a).Lawful law Q := by
  show (p.bind f).Lawful law Q ↔ _
  induction p with
  | done a => rfl
  | ask r next ih =>
    constructor
    · rintro ⟨hr, hnext⟩
      exact ⟨hr, fun reply h => (ih reply).mp (hnext reply h)⟩
    · rintro ⟨hr, hnext⟩
      exact ⟨hr, fun reply h => (ih reply).mpr (hnext reply h)⟩

theorem Program.Lawful.mono {α : Type} {Q R : α → Prop} {p : Program α} (h : p.Lawful law Q)
    (hQ : ∀ a, Q a → R a) : p.Lawful law R := by
  induction p with
  | done a => exact hQ a h
  | ask r next ih => exact ⟨h.1, fun reply hr => ih reply (h.2 reply hr)⟩

/-- Stores that were by the law are so when a program that keeps it has run. -/
theorem Program.Lawful.run {α : Type} {Q : α → Prop} {p : Program α} {b : Backend} {u : UnitOfWork}
    (h : p.Lawful law Q) (hb : b.stores.Lawful law) (hu : ∀ o, u = some o → o.Lawful law) :
    (p.run b u).2.1.stores.Lawful law := by
  induction p generalizing b u with
  | done a => exact hb
  | ask request next ih =>
    cases request with
    | unit act =>
      obtain ⟨hs, ho, hreply⟩ := perform_lawful hb hu h.1
      exact ih _ (h.2 _ hreply) hs ho
    | now => exact ih _ (h.2 _ trivial) hb hu
    | nextId => exact ih _ (h.2 _ trivial) hb hu

namespace CommandM

variable {α β : Type}

/-- A part of a command that keeps the law, and has a value with `Q` unless it is refused. -/
structure Lawful (law : Law) (m : CommandM α) (Q : α → Prop) : Prop where
  program : Program.Lawful law (fun r : Except CommandError α => ∀ a, r = .ok a → Q a) m.run

theorem lawful_pure {Q : α → Prop} {a : α} (h : Q a) : Lawful law (pure a) Q where
  program a' ha := by
    cases ha
    exact h

theorem lawful_throw {Q : α → Prop} (e : CommandError) : Lawful law (throw e : CommandM α) Q where
  program a ha := by cases ha

theorem lawful_bind {Q : β → Prop} {m : CommandM α} {f : α → CommandM β}
    (h : Lawful law m fun a => Lawful law (f a) Q) : Lawful law (m >>= f) Q where
  program := by
    rw [ExceptT.run_bind, Program.lawful_bind]
    refine h.program.mono ?_
    intro r hr
    cases r with
    | error e => exact fun a ha => by cases ha
    | ok a => exact (hr a rfl).program

theorem Lawful.mono {Q R : α → Prop} {m : CommandM α} (h : Lawful law m Q) (hQ : ∀ a, Q a → R a) :
    Lawful law m R where
  program := h.program.mono fun _ hr a ha => hQ a (hr a ha)

theorem lawful_check {ε : Type} {Q : α → Prop} (refusal : ε → CommandError) {r : Except ε α}
    (h : ∀ a, r = .ok a → Q a) : Lawful law (check refusal r) Q where
  program a ha := h a (mapError_ok ha)

theorem lawful_lift {Q : α → Prop} {p : Program α} (h : p.Lawful law Q) :
    Lawful law (ExceptT.lift p) Q where
  program := by
    show Program.Lawful law _ (p >>= fun a => .done (Except.ok a : Except CommandError α))
    rw [Program.lawful_bind]
    refine h.mono ?_
    intro a ha a' ha'
    cases ha'
    exact ha

/-- A request that only an open unit grants. -/
theorem lawful_ofUnit {Q : α → Prop} {p : Program (Within α)}
    (h : p.Lawful law fun r => ∀ a, r = .ok a → Q a) : Lawful law (ofUnit p) Q :=
  lawful_bind ((lawful_lift h).mono fun _ hr => lawful_check _ hr)

/-! ## Requests -/

theorem lawful_now : Lawful law now fun _ => True :=
  lawful_lift ⟨trivial, fun _ _ => trivial⟩

theorem lawful_nextId : Lawful law nextId fun _ => True :=
  lawful_lift ⟨trivial, fun _ _ => trivial⟩

theorem lawful_requireOpen : Lawful law requireOpen fun _ => True := by
  have hask : Lawful law (ExceptT.lift (Program.request (.unit .isOpen))) fun _ => True :=
    lawful_lift ⟨trivial, fun _ _ => trivial⟩
  refine lawful_bind (hask.mono ?_)
  rintro (_ | _) -
  · exact lawful_throw _
  · exact lawful_pure trivial

theorem lawful_findOrder (id : String) :
    Lawful law (findOrder id) fun found =>
      ∀ order, found = some order → order.id = id ∧ law.order order :=
  lawful_ofUnit ⟨trivial, fun _ h _ hr order hf => h order (hr.trans (congrArg _ hf))⟩

theorem lawful_findMenuItem (id : String) :
    Lawful law (findMenuItem id) fun found =>
      ∀ item, found = some item → item.id = id ∧ law.menuItem item :=
  lawful_ofUnit ⟨trivial, fun _ h _ hr item hf => h item (hr.trans (congrArg _ hf))⟩

theorem lawful_saveOrder {order : Order} (h : law.order order) :
    Lawful law (saveOrder order) fun _ => True :=
  lawful_ofUnit ⟨h, fun _ _ _ _ => trivial⟩

theorem lawful_saveMenuItem {item : MenuItem} (h : law.menuItem item) :
    Lawful law (saveMenuItem item) fun _ => True :=
  lawful_ofUnit ⟨h, fun _ _ _ _ => trivial⟩

theorem lawful_saveEntry (entry : Entry) : Lawful law (saveEntry entry) fun _ => True := by
  have hask : Lawful law (ofUnit (Program.request (.unit (.saveEntry entry)))) fun _ => True :=
    lawful_ofUnit ⟨trivial, fun _ _ _ _ => trivial⟩
  exact lawful_bind (hask.mono fun r _ => lawful_check _ fun _ _ => trivial)

theorem lawful_commit : Lawful law commit fun _ => True :=
  lawful_ofUnit ⟨trivial, fun _ _ _ _ => trivial⟩

end CommandM

/-! ## Parts of commands -/

theorem lawful_stageEntries (policy : RetryPolicy) (aggregateId kind : String)
    (occurredAt : Instant) (events : List DomainEvent) :
    Lawful law (stageEntries policy aggregateId kind occurredAt events) fun _ => True := by
  induction events with
  | nil => exact lawful_pure trivial
  | cons event rest ih =>
    refine lawful_bind (lawful_nextId.mono fun id _ => ?_)
    refine lawful_bind (lawful_check _ fun entry _ => ?_)
    refine lawful_bind (lawful_check _ fun entry _ => ?_)
    exact lawful_bind ((lawful_saveEntry entry).mono fun _ _ => ih)

theorem lawful_stageEvents {α : Type} [Aggregate α] (policy : RetryPolicy) (a : α) :
    Lawful law (stageEvents policy a) fun r => r.2 = Aggregate.drained a := by
  unfold stageEvents
  refine lawful_bind (lawful_now.mono fun t _ => ?_)
  refine lawful_bind (lawful_requireOpen.mono fun _ _ => ?_)
  exact lawful_bind ((lawful_stageEntries ..).mono fun _ _ => lawful_pure rfl)

theorem lawful_commitOrder (policy : RetryPolicy) {order : Order}
    (h : law.order (Aggregate.drained order)) :
    Lawful law (commitOrder policy order) fun _ => True := by
  refine lawful_bind ((lawful_stageEvents policy order).mono ?_)
  rintro ⟨count, _⟩ rfl
  refine lawful_bind ((lawful_saveOrder h).mono fun _ _ => ?_)
  exact lawful_bind (lawful_commit.mono fun _ _ => lawful_pure trivial)

theorem lawful_commitMenuItem (policy : RetryPolicy) {item : MenuItem}
    (h : law.menuItem (Aggregate.drained item)) :
    Lawful law (commitMenuItem policy item) fun _ => True := by
  refine lawful_bind ((lawful_stageEvents policy item).mono ?_)
  rintro ⟨count, _⟩ rfl
  refine lawful_bind ((lawful_saveMenuItem h).mono fun _ _ => ?_)
  exact lawful_bind (lawful_commit.mono fun _ _ => lawful_pure trivial)

theorem lawful_loadOrder (id : String) :
    Lawful law (loadOrder id) fun order => order.id = id ∧ law.order order := by
  refine lawful_bind ((lawful_findOrder id).mono fun found hfound => ?_)
  cases found with
  | none => exact lawful_throw _
  | some order => exact lawful_pure (hfound order rfl)

theorem lawful_loadMenuItem (id : String) :
    Lawful law (loadMenuItem id) fun item => item.id = id ∧ law.menuItem item := by
  refine lawful_bind ((lawful_findMenuItem id).mono fun found hfound => ?_)
  cases found with
  | none => exact lawful_throw _
  | some item => exact lawful_pure (hfound item rfl)

/-- Of the menu items that were asked for, each that is found is by the law. -/
theorem lawful_findMenuItems (ids : List String) :
    Lawful law (findMenuItems ids) fun items =>
      ∀ item ∈ items, item.id ∈ ids ∧ law.menuItem item := by
  induction ids with
  | nil => exact lawful_pure nofun
  | cons id rest ih =>
    refine lawful_bind ((lawful_findMenuItem id).mono fun found hfound => ?_)
    refine lawful_bind (ih.mono fun items hitems => lawful_pure ?_)
    intro item hitem
    rcases List.mem_append.mp hitem with h | h
    · obtain ⟨hid, hlaw⟩ := hfound item (Option.mem_toList.mp h)
      exact ⟨hid ▸ List.mem_cons_self, hlaw⟩
    · exact ⟨List.mem_cons_of_mem _ (hitems item h).1, (hitems item h).2⟩

/-- What is kept by every item that is added holds of an order with all its lines. -/
theorem lawful_addLines {P : Order → Prop}
    (hadd : ∀ {order order' : Order} {id : String} {line : OrderLine} {price : Money}
      {quantity : Quantity}, P order →
      order.addItem id line.menuItemId line.name price quantity = .ok order' → P order')
    {order : Order} (h : P order) (lines : List OrderLine) :
    Lawful law (addLines order lines) P := by
  induction lines generalizing order with
  | nil => exact lawful_pure h
  | cons line rest ih =>
    refine lawful_bind (lawful_nextId.mono fun id _ => ?_)
    refine lawful_bind (lawful_check _ fun price _ => ?_)
    refine lawful_bind (lawful_check _ fun quantity _ => ?_)
    exact lawful_bind (lawful_check _ fun order' hi => ih (hadd h hi))

/-! ## Commands -/

/-- The law holds of what is made, and of what comes of a lawful aggregate, once its events are
handed on. -/
structure Law.Kept (law : Law) : Prop where
  create {id name : String} {price : Money} {item : MenuItem} :
    MenuItem.create id name price = .ok item → law.menuItem item.drained
  markSoldOut {item : MenuItem} : law.menuItem item → law.menuItem item.markSoldOut.drained
  markAvailable {item : MenuItem} : law.menuItem item → law.menuItem item.markAvailable.drained
  place {id : String} {table : TableNumber} {order : Order} :
    Order.place id table = .ok order → law.order order.drained
  addItem {order order' : Order} {id : String} {line : OrderLine} {price : Money}
    {quantity : Quantity} : law.order order.drained →
    order.addItem id line.menuItemId line.name price quantity = .ok order' →
      law.order order'.drained
  markItemReady {order order' : Order} {itemId : String} : law.order order →
    order.markItemReady itemId = .ok order' → law.order order'.drained
  cancelItem {order order' : Order} {itemId : String} : law.order order →
    order.cancelItem itemId = .ok order' → law.order order'.drained
  complete {order order' : Order} : law.order order → order.complete = .ok order' →
    law.order order'.drained
  cancel {order order' : Order} : law.order order → order.cancel = .ok order' →
    law.order order'.drained

theorem lawful_createMenuItem (hk : law.Kept) (id name : String) (amount : Decimal) :
    Lawful law (createMenuItem id name amount) fun item => law.menuItem item.drained := by
  refine lawful_bind ((lawful_findMenuItem id).mono fun found _ => ?_)
  have hmake : Lawful law
      (do check .validation (MenuItem.create id name (← check .validation (Money.of? amount))))
      fun item => law.menuItem item.drained :=
    lawful_bind (lawful_check _ fun price _ => lawful_check _ fun item h => hk.create h)
  cases found with
  | none => exact hmake
  | some _ => exact lawful_bind (lawful_throw _)

theorem lawful_place (hk : law.Kept) (id : String) (number : Int) (lines : List OrderLine) :
    Lawful law (place id number lines) fun order => law.order order.drained := by
  rw [place]
  split
  · exact lawful_bind (lawful_throw _)
  · refine lawful_bind ((lawful_findOrder id).mono fun found _ => ?_)
    cases found with
    | some _ => exact lawful_bind (lawful_throw _)
    | none =>
      refine lawful_bind ((lawful_findMenuItems _).mono fun items _ => ?_)
      refine lawful_bind (lawful_check _ fun _ _ => ?_)
      refine lawful_bind (lawful_check _ fun table _ => ?_)
      refine lawful_bind (lawful_check _ fun order h => ?_)
      exact lawful_addLines hk.addItem (hk.place h) lines

/-- A change of a menu item that was found. -/
theorem lawful_changeMenuItem (policy : RetryPolicy) (id : String) {change : MenuItem → MenuItem}
    (hchange : ∀ {item}, law.menuItem item → law.menuItem (change item).drained) :
    Lawful law (do commitMenuItem policy (change (← loadMenuItem id))) fun _ => True :=
  lawful_bind ((lawful_loadMenuItem id).mono fun _ h => lawful_commitMenuItem policy (hchange h.2))

/-- A change of an order that was found. -/
theorem lawful_changeOrder (policy : RetryPolicy) (id : String)
    {change : Order → Except OrderError Order}
    (hchange : ∀ {order order'}, law.order order → change order = .ok order' →
      law.order order'.drained) :
    Lawful law (do commitOrder policy (← check .order (change (← loadOrder id)))) fun _ => True :=
  lawful_bind ((lawful_loadOrder id).mono fun _ h =>
    lawful_bind (lawful_check _ fun _ hc => lawful_commitOrder policy (hchange h.2 hc)))

theorem Command.work_lawful (hk : law.Kept) (policy : RetryPolicy) (command : Command) :
    Lawful law (command.work policy) fun _ => True := by
  cases command with
  | createMenuItem id name amount =>
    refine lawful_bind ((lawful_createMenuItem hk id name amount).mono fun item h => ?_)
    exact lawful_commitMenuItem policy h
  | placeOrder id number lines =>
    refine lawful_bind ((lawful_place hk id number lines).mono fun order h => ?_)
    exact lawful_commitOrder policy h
  | markSoldOut id => exact lawful_changeMenuItem policy id hk.markSoldOut
  | markAvailable id => exact lawful_changeMenuItem policy id hk.markAvailable
  | markItemReady id itemId => exact lawful_changeOrder policy id hk.markItemReady
  | cancelItem id itemId => exact lawful_changeOrder policy id hk.cancelItem
  | completeOrder id => exact lawful_changeOrder policy id hk.complete
  | cancelOrder id => exact lawful_changeOrder policy id hk.cancel

theorem Program.lawful_close (failed : Bool) :
    (Program.close failed).Lawful law fun _ => True := by
  cases failed with
  | false => exact ⟨trivial, fun _ _ => trivial⟩
  | true =>
    refine ⟨trivial, fun opened _ => ?_⟩
    cases opened with
    | false => exact ⟨trivial, fun _ _ => trivial⟩
    | true =>
      refine ⟨trivial, fun reply _ => ?_⟩
      cases reply with
      | error e => trivial
      | ok _ => exact ⟨trivial, fun _ _ => trivial⟩

theorem Program.lawful_inScope {ε α : Type} (refusal : UnitOfWorkError → ε)
    {work : Program (Except ε α)} (h : work.Lawful law fun _ => True) :
    (Program.inScope refusal work).Lawful law fun _ => True := by
  refine ⟨trivial, fun reply _ => ?_⟩
  cases reply with
  | error e => trivial
  | ok _ =>
    change (work >>= _).Lawful law fun _ => True
    rw [lawful_bind]
    refine h.mono ?_
    intro result _
    rw [lawful_bind]
    refine (lawful_close _).mono fun ended _ => ?_
    cases ended with
    | error e => trivial
    | ok _ => trivial

/-- A command keeps the law, whatever else goes on between its requests. -/
theorem Command.handle_lawful (hk : law.Kept) (policy : RetryPolicy) (command : Command) :
    (command.handle policy).Lawful law fun _ => True :=
  Program.lawful_inScope _ ((work_lawful hk policy command).program.mono fun _ _ => trivial)

theorem Command.execute_lawful (hk : law.Kept) (policy : RetryPolicy) {b : Backend}
    (command : Command) (hb : b.stores.Lawful law) :
    (command.execute policy b).2.stores.Lawful law :=
  (command.handle_lawful hk policy).run (u := none) hb fun o ho => by cases ho

theorem Settled.drained_order {order order' : Order} (h : Settled order)
    (hid : order'.id = order.id) : Settled order'.drained where
  id := by
    show Text.required? order'.id = some order'.id
    rw [hid]
    exact h.id
  events := rfl

theorem Settled.drained_menuItem {item item' : MenuItem} (h : Settled item)
    (hid : item'.id = item.id) : Settled item'.drained where
  id := by
    show Text.required? item'.id = some item'.id
    rw [hid]
    exact h.id
  events := rfl

/-- Aggregates are left at rest by every command. -/
theorem Law.settled_kept : Law.settled.Kept where
  create h := ⟨Text.required?_of_required? (MenuItem.create_ok h).1, rfl⟩
  markSoldOut {item} h := Settled.drained_menuItem h (MenuItem.id_markSoldOut item)
  markAvailable {item} h := Settled.drained_menuItem h (MenuItem.id_markAvailable item)
  place h := ⟨Text.required?_of_required? (Order.place_ok h).1, rfl⟩
  addItem h hadd := Settled.drained_order h ((Order.id_addItem hadd).trans rfl)
  markItemReady h hready := Settled.drained_order h (Order.id_markItemReady hready)
  cancelItem h hcancel := Settled.drained_order h (Order.id_cancelItem hcancel)
  complete h hcomplete := Settled.drained_order h (Order.id_complete hcomplete)
  cancel h hcancel := Settled.drained_order h (Order.id_cancel hcancel)

end TableService
