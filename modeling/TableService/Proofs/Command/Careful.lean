import TableService.Proofs.Command.Once
import TableService.Proofs.Command.Reread

/-!
# Commands that touch one aggregate

- `Program.Careful`: a program that reads the time once, stages entries under ids of its own, and
  has staged every key that it has touched when it commits. Behind the commit it only closes its
  unit.
- `CommandM.Stages`: what such a program does before its commit. `stages_bind` and one lemma for
  each request take a command apart.
- `Command.handle_careful`: every command but the placing of an order is careful.
-/

namespace TableService

open UnitOfWork

namespace Program

variable {α β ε : Type}

/-- A program that does nothing but close its unit of work, and ends with `a`. -/
def Closes (a : α) : Program α → Prop
  | done b => b = a
  | ask r next => (∃ act, r = .unit act ∧ act ≠ .commit) ∧ ∀ reply, (next reply).Closes a

/-- The program is refused, and does not commit. -/
abbrev Refused (p : Program (Except ε α)) : Prop := p.Quiet fun result => result.isOk = false

/-- What is left of a program that has been given these ids and this time. -/
inductive Careful : List String → Option Instant → UnitOfWork → Program (Except ε α) → Prop where
  | refused {ids : List String} {time : Option Instant} {u : UnitOfWork}
      {p : Program (Except ε α)} (rest : p.Refused) : Careful ids time u p
  | now {ids : List String} {u : UnitOfWork} {next : Instant → Program (Except ε α)}
      (rest : ∀ t, Careful ids (some t) u (next t)) : Careful ids none u (.ask .now next)
  | nextId {ids : List String} {time : Option Instant} {u : UnitOfWork}
      {next : String → Program (Except ε α)}
      (rest : ∀ id, Careful (ids ++ [id]) time u (next id)) :
      Careful ids time u (.ask .nextId next)
  | act {ids : List String} {time : Option Instant} {u : UnitOfWork} {act : Act}
      {next : act.Reply → Program (Except ε α)} (steady : act.isSteady = true)
      (own : ∀ e, act = .saveEntry e → e.id ∈ ids)
      (rest : ∀ s : Stores, s.Settled →
        Careful ids time (perform s u act).2.2 (next (perform s u act).1)) :
      Careful ids time u (.ask (.unit act) next)
  | commit {ids : List String} {t : Instant} {o : Overlay}
      {next : Within Unit → Program (Except ε α)} (covered : o.Covered) {a : α}
      (accepted : (next (.ok ())).Closes (.ok a)) (rest : ∀ e, (next (.error e)).Refused) :
      Careful ids (some t) (some o) (.ask (.unit .commit) next)

theorem bind_assoc {γ : Type} (p : Program α) (f : α → Program β) (g : β → Program γ) :
    p >>= f >>= g = p >>= fun a => f a >>= g := by
  change (p.bind f).bind g = p.bind fun a => (f a).bind g
  induction p with
  | done a => rfl
  | ask r next ih => exact congrArg (ask r) (funext ih)

/-- To close a unit changes nothing that is shared. -/
theorem Closes.run {a : α} {p : Program α} (h : p.Closes a) (b : Backend) (u : UnitOfWork) :
    (p.run b u).1 = a ∧ (p.run b u).2.1 = b := by
  induction p generalizing b u with
  | done a' => exact ⟨h, rfl⟩
  | ask r next ih =>
    obtain ⟨⟨act, rfl, hne⟩, hrest⟩ := h
    have hstores : ((Request.unit act).answer b u).2.1 = b := by
      rcases stores_perform b.stores u act with hsame | ⟨hcommit, -⟩
      · exact congrArg (fun stores => { b with stores }) hsame
      · exact absurd hcommit hne
    obtain ⟨hresult, hshared⟩ := ih ((Request.unit act).answer b u).1 (hrest _)
      ((Request.unit act).answer b u).2.1 ((Request.unit act).answer b u).2.2
    exact ⟨hresult, hshared.trans hstores⟩

end Program

namespace CommandM

open Program

variable {α β : Type} {ids : List String} {time : Option Instant} {u : UnitOfWork} {o : Overlay}

/-- What a command does before its commit: whatever goes on carefully from `Q`, and is refused if
this part is, is careful as a whole. -/
def Stages (m : CommandM α) (Q : α → List String → Option Instant → UnitOfWork → Prop)
    (ids : List String) (time : Option Instant) (u : UnitOfWork) : Prop :=
  ∀ f : Except CommandError α → Program (Except CommandError Nat),
    (∀ a ids time u, Q a ids time u → (f (.ok a)).Careful ids time u) →
      (∀ e, (f (.error e)).Refused) → (m.run >>= f).Careful ids time u

/-- What a command does up to its end, if it only closes its unit then. -/
def Finishes (m : CommandM Nat) (ids : List String) (time : Option Instant)
    (u : UnitOfWork) : Prop :=
  ∀ f : Except CommandError Nat → Program (Except CommandError Nat),
    (∀ count, (f (.ok count)).Closes (.ok count)) → (∀ e, (f (.error e)).Refused) →
      (m.run >>= f).Careful ids time u

theorem run_bind_eq {γ : Type} (m : CommandM α) (g : α → CommandM β)
    (f : Except CommandError β → Program γ) :
    (m >>= g).run >>= f = m.run >>= fun
      | .ok a => (g a).run >>= f
      | .error e => f (.error e) := by
  rw [ExceptT.run_bind, Program.bind_assoc]
  refine congrArg (m.run >>= ·) (funext fun r => ?_)
  cases r <;> rfl

theorem stages_pure {Q : α → List String → Option Instant → UnitOfWork → Prop} {a : α}
    (h : Q a ids time u) : Stages (pure a) Q ids time u := fun _ hf _ => hf a _ _ _ h

theorem stages_throw {Q : α → List String → Option Instant → UnitOfWork → Prop}
    (e : CommandError) : Stages (throw e : CommandM α) Q ids time u := fun _ _ hf => .refused (hf e)

theorem stages_check {ε : Type} {Q : α → List String → Option Instant → UnitOfWork → Prop}
    (refusal : ε → CommandError) {r : Except ε α} (h : ∀ a, r = .ok a → Q a ids time u) :
    Stages (check refusal r) Q ids time u := by
  intro f hok herror
  cases r with
  | ok a => exact hok a _ _ _ (h a rfl)
  | error e => exact .refused (herror _)

theorem stages_bind {Q : β → List String → Option Instant → UnitOfWork → Prop} {m : CommandM α}
    {g : α → CommandM β}
    (h : Stages m (fun a ids time u => Stages (g a) Q ids time u) ids time u) :
    Stages (m >>= g) Q ids time u := by
  intro f hok herror
  rw [run_bind_eq]
  exact h _ (fun a ids time u ha => ha f hok herror) herror

theorem finishes_bind {m : CommandM α} {g : α → CommandM Nat}
    (h : Stages m (fun a ids time u => Finishes (g a) ids time u) ids time u) :
    Finishes (m >>= g) ids time u := by
  intro f hok herror
  rw [run_bind_eq]
  exact h _ (fun a ids time u ha => ha f hok herror) herror

theorem Stages.mono {Q R : α → List String → Option Instant → UnitOfWork → Prop} {m : CommandM α}
    (h : Stages m Q ids time u) (hQ : ∀ a ids time u, Q a ids time u → R a ids time u) :
    Stages m R ids time u :=
  fun f hok herror => h f (fun a ids time u ha => hok a ids time u (hQ a ids time u ha)) herror

/-! ## Requests -/

theorem stages_now {Q : Instant → List String → Option Instant → UnitOfWork → Prop}
    (h : ∀ t, Q t ids (some t) u) : Stages now Q ids none u :=
  fun _ hok _ => .now fun t => hok t _ _ _ (h t)

theorem stages_nextId {Q : String → List String → Option Instant → UnitOfWork → Prop}
    (h : ∀ id, Q id (ids ++ [id]) time u) : Stages nextId Q ids time u :=
  fun _ hok _ => .nextId fun id => hok id _ _ _ (h id)

theorem stages_requireOpen {Q : Unit → List String → Option Instant → UnitOfWork → Prop}
    (h : Q () ids time (some o)) : Stages requireOpen Q ids time (some o) :=
  fun _ hok _ => .act rfl (fun _ he => by cases he) fun _ _ => hok () _ _ _ h

/-- A single act of the unit. -/
theorem stages_act {act : Act} {Q : act.Reply → List String → Option Instant → UnitOfWork → Prop}
    (hsteady : act.isSteady = true) (hown : ∀ e, act = .saveEntry e → e.id ∈ ids)
    (h : ∀ s : Stores, s.Settled → Q (perform s u act).1 ids time (perform s u act).2.2) :
    Stages (ExceptT.lift (Program.request (.unit act))) Q ids time u :=
  fun _ hok _ => .act hsteady hown fun s hs => hok _ _ _ _ (h s hs)

theorem stages_ofUnit {p : Program (Within α)}
    {Q : α → List String → Option Instant → UnitOfWork → Prop}
    (h : Stages (ExceptT.lift p) (fun r ids time u => ∀ a, r = .ok a → Q a ids time u) ids time u) :
    Stages (ofUnit p) Q ids time u :=
  stages_bind (h.mono fun _ _ _ _ hr => stages_check _ hr)

theorem stages_findOrder {Q : Option Order → List String → Option Instant → UnitOfWork → Prop}
    {id : String} (h : ∀ s : Stores, s.Settled → Q (o.orders.find s.orders id).1 ids time
      (some { o with orders := (o.orders.find s.orders id).2 })) :
    Stages (findOrder id) Q ids time (some o) := by
  refine stages_ofUnit (stages_act rfl (fun _ he => by cases he) fun s hs found hfound => ?_)
  cases hfound
  exact h s hs

theorem stages_findMenuItem
    {Q : Option MenuItem → List String → Option Instant → UnitOfWork → Prop} {id : String}
    (h : ∀ s : Stores, s.Settled → Q (o.menuItems.find s.menuItems id).1 ids time
      (some { o with menuItems := (o.menuItems.find s.menuItems id).2 })) :
    Stages (findMenuItem id) Q ids time (some o) := by
  refine stages_ofUnit (stages_act rfl (fun _ he => by cases he) fun s hs found hfound => ?_)
  cases hfound
  exact h s hs

theorem stages_saveOrder {Q : Unit → List String → Option Instant → UnitOfWork → Prop}
    {order : Order}
    (h : ∀ s : Stores, Q () ids time (some { o with orders := o.orders.save s.orders order })) :
    Stages (saveOrder order) Q ids time (some o) :=
  stages_ofUnit (stages_act rfl (fun _ he => by cases he) fun s _ _ _ => h s)

theorem stages_saveMenuItem {Q : Unit → List String → Option Instant → UnitOfWork → Prop}
    {item : MenuItem} (h : ∀ s : Stores,
      Q () ids time (some { o with menuItems := o.menuItems.save s.menuItems item })) :
    Stages (saveMenuItem item) Q ids time (some o) :=
  stages_ofUnit (stages_act rfl (fun _ he => by cases he) fun s _ _ _ => h s)

/-- To stage an entry touches no aggregate. -/
theorem stages_saveEntry {Q : Unit → List String → Option Instant → UnitOfWork → Prop}
    {entry : Entry} (hown : entry.id ∈ ids)
    (h : ∀ outbox, Q () ids time (some { o with outbox })) :
    Stages (saveEntry entry) Q ids time (some o) := by
  refine stages_bind (stages_ofUnit (stages_act rfl ?_ fun s hs r hr => ?_))
  · rintro e ⟨⟩
    exact hown
  · refine stages_check _ fun a ha => ?_
    subst ha
    change Q () ids time (perform s (some o) (.saveEntry entry)).2.2
    simp only [perform, within, Overlay.saveEntry]
    cases o.findEntry s entry.id with
    | some _ => exact h o.outbox
    | none => exact h _

theorem finishes_commit {t : Instant} (hcovered : o.Covered) (count : Nat) :
    Finishes (do commit; return count) ids (some t) (some o) :=
  fun _ hok herror => .commit hcovered (hok count) fun _ => herror _

/-! ## Handing events on -/

theorem stages_stageEntries {policy : RetryPolicy} {aggregateId kind : String}
    {occurredAt : Instant} {Q : Unit → List String → Option Instant → UnitOfWork → Prop}
    (events : List DomainEvent) (h : ∀ ids outbox, Q () ids time (some { o with outbox })) :
    Stages (stageEntries policy aggregateId kind occurredAt events) Q ids time (some o) := by
  induction events generalizing ids o with
  | nil => exact stages_pure (h ids o.outbox)
  | cons event rest ih =>
    refine stages_bind (stages_nextId fun id => stages_bind (stages_check _ fun entry hc => ?_))
    refine stages_bind (stages_check _ fun entry' hp => stages_bind (stages_saveEntry ?_ ?_))
    · rw [(Entry.isNew_of_create hc hp).1]
      exact List.mem_append_right _ (List.mem_singleton_self _)
    · exact fun outbox => ih fun ids outbox => h ids outbox

theorem stages_stageEvents {α : Type} [Aggregate α] {policy : RetryPolicy} (a : α)
    {Q : Nat × α → List String → Option Instant → UnitOfWork → Prop}
    (h : ∀ ids t outbox, Q ((Aggregate.events a).length, Aggregate.drained a) ids (some t)
      (some { o with outbox })) :
    Stages (stageEvents policy a) Q ids none (some o) := by
  refine stages_bind (stages_now fun t => stages_bind (stages_requireOpen ?_))
  exact stages_bind (stages_stageEntries _ fun ids outbox => stages_pure (h ids t outbox))

/-- An order is committed by a unit that has touched nothing else. -/
theorem finishes_commitOrder {policy : RetryPolicy} {order : Order}
    (hitems : o.menuItems = {}) (horders : ∀ id ∈ o.orders.observed, id = order.id) :
    Finishes (commitOrder policy order) ids none (some o) := by
  refine finishes_bind (stages_stageEvents order fun ids t outbox => ?_)
  refine finishes_bind (stages_saveOrder fun s => finishes_commit ⟨?_, ?_⟩ _)
  · exact StagedTable.covered_save (a := Aggregate.drained order) horders s.orders
  · rw [hitems]
    exact fun id hid => absurd hid Std.ExtTreeMap.not_mem_empty

theorem finishes_commitMenuItem {policy : RetryPolicy} {item : MenuItem}
    (horders : o.orders = {}) (hitems : ∀ id ∈ o.menuItems.observed, id = item.id) :
    Finishes (commitMenuItem policy item) ids none (some o) := by
  refine finishes_bind (stages_stageEvents item fun ids t outbox => ?_)
  refine finishes_bind (stages_saveMenuItem fun s => finishes_commit ⟨?_, ?_⟩ _)
  · rw [horders]
    exact fun id hid => absurd hid Std.ExtTreeMap.not_mem_empty
  · exact StagedTable.covered_save (a := Aggregate.drained item) hitems s.menuItems

/-! ## Commands -/

/-- A change of an order that was loaded. -/
theorem finishes_changeOrder {policy : RetryPolicy} {id : String}
    (change : Order → Except OrderError Order)
    (keeps : ∀ {order order'}, change order = .ok order' → order'.id = order.id) :
    Finishes (do commitOrder policy (← check .order (change (← loadOrder id)))) ids none
      (some {}) := by
  refine finishes_bind (stages_bind (stages_findOrder fun s hs => ?_))
  rw [StagedTable.find_of_empty rfl]
  cases hv : s.orders[id]? with
  | none => exact stages_throw _
  | some v =>
    refine stages_pure (finishes_bind (stages_check _ fun order hchange => ?_))
    refine finishes_commitOrder rfl (StagedTable.eq_of_mem_observe ?_)
    rw [keeps hchange]
    exact (hs.orders hv).1

theorem finishes_changeMenuItem {policy : RetryPolicy} {id : String} (change : MenuItem → MenuItem)
    (keeps : ∀ item, (change item).id = item.id) :
    Finishes (do commitMenuItem policy (change (← loadMenuItem id))) ids none (some {}) := by
  refine finishes_bind (stages_bind (stages_findMenuItem fun s hs => ?_))
  rw [StagedTable.find_of_empty rfl]
  cases hv : s.menuItems[id]? with
  | none => exact stages_throw _
  | some v =>
    refine stages_pure (finishes_commitMenuItem rfl (StagedTable.eq_of_mem_observe ?_))
    rw [keeps]
    exact (hs.menuItems hv).1

theorem finishes_createMenuItem {policy : RetryPolicy} {id name : String} {amount : Decimal}
    (htrim : Text.trim id = id) :
    Finishes (do commitMenuItem policy (← createMenuItem id name amount)) ids none (some {}) := by
  refine finishes_bind (stages_bind (stages_findMenuItem fun s _ => ?_))
  rw [StagedTable.find_of_empty rfl]
  cases hv : s.menuItems[id]? with
  | some v => exact stages_bind (stages_throw _)
  | none =>
    refine stages_bind (stages_check _ fun price _ => stages_check _ fun item hitem => ?_)
    refine finishes_commitMenuItem rfl (StagedTable.eq_of_mem_observe ?_)
    exact (Text.trim_eq_of_required? (MenuItem.create_ok hitem).1).symm.trans htrim

end CommandM

open CommandM

/-- Whether a command is about one aggregate only. An order is placed of menu items, too. -/
def Command.isSingle : Command → Bool
  | placeOrder _ _ _ => false
  | _ => true

theorem Command.work_finishes {policy : RetryPolicy} {command : Command}
    (hsingle : command.isSingle = true) (htrim : Text.trim command.target = command.target) :
    Finishes (command.work policy) [] none (some {}) := by
  cases command with
  | createMenuItem id name amount => exact finishes_createMenuItem htrim
  | markSoldOut id => exact finishes_changeMenuItem _ MenuItem.id_markSoldOut
  | markAvailable id => exact finishes_changeMenuItem _ MenuItem.id_markAvailable
  | placeOrder id number lines => cases hsingle
  | markItemReady id itemId =>
    exact finishes_changeOrder (·.markItemReady itemId) Order.id_markItemReady
  | cancelItem id itemId => exact finishes_changeOrder (·.cancelItem itemId) Order.id_cancelItem
  | completeOrder id => exact finishes_changeOrder (·.complete) Order.id_complete
  | cancelOrder id => exact finishes_changeOrder (·.cancel) Order.id_cancel

theorem Command.handle_careful {policy : RetryPolicy} {command : Command}
    (hsingle : command.isSingle = true) (htrim : Text.trim command.target = command.target) :
    (command.handle policy).Careful [] none none := by
  refine .act rfl (fun _ he => by cases he) fun s _ => ?_
  refine command.work_finishes hsingle htrim _ (fun count => ?_) fun e => ?_
  · exact ⟨⟨.exit, rfl, nofun⟩, fun _ => rfl⟩
  · refine (Program.quiet_bind _ _).mpr ((Program.quiet_close true).mono fun ended _ => ?_)
    cases ended <;> rfl

end TableService
