import TableService.Proofs.Command.Work
import TableService.Proofs.Text.Trim

/-!
# What an order is refused for

A command that runs alone and is refused leaves the stores. Here it is said what it is refused for:

- `CommandM.Refines`: a part of a command that runs alone comes to the same error as a function of
  what is committed, or to its value.
- `Stores.placed?`: the order that a request makes of what is committed, or the error.
- `CommandM.refines_commitOrder`: while the ids are fresh, no order is refused at its commit.
- `Command.result_placeOrder`: so the result of the request is that of `Stores.placed?`.
-/

namespace TableService

open UnitOfWork

namespace CommandM

variable {α β γ δ : Type} {b : Backend} {u : UnitOfWork} {o : Overlay}

/-- If `m` runs alone, it ends with the error of `r`, or with a value that `Q` relates to that of
`r`. -/
structure Refines (Q : β → α → Backend → UnitOfWork → Prop) (b : Backend) (u : UnitOfWork)
    (m : CommandM α) (r : Except CommandError β) : Prop where
  run : match Program.run b u m.run, r with
    | (.ok a, b, u), .ok x => Q x a b u
    | (.error e, _, _), .error e' => e = e'
    | _, _ => False

variable {Q : β → α → Backend → UnitOfWork → Prop} {P : δ → γ → Backend → UnitOfWork → Prop}

theorem refines_pure {a : α} {x : β} (h : Q x a b u) : Refines Q b u (pure a) (.ok x) := ⟨h⟩

theorem refines_throw (e : CommandError) : Refines Q b u (throw e) (.error e) := ⟨rfl⟩

theorem refines_bind {m : CommandM γ} {r : Except CommandError δ} {f : γ → CommandM α}
    {g : δ → Except CommandError β} (h : Refines P b u m r)
    (hf : ∀ x a b u, r = .ok x → P x a b u → Refines Q b u (f a) (g x)) :
    Refines Q b u (m >>= f) (r >>= g) := by
  have hm := h.run
  constructor
  simp only [ExceptT.run_bind, Program.run_bind]
  rcases hrun : Program.run b u m.run with ⟨e | a, b', u'⟩
  · rw [hrun] at hm
    cases r with
    | error e' => exact hm
    | ok x => exact hm.elim
  · rw [hrun] at hm
    cases r with
    | error e' => exact hm.elim
    | ok x => exact (hf x a b' u' rfl hm).run

/-- A value that nothing depends on may be left out. -/
theorem Refines.mono {Q' : β → α → Backend → UnitOfWork → Prop} {m : CommandM α}
    {r : Except CommandError β} (h : Refines Q b u m r)
    (hQ : ∀ x a b u, Q x a b u → Q' x a b u) : Refines Q' b u m r := by
  have hm := h.run
  constructor
  split at hm
  · exact hQ _ _ _ _ hm
  · exact hm
  · exact hm.elim

theorem refines_check_bind {ε : Type} {refusal : ε → CommandError} {r : Except ε γ}
    {f : γ → CommandM α} {g : γ → Except CommandError β}
    (hf : ∀ x, r = .ok x → Refines Q b u (f x) (g x)) :
    Refines Q b u (check refusal r >>= f) (r.mapError refusal >>= g) := by
  cases r with
  | error e => exact ⟨rfl⟩
  | ok x => exact ⟨(hf x rfl).run⟩

/-- A check that cannot fail here. -/
theorem refines_check_ok_bind {ε : Type} {refusal : ε → CommandError} {r' : Except ε γ} {x : γ}
    {f : γ → CommandM α} {r : Except CommandError β} (h : r' = .ok x)
    (hf : Refines Q b u (f x) r) : Refines Q b u (check refusal r' >>= f) r := by
  rw [h]
  exact ⟨hf.run⟩

theorem refines_now_bind {f : Instant → CommandM α} {r : Except CommandError β}
    (hf : Refines Q b u (f b.clock) r) : Refines Q b u (now >>= f) r := ⟨hf.run⟩

theorem refines_nextId_bind {f : String → CommandM α} {r : Except CommandError β}
    (hf : Refines Q { b with ids := b.ids.next.2 } u (f b.ids.next.1) r) :
    Refines Q b u (nextId >>= f) r := ⟨hf.run⟩

theorem refines_requireOpen_bind {f : Unit → CommandM α} {r : Except CommandError β}
    (hf : Refines Q b (some o) (f ()) r) : Refines Q b (some o) (requireOpen >>= f) r := ⟨hf.run⟩

theorem refines_findOrder_bind {id : String} {f : Option Order → CommandM α}
    {r : Except CommandError β}
    (hf : Refines Q b (some { o with orders := (o.orders.find b.stores.orders id).2 })
      (f (o.orders.find b.stores.orders id).1) r) :
    Refines Q b (some o) (findOrder id >>= f) r := ⟨hf.run⟩

theorem refines_saveOrder_bind {order : Order} {f : Unit → CommandM α} {r : Except CommandError β}
    (hf : Refines Q b (some { o with orders := o.orders.save b.stores.orders order }) (f ()) r) :
    Refines Q b (some o) (saveOrder order >>= f) r := ⟨hf.run⟩

theorem refines_commit_bind {f : Unit → CommandM α} {r : Except CommandError β}
    (hc : o.conflict? b.stores = none)
    (hf : Refines Q { b with stores := o.merge b.stores } (some {}) (f ()) r) :
    Refines Q b (some o) (commit >>= f) r := by
  constructor
  simp only [ExceptT.run_bind, Program.run_bind, run_commit, hc]
  exact hf.run

theorem refines_findMenuItems_bind {ids : List String} {f : List MenuItem → CommandM α}
    {r : Except CommandError β} (h : o.Looked b.stores)
    (hf : ∀ o', o'.Looked b.stores → Refines Q b (some o') (f (b.stores.menuItemsOf ids)) r) :
    Refines Q b (some o) (findMenuItems ids >>= f) r := by
  obtain ⟨o', ho', hrun⟩ := run_findMenuItems ids h
  constructor
  simp only [ExceptT.run_bind, Program.run_bind, hrun]
  exact (hf o' ho').run

/-! ## Making an order -/

theorem refines_addLines (order : Order) (lines : List OrderLine) :
    Refines (fun p order' b' u' => order' = p.1 ∧ b' = { b with ids := p.2 } ∧ u' = u) b u
      (addLines order lines) (order.addAll b.ids lines) := by
  induction lines generalizing order b with
  | nil => exact refines_pure ⟨rfl, rfl, rfl⟩
  | cons line rest ih =>
    rw [addLines, Order.addAll]
    refine refines_nextId_bind ?_
    refine refines_check_bind fun price _ => ?_
    refine refines_check_bind fun quantity _ => ?_
    refine refines_check_bind fun order₁ _ => ?_
    exact ih (b := { b with ids := b.ids.next.2 }) order₁

end CommandM

/-- The order that a request makes of what is committed, and the ids that are left. -/
def Stores.placed? (s : Stores) (ids : IdSource) (id : String) (number : Int)
    (lines : List OrderLine) : Except CommandError (Order × IdSource) := do
  if lines = [] then throw (.order .emptyOrder)
  if s.orders[id]?.isSome then throw (.orderAlreadyExists id)
  (verifyAvailable (lines.map (·.menuItemId))
    (s.menuItemsOf (lines.map (·.menuItemId)))).mapError .menuItem
  let table ← (TableNumber.of? number).mapError .validation
  let order ← (Order.place id table).mapError .order
  order.addAll ids lines

/-- Each line takes one id. -/
theorem Order.ids_addAll {order order' : Order} {ids ids' : IdSource} {lines : List OrderLine}
    (h : order.addAll ids lines = .ok (order', ids')) :
    ids' = { ids with used := ids.used + lines.length } := by
  induction lines generalizing order ids with
  | nil =>
    cases h
    rfl
  | cons line rest ih =>
    obtain ⟨_, _, _, -, -, -, h⟩ := Order.addAll_cons_ok h
    rw [ih h, List.length_cons, Nat.add_comm rest.length, ← Nat.add_assoc]
    rfl

/-- What there is when a request makes an order. -/
theorem Stores.placed?_ok {s : Stores} {ids ids' : IdSource} {id : String} {number : Int}
    {lines : List OrderLine} {order : Order}
    (h : s.placed? ids id number lines = .ok (order, ids')) :
    s.orders[id]? = none ∧ ∃ table order₀, TableNumber.of? number = .ok table ∧
      Order.place id table = .ok order₀ ∧ order₀.addAll ids lines = .ok (order, ids') := by
  rw [placed?] at h
  split at h
  · cases h
  · split at h
    · cases h
    · rename_i habsent
      obtain ⟨_, -, h⟩ := bind_ok h
      obtain ⟨table, htable, h⟩ := bind_ok h
      obtain ⟨order₀, hplace, h⟩ := bind_ok h
      refine ⟨?_, table, order₀, mapError_ok htable, mapError_ok hplace, h⟩
      simpa using habsent

namespace CommandM

variable {b : Backend} {u : UnitOfWork} {o : Overlay}

theorem refines_place {id : String} {number : Int} {lines : List OrderLine}
    (h : o.Looked b.stores) :
    Refines (fun p order b' u' => order = p.1 ∧ b' = { b with ids := p.2 } ∧
        ∃ o', u' = some o' ∧ o'.Looked b.stores) b (some o)
      (place id number lines) (b.stores.placed? b.ids id number lines) := by
  rw [place, Stores.placed?]
  by_cases hne : lines = []
  · simp only [hne, if_true]
    exact refines_throw _
  · simp only [hne, if_false]
    refine refines_findOrder_bind ?_
    rw [h.orders.find_eq]
    cases hv : b.stores.orders[id]? with
    | some v => exact refines_throw _
    | none =>
      have ho : Overlay.Looked { o with orders := o.orders.observe b.stores.orders id } b.stores :=
        ⟨h.orders.observe id, h.menuItems, h.outbox⟩
      refine refines_findMenuItems_bind ho fun o' ho' => ?_
      refine refines_check_bind fun _ _ => ?_
      refine refines_check_bind fun table _ => ?_
      refine refines_check_bind fun order _ => ?_
      refine (refines_addLines order lines).mono ?_
      rintro p order' b' u' ⟨rfl, rfl, rfl⟩
      exact ⟨rfl, rfl, o', rfl, ho'⟩

/-! ## Handing its events on -/

theorem refines_saveEntry_bind {α β : Type} {Q : β → α → Backend → UnitOfWork → Prop}
    {entry : Entry} {f : Unit → CommandM α} {r : Except CommandError β}
    (hfree : ∀ e ∈ b.stores.outbox ++ o.outbox, e.id ≠ entry.id)
    (hf : Refines Q b (some { o with outbox := o.outbox ++ [entry] }) (f ()) r) :
    Refines Q b (some o) (saveEntry entry >>= f) r := by
  have hfind : o.findEntry b.stores entry.id = none := Overlay.findEntry_eq_none_iff.mpr hfree
  constructor
  simp only [ExceptT.run_bind, Program.run_bind, run_saveEntry, hfind]
  exact hf.run

end CommandM

/-- The ids that are still to come are all different, none of them is blank, and none of them is the
id of an entry yet. -/
structure Backend.Draws (b : Backend) (staged : List Entry) : Prop where
  injective {m n : Nat} : b.ids.used ≤ m → b.ids.used ≤ n → b.ids.text m = b.ids.text n → m = n
  notBlank {n : Nat} : b.ids.used ≤ n → Text.trim (b.ids.text n) ≠ ""
  free {e : Entry} {n : Nat} : e ∈ b.stores.outbox ++ staged → b.ids.used ≤ n →
    e.id ≠ b.ids.text n

theorem Backend.Draws.skip {b : Backend} {staged : List Entry} (h : b.Draws staged) (k : Nat) :
    Backend.Draws { b with ids := { b.ids with used := b.ids.used + k } } staged where
  injective hm hn := h.injective (Nat.le_of_add_right_le hm) (Nat.le_of_add_right_le hn)
  notBlank hn := h.notBlank (Nat.le_of_add_right_le hn)
  free he hn := h.free he (Nat.le_of_add_right_le hn)

/-- An entry with the next id is staged. -/
theorem Backend.Draws.next {b : Backend} {staged : List Entry} (h : b.Draws staged) {entry : Entry}
    (hid : entry.id = b.ids.next.1) :
    Backend.Draws { b with ids := b.ids.next.2 } (staged ++ [entry]) where
  injective hm hn := h.injective (Nat.le_of_succ_le hm) (Nat.le_of_succ_le hn)
  notBlank hn := h.notBlank (Nat.le_of_succ_le hn)
  free {e n} he hn := by
    rw [← List.append_assoc] at he
    rcases List.mem_append.mp he with hold | hnew
    · exact h.free hold (Nat.le_of_succ_le hn)
    · rw [List.mem_singleton.mp hnew, hid]
      intro heq
      exact Nat.ne_of_lt hn (h.injective (Nat.le_refl _) (Nat.le_of_succ_le hn) heq)

theorem Entry.create_eq {id aggregateId kind : String} {event : DomainEvent} {data : Payload}
    (occurredAt : Instant) (hid : Text.trim id ≠ "") (haggregate : Text.trim aggregateId ≠ "")
    (hkind : Text.trim kind ≠ "") (hdata : event.payload = .ok data) :
    Entry.create id event aggregateId kind occurredAt =
      .ok ⟨id, event.name, data, aggregateId, kind, occurredAt, .pending, 0, {}, none, none,
        none⟩ := by
  have keep {field value : String} (h : Text.trim value ≠ "") :
      requireField field value = .ok value := by
    rw [requireField, Text.required?_eq_some_iff.mpr ⟨rfl, h⟩]
  rw [create, keep hid, keep haggregate, keep hkind, hdata]
  rfl

namespace CommandM

theorem refines_stageEntries {policy : RetryPolicy} {aggregateId kind : String}
    {occurredAt : Instant} (haggregate : Text.trim aggregateId ≠ "") (hkind : Text.trim kind ≠ "")
    {events : List DomainEvent} (hevents : ∀ event ∈ events, ∃ data, event.payload = .ok data)
    (h : b.Draws o.outbox) :
    Refines (fun _ _ b' u' => b'.stores = b.stores ∧
        ∃ entries, u' = some { o with outbox := o.outbox ++ entries }) b (some o)
      (stageEntries policy aggregateId kind occurredAt events) (.ok ()) := by
  induction events generalizing b o with
  | nil =>
    refine refines_pure ⟨rfl, [], ?_⟩
    rw [List.append_nil]
  | cons event rest ih =>
    obtain ⟨data, hdata⟩ := hevents event List.mem_cons_self
    have hcreate := Entry.create_eq occurredAt (h.notBlank (Nat.le_refl _)) haggregate hkind hdata
    rw [stageEntries]
    refine refines_nextId_bind ?_
    refine refines_check_ok_bind hcreate ?_
    refine refines_check_ok_bind (x := ⟨b.ids.next.1, event.name, data, aggregateId, kind,
      occurredAt, .pending, 0, policy, none, none, none⟩) rfl ?_
    refine refines_saveEntry_bind (fun e he => h.free he (Nat.le_refl _)) ?_
    refine (ih (fun event he => hevents event (List.mem_cons_of_mem _ he)) (h.next rfl)).mono ?_
    rintro _ _ b' u' ⟨hstores, entries, rfl⟩
    exact ⟨hstores, _, congrArg (fun outbox => some { o with outbox })
      (List.append_assoc o.outbox [_] entries)⟩

theorem refines_stageEvents {policy : RetryPolicy} {order : Order} (hid : Text.trim order.id ≠ "")
    (h : b.Draws o.outbox) :
    Refines (fun x p b' u' => p = (x, order.drained) ∧ b'.stores = b.stores ∧
        ∃ entries, u' = some { o with outbox := o.outbox ++ entries }) b (some o)
      (stageEvents policy order) (.ok order.recorded.length) := by
  have hkind : Text.trim (Aggregate.kind Order) ≠ "" := by decide
  have hevents : ∀ event ∈ Aggregate.events order, ∃ data, event.payload = .ok data := by
    intro event hevent
    obtain ⟨e, -, rfl⟩ := List.mem_map.mp hevent
    exact ⟨e.fields, by cases e <;> rfl⟩
  rw [stageEvents]
  refine refines_now_bind (refines_requireOpen_bind ?_)
  change Refines _ b (some o) _ (.ok () >>= fun _ => .ok order.recorded.length)
  refine refines_bind (refines_stageEntries hid hkind hevents h) ?_
  rintro _ _ b' u' - hstaged
  refine refines_pure ⟨?_, hstaged⟩
  exact congrArg (Prod.mk · _) (List.length_map _)

theorem refines_commitOrder {policy : RetryPolicy} {order : Order}
    (hid : Text.trim order.id ≠ "") (ho : o.Looked b.stores) (h : b.Draws []) :
    Refines (fun x n _ _ => n = x) b (some o) (commitOrder policy order)
      (.ok order.recorded.length) := by
  have hdraws : b.Draws o.outbox := by
    rw [ho.outbox]
    exact h
  change Refines _ b (some o) (stageEvents policy order >>= _)
    (.ok order.recorded.length >>= fun n => .ok n)
  refine refines_bind (refines_stageEvents hid hdraws) ?_
  rintro n p b' u' - ⟨rfl, hstores, entries, rfl⟩
  have hnone : Overlay.conflict? {
      orders := o.orders.save b'.stores.orders order.drained
      menuItems := o.menuItems
      outbox := o.outbox ++ entries } b'.stores = none := by
    rw [hstores]
    exact Overlay.conflict?_eq_none_iff.mpr ⟨ho.orders.save_conflict? _,
      StagedTable.conflict?_eq_none_of_empty ho.menuItems.staged _⟩
  exact refines_saveOrder_bind (refines_commit_bind hnone (refines_pure rfl))

end CommandM

open CommandM

/-- A request that runs alone comes to what it makes of what is committed. -/
theorem Command.result_placeOrder {b : Backend} (h : b.Draws []) (policy : RetryPolicy)
    (id : String) (number : Int) (lines : List OrderLine) :
    ((Command.placeOrder id number lines).execute policy b).1 =
      (b.stores.placed? b.ids id number lines).map fun p => p.1.recorded.length := by
  have hwork : Refines (fun x n _ _ => n = x) b (some {})
      ((Command.placeOrder id number lines).work policy)
      (b.stores.placed? b.ids id number lines >>= fun p => .ok p.1.recorded.length) := by
    refine refines_bind (refines_place (Overlay.looked_empty b.stores)) ?_
    rintro ⟨order, ids'⟩ _ _ _ hplaced ⟨rfl, rfl, o, rfl, ho⟩
    obtain ⟨-, table, order₀, -, hplace, hall⟩ := Stores.placed?_ok hplaced
    refine refines_commitOrder ?_ ho ?_
    · -- the id of the order is trimmed already, and is not blank
      rw [Order.id_addAll hall]
      obtain ⟨htrim, hne⟩ := Text.required?_eq_some_iff.mp
        (Text.required?_of_required? (Order.place_ok hplace).1)
      rwa [← htrim]
    · rw [show ids' = _ from Order.ids_addAll hall]
      exact h.skip lines.length
  rw [Command.execute_eq]
  have hrun := hwork.run
  revert hrun
  rcases ((Command.placeOrder id number lines).work policy).run.run b (some {}) with ⟨e | n, b', u⟩
  · cases b.stores.placed? b.ids id number lines with
    | error e' => exact congrArg Except.error
    | ok p => exact False.elim
  · cases b.stores.placed? b.ids id number lines with
    | error e' => exact False.elim
    | ok p => exact congrArg Except.ok

end TableService
