import TableService.Command.Handler
import TableService.Proofs.Store.Sharing

/-!
# Commands that run alone

- `CommandM.Alone`: what holds behind a part of a command that runs alone. If the part is refused,
  the stores are `s`.
- `alone_bind` and one lemma for each request take a command apart.
- `run_saveEntry`, `run_commit`: the requests that may be refused, with what refuses them.
-/

namespace TableService

open UnitOfWork

namespace CommandM

variable {α β : Type}

/-- If `m` runs alone, it either ends with a value and `Q` or is refused, and the stores are `s`. -/
def Alone (s : Stores) (m : CommandM α) (Q : α → Backend → UnitOfWork → Prop) (b : Backend)
    (u : UnitOfWork) : Prop :=
  match Program.run b u m.run with
  | (.ok a, b, u) => Q a b u
  | (.error _, b, _) => b.stores = s

variable {s : Stores} {b : Backend} {u : UnitOfWork} {o : Overlay}

@[simp] theorem alone_pure {Q : α → Backend → UnitOfWork → Prop} (a : α) :
    Alone s (pure a) Q b u ↔ Q a b u := Iff.rfl

@[simp] theorem alone_bind {Q : β → Backend → UnitOfWork → Prop} (m : CommandM α)
    (f : α → CommandM β) :
    Alone s (m >>= f) Q b u ↔ Alone s m (fun a b u => Alone s (f a) Q b u) b u := by
  simp only [Alone, ExceptT.run_bind, Program.run_bind]
  rcases Program.run b u m.run with ⟨_ | a, b', u'⟩
  · rfl
  · rfl

/-! ## Requests -/

@[simp] theorem alone_now {Q : Instant → Backend → UnitOfWork → Prop} :
    Alone s now Q b u ↔ Q b.clock b u := Iff.rfl

@[simp] theorem alone_nextId {Q : String → Backend → UnitOfWork → Prop} :
    Alone s nextId Q b u ↔ Q b.ids.next.1 { b with ids := b.ids.next.2 } u := Iff.rfl

@[simp] theorem alone_check {ε : Type} {Q : α → Backend → UnitOfWork → Prop}
    (refusal : ε → CommandError) (r : Except ε α) :
    Alone s (check refusal r) Q b u ↔
      match r with
      | .ok a => Q a b u
      | .error _ => b.stores = s := by
  cases r <;> rfl

@[simp] theorem alone_requireOpen {Q : Unit → Backend → UnitOfWork → Prop} :
    Alone s requireOpen Q b (some o) ↔ Q () b (some o) := Iff.rfl

@[simp] theorem alone_findOrder {Q : Option Order → Backend → UnitOfWork → Prop} (id : String) :
    Alone s (findOrder id) Q b (some o) ↔
      Q (o.orders.find b.stores.orders id).1 b
        (some { o with orders := (o.orders.find b.stores.orders id).2 }) := Iff.rfl

@[simp] theorem alone_findMenuItem {Q : Option MenuItem → Backend → UnitOfWork → Prop}
    (id : String) :
    Alone s (findMenuItem id) Q b (some o) ↔
      Q (o.menuItems.find b.stores.menuItems id).1 b
        (some { o with menuItems := (o.menuItems.find b.stores.menuItems id).2 }) := Iff.rfl

@[simp] theorem alone_saveOrder {Q : Unit → Backend → UnitOfWork → Prop} (order : Order) :
    Alone s (saveOrder order) Q b (some o) ↔
      Q () b (some { o with orders := o.orders.save b.stores.orders order }) := Iff.rfl

@[simp] theorem alone_saveMenuItem {Q : Unit → Backend → UnitOfWork → Prop} (item : MenuItem) :
    Alone s (saveMenuItem item) Q b (some o) ↔
      Q () b (some { o with menuItems := o.menuItems.save b.stores.menuItems item }) := Iff.rfl

theorem run_lift (b : Backend) (u : UnitOfWork) (p : Program α) :
    Program.run b u (ExceptT.lift p : CommandM α).run =
      (.ok (p.run b u).1, (p.run b u).2.1, (p.run b u).2.2) :=
  Program.run_bind b u p fun a => .done (Except.ok a : Except CommandError α)

/-- A request that only an open unit grants, and what comes of it. -/
theorem run_ofUnit (b : Backend) (u : UnitOfWork) (p : Program (Within α)) :
    Program.run b u (ofUnit p).run =
      match p.run b u with
      | (.ok a, b, u) => (.ok a, b, u)
      | (.error e, b, u) => (.error (.unitOfWork e), b, u) := by
  rw [ofUnit, ExceptT.run_bind, Program.run_bind, run_lift]
  rcases p.run b u with ⟨_ | a, b', u'⟩ <;> rfl

theorem run_saveEntry (b : Backend) (o : Overlay) (entry : Entry) :
    Program.run b (some o) (saveEntry entry).run =
      match o.findEntry b.stores entry.id with
      | some _ => (.error (.outbox (.duplicateEntry entry.id)), b, some o)
      | none => (.ok (), b, some { o with outbox := o.outbox ++ [entry] }) := by
  have hrun : (Program.request (.unit (.saveEntry entry))).run b (some o) =
      match o.findEntry b.stores entry.id with
      | some _ => (.ok (.error (.duplicateEntry entry.id)), b, some o)
      | none => (.ok (.ok ()), b, some { o with outbox := o.outbox ++ [entry] }) := by
    simp only [Program.request, Program.run, Request.answer, perform, within, Overlay.saveEntry]
    cases o.findEntry b.stores entry.id <;> rfl
  rw [saveEntry, ExceptT.run_bind, Program.run_bind, run_ofUnit, hrun]
  cases o.findEntry b.stores entry.id <;> rfl

theorem run_commit (b : Backend) (o : Overlay) :
    Program.run b (some o) commit.run =
      match o.conflict? b.stores with
      | some e => (.error (.unitOfWork e), b, some o)
      | none => (.ok (), { b with stores := o.merge b.stores }, some {}) := by
  have hrun : (Program.request (.unit .commit)).run b (some o) =
      match o.conflict? b.stores with
      | some e => (.error e, b, some o)
      | none => (.ok (), { b with stores := o.merge b.stores }, some {}) := by
    simp only [Program.request, Program.run, Request.answer, perform]
    cases o.conflict? b.stores <;> rfl
  rw [commit, run_ofUnit, hrun]
  cases o.conflict? b.stores <;> rfl

@[simp] theorem alone_saveEntry {Q : Unit → Backend → UnitOfWork → Prop} (entry : Entry) :
    Alone s (saveEntry entry) Q b (some o) ↔
      match o.findEntry b.stores entry.id with
      | some _ => b.stores = s
      | none => Q () b (some { o with outbox := o.outbox ++ [entry] }) := by
  rw [Alone, run_saveEntry]
  cases o.findEntry b.stores entry.id <;> rfl

@[simp] theorem alone_commit {Q : Unit → Backend → UnitOfWork → Prop} :
    Alone s commit Q b (some o) ↔
      match o.conflict? b.stores with
      | some _ => b.stores = s
      | none => Q () { b with stores := o.merge b.stores } (some {}) := by
  rw [Alone, run_commit]
  cases o.conflict? b.stores <;> rfl

end CommandM

end TableService
