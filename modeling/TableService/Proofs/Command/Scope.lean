import TableService.Proofs.Command.Work

/-!
# Work in a scope

- `Program.exchanges`: what a program that runs alone asks for, what it is given, and the stores
  behind each request.
- `Program.stores_run`: the stores that a program leaves are those behind its last commit that
  succeeded.
- `Program.ScopeOf`: what a scope makes of its work. The result is that of the work, whatever the
  work did to the unit and however it ended.
-/

namespace TableService

open UnitOfWork

/-- A request with its reply, and the stores behind it. -/
structure Exchange where
  request : Request
  reply : request.Reply
  stores : Stores

/-- The stores behind a commit that succeeded. -/
def Exchange.committed? : Exchange → Option Stores
  | ⟨.unit .commit, .ok (), stores⟩ => some stores
  | _ => none

/-- The stores behind the last commit among these that succeeded. -/
def lastCommitted? (exchanges : List Exchange) : Option Stores :=
  (exchanges.filterMap Exchange.committed?).getLast?

namespace Program

variable {α β ε : Type}

/-- All requests of a program with their replies and the stores behind them. -/
def exchanges (b : Backend) (u : UnitOfWork) : Program α → List Exchange
  | done _ => []
  | ask r next =>
    let (reply, b, u) := r.answer b u
    ⟨r, reply, b.stores⟩ :: (next reply).exchanges b u

theorem exchanges_bind (b : Backend) (u : UnitOfWork) (p : Program α) (f : α → Program β) :
    (p >>= f).exchanges b u =
      p.exchanges b u ++ (f (p.run b u).1).exchanges (p.run b u).2.1 (p.run b u).2.2 := by
  change (p.bind f).exchanges b u = _
  induction p generalizing b u with
  | done a => rfl
  | ask r next ih => exact congrArg (_ :: ·) (ih ..)

/-! ## The stores that a program leaves -/

/-- Only a commit that succeeds changes the stores. -/
theorem stores_answer (b : Backend) (u : UnitOfWork) (r : Request) :
    (r.answer b u).2.1.stores =
      (Exchange.committed? ⟨r, (r.answer b u).1, (r.answer b u).2.1.stores⟩).getD b.stores := by
  cases r with
  | now => rfl
  | nextId => rfl
  | unit act =>
    rcases stores_perform b.stores u act with hsame | ⟨rfl, o, rfl, hc, -⟩
    · have hstores : ((Request.unit act).answer b u).2.1.stores = b.stores := hsame
      simp only [hstores, Exchange.committed?]
      split <;> simp_all
    · have hperform : perform b.stores (some o) .commit = (.ok (), o.merge b.stores, some {}) := by
        simp only [perform, hc]
      simp only [Request.answer, hperform, Exchange.committed?, Option.getD_some]

theorem stores_run (p : Program α) (b : Backend) (u : UnitOfWork) :
    (p.run b u).2.1.stores = (lastCommitted? (p.exchanges b u)).getD b.stores := by
  induction p generalizing b u with
  | done a => rfl
  | ask r next ih =>
    have hanswer := stores_answer b u r
    simp only [run, exchanges, lastCommitted?, List.filterMap_cons]
    rw [ih]
    cases hc : Exchange.committed? ⟨r, (r.answer b u).1, (r.answer b u).2.1.stores⟩ with
    | none =>
      rw [hc, Option.getD_none] at hanswer
      rw [hanswer]
      rfl
    | some stores =>
      rw [hc, Option.getD_some] at hanswer
      rw [List.getLast?_cons, Option.getD_some, hanswer]
      rfl

/-! ## Scopes -/

/-- What a scope asks for behind its work. -/
def cleanUp (failed : Bool) (s : Stores) (u : UnitOfWork) : List Exchange :=
  (if failed then ⟨.unit .isOpen, u.isSome, s⟩ ::
    (if u.isSome then [⟨.unit .rollback, .ok (), s⟩] else []) else []) ++ [⟨.unit .exit, (), s⟩]

theorem exchanges_close (failed : Bool) (b : Backend) (u : UnitOfWork) :
    (close failed).exchanges b u = cleanUp failed b.stores u := by
  cases failed with
  | false => rfl
  | true => cases u <;> rfl

/-- What a scope makes of its work. -/
structure ScopeOf (refusal : UnitOfWorkError → ε) (work : Program (Except ε α)) (b : Backend) :
    Prop where
  /-- A unit that is open already is left as it is, and nothing is asked on behalf of the work. -/
  reentered (o : Overlay) : (inScope refusal work).run b (some o) =
      (.error (refusal .alreadyEntered), b, some o) ∧
    (inScope refusal work).exchanges b (some o) =
      [⟨.unit .enter, .error .alreadyEntered, b.stores⟩]
  result : ((inScope refusal work).run b none).1 = (work.run b (some {})).1
  closed : ((inScope refusal work).run b none).2.2 = none
  stores : ((inScope refusal work).run b none).2.1.stores =
    (lastCommitted? (work.exchanges b (some {}))).getD b.stores
  /-- The work is done once, in between. The requests behind it are all accepted. -/
  exchanges : (inScope refusal work).exchanges b none =
    ⟨.unit .enter, .ok (), b.stores⟩ :: work.exchanges b (some {}) ++
      cleanUp (!(work.run b (some {})).1.isOk) (work.run b (some {})).2.1.stores
        (work.run b (some {})).2.2

theorem exchanges_inScope (refusal : UnitOfWorkError → ε) (work : Program (Except ε α))
    (b : Backend) : (inScope refusal work).exchanges b none =
      ⟨.unit .enter, .ok (), b.stores⟩ :: work.exchanges b (some {}) ++
        cleanUp (!(work.run b (some {})).1.isOk) (work.run b (some {})).2.1.stores
          (work.run b (some {})).2.2 := by
  change _ :: (work >>= _).exchanges b (some {}) = _
  rw [exchanges_bind, exchanges_bind, run_close, exchanges_close, List.cons_append]
  cases (work.run b (some {})).1 with
  | error e => exact congrArg (_ :: _ ++ ·) (List.append_nil _)
  | ok a => exact congrArg (_ :: _ ++ ·) (List.append_nil _)

end Program

/-- Work in a scope ends with its own result and leaves the unit closed, and the stores as its last
commit that succeeded left them. A unit that is open already does not get as far as the work. -/
theorem scoped_work {ε α : Type} (refusal : UnitOfWorkError → ε) (work : Program (Except ε α))
    (b : Backend) : Program.ScopeOf refusal work b where
  reentered o := ⟨rfl, rfl⟩
  result := by rw [Program.run_inScope]
  closed := by rw [Program.run_inScope]
  stores := by rw [Program.run_inScope, Program.stores_run]
  exchanges := Program.exchanges_inScope refusal work b

-- The work closes the unit, opens it again and fails with an error of its own.
example (b : Backend) : (Program.inScope id do
    Program.request (.unit .exit)
    let _ ← Program.request (.unit .enter)
    return (.error .notEntered : Within Unit)).run b none = (.error .notEntered, b, none) := rfl

end TableService
