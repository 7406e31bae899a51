import TableService.Store.UnitOfWork

/-!
# Programs over a unit of work

- `Request`: what a program may ask for in one step: an act of its unit of work, the time, a new id.
- `Program`: a program that asks one request after the other. Other programs may run between any two
  of its requests, so nothing is known of the stores but what was asked.
- `Backend`: the stores, the clock and the ids that all programs share.
- `Program.run`: runs a program alone.
- `Program.inScope`: opens the unit for some work and closes it behind the work.
-/

namespace TableService

/-- Ids are handed out in the order of `text`, of which the first `used` are gone. -/
structure IdSource where
  text : Nat → String
  used : Nat := 0

/-- Hands out an id. It is not handed out again. -/
def IdSource.next (ids : IdSource) : String × IdSource :=
  (ids.text ids.used, { ids with used := ids.used + 1 })

/-- What all programs share. -/
structure Backend where
  stores : Stores
  clock : Instant
  ids : IdSource

/-- A single thing that a program may ask for. -/
inductive Request where
  | unit (act : UnitOfWork.Act)
  | now
  | nextId

/-- What is answered to a request. -/
abbrev Request.Reply : Request → Type
  | unit act => act.Reply
  | now => Instant
  | nextId => String

/-- The reply to a request, and everything as the request leaves it. -/
def Request.answer (b : Backend) (u : UnitOfWork) : (r : Request) → r.Reply × Backend × UnitOfWork
  | .unit act => let (r, stores, u) := u.perform b.stores act; (r, { b with stores }, u)
  | .now => (b.clock, b, u)
  | .nextId => let (id, ids) := b.ids.next; (id, { b with ids }, u)

/-- A program that is done, or asks a request and goes on with the reply. -/
inductive Program (α : Type) : Type where
  | done (a : α)
  | ask (r : Request) (next : r.Reply → Program α)

namespace Program

/-- One program and then another one, which knows the result of the first. -/
def bind (p : Program α) (f : α → Program β) : Program β :=
  match p with
  | done a => f a
  | ask r next => ask r fun reply => (next reply).bind f

instance : Monad Program where
  pure := done
  bind := bind

/-- Runs a program to its end, with no other program between its requests. -/
def run (b : Backend) (u : UnitOfWork) : Program α → α × Backend × UnitOfWork
  | done a => (a, b, u)
  | ask r next => let (reply, b, u) := r.answer b u; (next reply).run b u

theorem run_bind (b : Backend) (u : UnitOfWork) (p : Program α) (f : α → Program β) :
    (p >>= f).run b u = (f (p.run b u).1).run (p.run b u).2.1 (p.run b u).2.2 := by
  change (p.bind f).run b u = _
  induction p generalizing b u with
  | done a => rfl
  | ask r next ih => exact ih ..

/-- A single request. -/
def request (r : Request) : Program r.Reply := ask r done

/-- Work that failed is rolled back, unless it closed the unit itself. If that is refused, the unit
is left as it is. -/
def close (failed : Bool) : Program (UnitOfWork.Within Unit) := do
  if failed then
    if ← request (.unit .isOpen) then
      if let .error e ← request (.unit .rollback) then
        return .error e
  request (.unit .exit)
  return .ok ()

/-- The unit must be closed; what is not committed by the end of the work is dropped. The result is
that of the work. -/
def inScope (refusal : UnitOfWorkError → ε) (work : Program (Except ε α)) :
    Program (Except ε α) := do
  match ← request (.unit .enter) with
  | .error e => return .error (refusal e)
  | .ok () =>
    let result ← work
    match ← close (result matches .error _) with
    | .error e => return .error (refusal e)
    | .ok () => return result

end Program

end TableService
