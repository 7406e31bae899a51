import TableService.Domain.MenuItem
import TableService.Domain.Order
import TableService.Outbox.Log
import TableService.Store.StagedTable

/-!
# Units of work

- `Stores`: all that is committed.
- `Overlay`: what a unit of work has staged over the stores.
- `UnitOfWork`: closed, or open with an overlay.
- `UnitOfWork.Act`: a single step of a unit of work, with `Act.Reply` as the type of its result.
- `UnitOfWork.perform`: what an act does. Only `commit` changes the stores, and it does so for all
  staged changes or for none.
-/

namespace TableService

/-- The committed state: both kinds of aggregate with their versions, and the log. -/
structure Stores where
  orders : Table (Versioned Order) := ∅
  menuItems : Table (Versioned MenuItem) := ∅
  outbox : Log := []

/-- Why a unit of work refuses an act. -/
inductive UnitOfWorkError where
  | notEntered
  | alreadyEntered
  /-- A staged key has been committed by someone else in the meantime. -/
  | concurrencyConflict (aggregateType : String) (conflict : Conflict)
deriving DecidableEq

/-- How the refusal is reported. -/
def UnitOfWorkError.message : UnitOfWorkError → String
  | notEntered => "Unit of work used outside an open scope"
  | alreadyEntered => "Unit of work scope is already open"
  | concurrencyConflict aggregateType c =>
    "Concurrent modification of " ++ aggregateType ++ " '" ++ c.id ++ "': expected version "
      ++ Text.Numeral.natText c.expected ++ ", found " ++ Text.Numeral.natText c.actual

/-- What a unit of work has staged. Entries are in the order in which they were staged. -/
structure Overlay where
  orders : StagedTable Order := {}
  menuItems : StagedTable MenuItem := {}
  outbox : List Entry := []

namespace Overlay

/-- Staged entries come before committed ones. -/
def findEntry (o : Overlay) (s : Stores) (id : String) : Option Entry :=
  (Log.find? o.outbox id).or (Log.find? s.outbox id)

/-- Stages an entry whose id is neither staged nor committed. -/
def saveEntry (o : Overlay) (s : Stores) (entry : Entry) : Except OutboxError Overlay :=
  match o.findEntry s entry.id with
  | some _ => .error (.duplicateEntry entry.id)
  | none => .ok { o with outbox := o.outbox ++ [entry] }

/-- Orders are looked at before menu items. -/
def conflict? (o : Overlay) (s : Stores) : Option UnitOfWorkError :=
  ((o.orders.conflict? s.orders).map (.concurrencyConflict (Aggregate.kind Order))).or
    ((o.menuItems.conflict? s.menuItems).map (.concurrencyConflict (Aggregate.kind MenuItem)))

/-- The stores with all staged changes. -/
def merge (o : Overlay) (s : Stores) : Stores where
  orders := o.orders.merge s.orders
  menuItems := o.menuItems.merge s.menuItems
  outbox := s.outbox ++ o.outbox

end Overlay

/-- Without an overlay the unit is closed. -/
abbrev UnitOfWork := Option Overlay

namespace UnitOfWork

/-- A single step of a unit of work. -/
inductive Act where
  | enter
  | exit
  | commit
  | rollback
  | isOpen
  /-- Shows the overlay. -/
  | look
  | findOrder (id : String)
  | findMenuItem (id : String)
  | saveOrder (order : Order)
  | saveMenuItem (item : MenuItem)
  | findEntry (id : String)
  | saveEntry (entry : Entry)

/-- What an act that needs an open unit gives. -/
abbrev Within (α : Type) := Except UnitOfWorkError α

/-- What an act gives. All but `enter`, `exit` and `isOpen` need an open unit. -/
abbrev Act.Reply : Act → Type
  | enter | commit | rollback => Within Unit
  | exit => Unit
  | isOpen => Bool
  | look => Within Overlay
  | findOrder _ => Within (Option Order)
  | findMenuItem _ => Within (Option MenuItem)
  | saveOrder _ | saveMenuItem _ => Within Unit
  | findEntry _ => Within (Option Entry)
  | saveEntry _ => Within (Except OutboxError Unit)

/-- Runs `f` on the overlay of an open unit. -/
def within (u : UnitOfWork) (f : Overlay → α × Overlay) : Within α × UnitOfWork :=
  match u with
  | none => (.error .notEntered, none)
  | some o => let (a, o) := f o; (.ok a, some o)

/-- The result of an act, the stores and the unit behind it. -/
def perform (s : Stores) (u : UnitOfWork) : (act : Act) → act.Reply × Stores × UnitOfWork
  | .enter =>
    match u with
    | none => (.ok (), s, some {})
    | some o => (.error .alreadyEntered, s, some o)
  | .exit => ((), s, none)
  | .commit =>
    match u with
    | none => (.error .notEntered, s, none)
    | some o =>
      match o.conflict? s with
      | some e => (.error e, s, some o)
      | none => (.ok (), o.merge s, some {})
  | .rollback => let (r, u) := u.within fun _ => ((), {}); (r, s, u)
  | .isOpen => (u.isSome, s, u)
  | .look => let (r, u) := u.within fun o => (o, o); (r, s, u)
  | .findOrder id =>
    let (r, u) := u.within fun o =>
      let (found, orders) := o.orders.find s.orders id
      (found, { o with orders })
    (r, s, u)
  | .findMenuItem id =>
    let (r, u) := u.within fun o =>
      let (found, menuItems) := o.menuItems.find s.menuItems id
      (found, { o with menuItems })
    (r, s, u)
  | .saveOrder order =>
    let (r, u) := u.within fun o => ((), { o with orders := o.orders.save s.orders order })
    (r, s, u)
  | .saveMenuItem item =>
    let (r, u) := u.within fun o => ((), { o with menuItems := o.menuItems.save s.menuItems item })
    (r, s, u)
  | .findEntry id => let (r, u) := u.within fun o => (o.findEntry s id, o); (r, s, u)
  | .saveEntry entry =>
    let (r, u) := u.within fun o =>
      match o.saveEntry s entry with
      | .ok o => (.ok (), o)
      | .error e => (.error e, o)
    (r, s, u)

end UnitOfWork

end TableService
