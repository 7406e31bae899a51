import TableService.Command.Error
import TableService.Command.Program

/-!
# Commands

- `Command`: what can be asked of menu items and orders.
- `stageEvents`: hands the recorded events of an aggregate on to the outbox of the unit of work.
- `Command.handle`: loads or makes the aggregate, changes it, stages its events and commits both in
  one unit of work. The result is the number of entries.

A command that fails leaves nothing behind.
-/

namespace TableService

/-- A requested line of an order, not checked yet. -/
structure OrderLine where
  menuItemId : String
  name : String
  unitPrice : Decimal
  quantity : Int
deriving DecidableEq

/-- What can be asked for. Numbers and texts are as the request has them, not checked yet. -/
inductive Command where
  | createMenuItem (id name : String) (price : Decimal)
  | markSoldOut (id : String)
  | markAvailable (id : String)
  | placeOrder (id : String) (table : Int) (lines : List OrderLine)
  | markItemReady (id itemId : String)
  | cancelItem (id itemId : String)
  | completeOrder (id : String)
  | cancelOrder (id : String)
deriving DecidableEq

/-- A program that may be refused on the way. -/
abbrev CommandM := ExceptT CommandError Program

namespace CommandM

/-- The time at present. -/
def now : CommandM Instant := ExceptT.lift (Program.request .now)

/-- A new id. -/
def nextId : CommandM String := ExceptT.lift (Program.request .nextId)

/-- Goes on with a value, or ends with the error as a command reports it. -/
def check (refusal : ε → CommandError) (r : Except ε α) : CommandM α :=
  ExceptT.mk (.done (r.mapError refusal))

/-- A part that needs an open unit of work. That it is closed ends the command. -/
def ofUnit (p : Program (UnitOfWork.Within α)) : CommandM α := do
  check .unitOfWork (← ExceptT.lift p)

/-- The order with this id, as the unit of work sees it. -/
def findOrder (id : String) : CommandM (Option Order) :=
  ofUnit (Program.request (.unit (.findOrder id)))

/-- The menu item with this id, as the unit of work sees it. -/
def findMenuItem (id : String) : CommandM (Option MenuItem) :=
  ofUnit (Program.request (.unit (.findMenuItem id)))

/-- Stages an order. -/
def saveOrder (order : Order) : CommandM Unit :=
  ofUnit (Program.request (.unit (.saveOrder order)))

/-- Stages a menu item. -/
def saveMenuItem (item : MenuItem) : CommandM Unit :=
  ofUnit (Program.request (.unit (.saveMenuItem item)))

/-- Stages an entry. A duplicate id ends the command. -/
def saveEntry (entry : Entry) : CommandM Unit := do
  check .outbox (← ofUnit (Program.request (.unit (.saveEntry entry))))

/-- Commits what is staged, or ends the command with the conflict. -/
def commit : CommandM Unit :=
  ofUnit (Program.request (.unit .commit))

/-- Ends the command unless the unit of work is open. -/
def requireOpen : CommandM Unit := do
  unless ← ExceptT.lift (Program.request (.unit .isOpen)) do
    throw (.unitOfWork .notEntered)

end CommandM

open CommandM

/-! ## Staging -/

/-- Stages an entry for each event, in order. -/
def stageEntries (policy : RetryPolicy) (aggregateId kind : String) (occurredAt : Instant) :
    List DomainEvent → CommandM Unit
  | [] => pure ()
  | event :: rest => do
    let id ← nextId
    let entry ← check .outbox (Entry.create id event aggregateId kind occurredAt)
    let entry ← check .outbox (entry.withPolicy policy)
    saveEntry entry
    stageEntries policy aggregateId kind occurredAt rest

/-- All recorded events happened at one time. Gives their number and the aggregate without them. -/
def stageEvents [Aggregate α] (policy : RetryPolicy) (a : α) : CommandM (Nat × α) := do
  let occurredAt ← now
  requireOpen
  stageEntries policy (Aggregate.id a) (Aggregate.kind α) occurredAt (Aggregate.events a)
  return ((Aggregate.events a).length, Aggregate.drained a)

/-- The end of each command on an order: the events are staged before the order itself. Gives their
number. -/
def commitOrder (policy : RetryPolicy) (order : Order) : CommandM Nat := do
  let (staged, order) ← stageEvents policy order
  saveOrder order
  commit
  return staged

/-- The same for a menu item. -/
def commitMenuItem (policy : RetryPolicy) (item : MenuItem) : CommandM Nat := do
  let (staged, item) ← stageEvents policy item
  saveMenuItem item
  commit
  return staged

/-! ## Loading and making aggregates -/

/-- The order that a command is about, which must be there. -/
def loadOrder (id : String) : CommandM Order := do
  match ← findOrder id with
  | some order => return order
  | none => throw (.orderNotFound id)

/-- The menu item that a command is about, which must be there. -/
def loadMenuItem (id : String) : CommandM MenuItem := do
  match ← findMenuItem id with
  | some item => return item
  | none => throw (.menuItemNotFound id)

/-- The menu items that there are among the requested ones. -/
def findMenuItems : List String → CommandM (List MenuItem)
  | [] => return []
  | id :: rest => do
    let item ← findMenuItem id
    let items ← findMenuItems rest
    return item.toList ++ items

/-- Adds the requested lines, each under a new id. -/
def addLines (order : Order) : List OrderLine → CommandM Order
  | [] => return order
  | line :: rest => do
    let itemId ← nextId
    let price ← check .validation (Money.of? line.unitPrice)
    let quantity ← check .validation (Quantity.of? line.quantity)
    let order ← check .order (order.addItem itemId line.menuItemId line.name price quantity)
    addLines order rest

/-- A new order with its lines. That there are lines is asked first, then whether the id is free and
the dishes are available; numbers and prices come last. -/
def place (id : String) (table : Int) (lines : List OrderLine) : CommandM Order := do
  if lines = [] then throw (.order .emptyOrder)
  if (← findOrder id).isSome then throw (.orderAlreadyExists id)
  let requested := lines.map (·.menuItemId)
  let items ← findMenuItems requested
  check .menuItem (verifyAvailable requested items)
  let table ← check .validation (TableNumber.of? table)
  let order ← check .order (Order.place id table)
  addLines order lines

/-- A new menu item, if its id is free. -/
def createMenuItem (id name : String) (price : Decimal) : CommandM MenuItem := do
  if (← findMenuItem id).isSome then throw (.menuItemAlreadyExists id)
  let price ← check .validation (Money.of? price)
  check .validation (MenuItem.create id name price)

/-! ## Handling -/

namespace Command

/-- The work of a command inside its unit of work. -/
def work (policy : RetryPolicy) : Command → CommandM Nat
  | createMenuItem id name price => do
    commitMenuItem policy (← TableService.createMenuItem id name price)
  | markSoldOut id => do
    commitMenuItem policy (← loadMenuItem id).markSoldOut
  | markAvailable id => do
    commitMenuItem policy (← loadMenuItem id).markAvailable
  | placeOrder id table lines => do
    commitOrder policy (← place id table lines)
  | markItemReady id itemId => do
    commitOrder policy (← check .order ((← loadOrder id).markItemReady itemId))
  | cancelItem id itemId => do
    commitOrder policy (← check .order ((← loadOrder id).cancelItem itemId))
  | completeOrder id => do
    commitOrder policy (← check .order (← loadOrder id).complete)
  | cancelOrder id => do
    commitOrder policy (← check .order (← loadOrder id).cancel)

/-- The whole command in the scope of a unit of work. -/
def handle (policy : RetryPolicy) (command : Command) : Program (Except CommandError Nat) :=
  Program.inScope .unitOfWork (command.work policy).run

/-- Handles a command alone, in a unit of work of its own. -/
def execute (policy : RetryPolicy) (b : Backend) (command : Command) :
    Except CommandError Nat × Backend :=
  let (result, b, _) := (command.handle policy).run b none
  (result, b)

end Command

end TableService
