import TableService.Domain.Event
import TableService.Domain.Validation
import TableService.Sequence.FirstMatch

/-!
# Orders

- `Order`: what a table has ordered. An order is open until it is completed or cancelled, and only
  an open order can be changed.
- `OrderItem`: a line of an order. It is pending until it is ready or cancelled.
- `OrderEvent`: what is recorded of an order.
- `Order.place`: a new order.
- `OrderM.addItem`, `markItemReady`, `cancelItem`, `complete`, `cancel`: the changes, in place. Each
  one records its events behind those that are already recorded.
- `Order.addItem` and its like: the order behind such a change, if it is not refused.
-/

namespace TableService

/-- An order is open at first. It is never opened again. -/
inductive OrderStatus where
  | opened
  | completed
  | cancelled
deriving DecidableEq

/-- The status as messages and read models show it. -/
def OrderStatus.text : OrderStatus → String
  | opened => "open"
  | completed => "completed"
  | cancelled => "cancelled"

/-- A line is pending until it is ready or cancelled, which is final. -/
inductive ItemStatus where
  | pending
  | ready
  | cancelled
deriving DecidableEq

/-- The status as messages and read models show it. -/
def ItemStatus.text : ItemStatus → String
  | pending => "pending"
  | ready => "ready"
  | cancelled => "cancelled"

/-- What happens to an order. Each event names the order, and the line if it is about one. -/
inductive OrderEvent where
  | placed (orderId : String) (tableNumber : Nat)
  | itemAdded (orderId itemId menuItemId name : String) (unitPrice : Decimal) (quantity : Nat)
  | dishReady (orderId itemId : String)
  | itemCancelled (orderId itemId : String)
  | completed (orderId : String)
  | cancelled (orderId : String)
deriving DecidableEq

namespace OrderEvent

/-- The type under which projectors know the event. -/
def name : OrderEvent → String
  | placed .. => "OrderPlaced"
  | itemAdded .. => "OrderItemAdded"
  | dishReady .. => "DishMarkedReady"
  | itemCancelled .. => "OrderItemCancelled"
  | completed _ => "OrderCompleted"
  | cancelled _ => "OrderCancelled"

/-- The data of the event. Prices are written as texts, counts as whole numbers. -/
def fields : OrderEvent → Payload
  | placed orderId tableNumber => [("order_id", .str orderId), ("table_number", .int tableNumber)]
  | itemAdded orderId itemId menuItemId name unitPrice quantity =>
    [("order_id", .str orderId), ("order_item_id", .str itemId), ("menu_item_id", .str menuItemId),
     ("name", .str name), ("unit_price", .str unitPrice.text), ("quantity", .int quantity)]
  | dishReady orderId itemId => [("order_id", .str orderId), ("order_item_id", .str itemId)]
  | itemCancelled orderId itemId => [("order_id", .str orderId), ("order_item_id", .str itemId)]
  | completed orderId => [("order_id", .str orderId)]
  | cancelled orderId => [("order_id", .str orderId)]

/-- The event as it goes into the outbox. -/
def toDomain (e : OrderEvent) : DomainEvent := .ofFields e.name e.fields

end OrderEvent

/-- Why an order is refused or not changed. -/
inductive OrderError where
  | emptyOrder
  | notOpen (orderId : String) (status : OrderStatus)
  /-- Some line is pending, or there is none to complete. -/
  | notFullyReady (orderId : String)
  | itemNotFound (orderId itemId : String)
  /-- The status of the line does not allow the action. -/
  | invalidItemState (itemId : String) (status : ItemStatus) (action : String)
  /-- A text is blank. -/
  | validation (e : ValidationError)
deriving DecidableEq

/-- How the refusal is reported. -/
def OrderError.message : OrderError → String
  | emptyOrder => "Order must have at least one item"
  | notOpen orderId status =>
    "Order " ++ orderId ++ " is " ++ status.text ++ " and cannot be modified"
  | notFullyReady orderId => "Order " ++ orderId ++ " has items that are not ready"
  | itemNotFound orderId itemId => "Item " ++ itemId ++ " not found in order " ++ orderId
  | invalidItemState itemId status action =>
    "Cannot " ++ action ++ " item " ++ itemId ++ " in status " ++ status.text
  | validation e => e.message

/-- A line of an order. Name and unit price are copies, which later changes of the menu do not
reach. -/
structure OrderItem where
  id : String
  menuItemId : String
  name : String
  unitPrice : Money
  quantity : Quantity
  status : ItemStatus
deriving DecidableEq

namespace OrderItem

/-- The price of the whole line, unless it is too large. -/
def totalPrice? (item : OrderItem) : Option Money := item.unitPrice.times? item.quantity

/-- A line counts unless it is cancelled. -/
def isActive (item : OrderItem) : Bool := item.status ≠ .cancelled

end OrderItem

/-- What a table has ordered. `recorded` are its events that have not been handed on yet, oldest
first. -/
structure Order where
  id : String
  table : TableNumber
  items : List OrderItem
  status : OrderStatus
  recorded : List OrderEvent
deriving DecidableEq

namespace Order

/-- The lines that are not cancelled, in their order. -/
def activeItems (order : Order) : List OrderItem :=
  order.items.filter OrderItem.isActive

/-- Records an event behind the others. -/
def record (order : Order) (e : OrderEvent) : Order :=
  { order with recorded := order.recorded ++ [e] }

/-- Sets the status of the first item with this id. -/
def setItemStatus (order : Order) (itemId : String) (status : ItemStatus) : Order :=
  { order with items := updateFirst (·.id == itemId) ({ · with status }) order.items }

/-- Refuses what would change an order that is completed or cancelled. -/
def assertOpen (order : Order) : Except OrderError Unit :=
  if order.status = .opened then .ok () else .error (.notOpen order.id order.status)

/-- The first line with this id. -/
def findItem (order : Order) (itemId : String) : Except OrderError OrderItem :=
  match order.items.find? (·.id == itemId) with
  | some item => .ok item
  | none => .error (.itemNotFound order.id itemId)

/-- There must be an active item, and every active item must be ready. -/
def assertReady (order : Order) : Except OrderError Unit :=
  if order.activeItems = [] ∨ ∃ item ∈ order.activeItems, item.status ≠ .ready then
    .error (.notFullyReady order.id)
  else .ok ()

/-! ## Changes -/

/-- The trimmed text of a field, refused as an order reports it. -/
def requireText (entity field value : String) : Except OrderError String :=
  (TableService.requireText entity field value).mapError .validation

/-- A new order without items. -/
def place (orderId : String) (table : TableNumber) : Except OrderError Order := do
  let id ← requireText "Order" "id" orderId
  return { id, table, items := [], status := .opened, recorded := [.placed id table.value] }

/-- An order without any active item is cancelled. -/
def closeIfEmpty (order : Order) : Order :=
  if order.activeItems = [] then { order with status := .cancelled }.record (.cancelled order.id)
  else order

end Order

/-- A change of an order in place. If it is refused half way, what it has done stays done. -/
abbrev OrderM := ExceptT OrderError (StateM Order)

namespace OrderM

/-- Goes on with what the order answers, unless it refuses. -/
def check (f : Order → Except OrderError α) : OrderM α := do
  MonadExcept.ofExcept (f (← get))

/-- Records an event of the order in place. -/
def record (e : OrderEvent) : OrderM Unit := modify (·.record e)

/-- Adds a pending line under the trimmed id. Whether another line has this id is not asked. -/
def addItem (itemId menuItemId name : String) (unitPrice : Money) (quantity : Quantity) :
    OrderM Unit := do
  check Order.assertOpen
  let id ← check fun _ => Order.requireText "OrderItem" "id" itemId
  let menuItemId ← check fun _ => Order.requireText "OrderItem" "menu_item_id" menuItemId
  let name ← check fun _ => Order.requireText "OrderItem" "name" name
  let item := { id, menuItemId, name, unitPrice, quantity, status := .pending }
  record (.itemAdded (← get).id id menuItemId name unitPrice.amount quantity.value)
  modify fun order => { order with items := order.items ++ [item] }

/-- Only a pending line becomes ready. -/
def markItemReady (itemId : String) : OrderM Unit := do
  check Order.assertOpen
  let item ← check (·.findItem itemId)
  if item.status ≠ .pending then
    throw (.invalidItemState item.id item.status "mark as ready")
  modify (·.setItemStatus itemId .ready)
  record (.dishReady (← get).id itemId)

/-- Cancelling an item a second time changes nothing. -/
def cancelItem (itemId : String) : OrderM Unit := do
  check Order.assertOpen
  let item ← check (·.findItem itemId)
  match item.status with
  | .cancelled => return ()
  | .ready => throw (.invalidItemState item.id item.status "cancel")
  | .pending =>
    modify (·.setItemStatus itemId .cancelled)
    record (.itemCancelled (← get).id itemId)
    modify Order.closeIfEmpty

/-- Closes the order when everything that was not cancelled is ready. -/
def complete : OrderM Unit := do
  check Order.assertOpen
  check Order.assertReady
  modify ({ · with status := .completed })
  record (.completed (← get).id)

/-- Pending items are cancelled; what is ready stays ready. -/
def cancel : OrderM Unit := do
  check Order.assertOpen
  let pending := (← get).items.filter (·.status = .pending)
  modify fun order => { order with
    items := order.items.map fun i =>
      if i.status = .pending then { i with status := .cancelled } else i }
  modify fun order => { order with
    recorded := order.recorded ++ pending.map (.itemCancelled order.id ·.id) }
  modify ({ · with status := .cancelled })
  record (.cancelled (← get).id)

end OrderM

namespace Order

/-- The order behind a change that is not refused. -/
def change (order : Order) (m : OrderM Unit) : Except OrderError Order :=
  match m.run.run order with
  | (.ok (), order) => .ok order
  | (.error e, _) => .error e

/-- The order with one line more. -/
def addItem (order : Order) (itemId menuItemId name : String) (unitPrice : Money)
    (quantity : Quantity) : Except OrderError Order :=
  order.change (OrderM.addItem itemId menuItemId name unitPrice quantity)

/-- The order with a line that has become ready. -/
def markItemReady (order : Order) (itemId : String) : Except OrderError Order :=
  order.change (OrderM.markItemReady itemId)

/-- The order without a line, which may close it. -/
def cancelItem (order : Order) (itemId : String) : Except OrderError Order :=
  order.change (OrderM.cancelItem itemId)

/-- The order when it is completed. -/
def complete (order : Order) : Except OrderError Order :=
  order.change OrderM.complete

/-- The order when it is cancelled. -/
def cancel (order : Order) : Except OrderError Order :=
  order.change OrderM.cancel

/-- The order when its events have been handed on. -/
def drained (order : Order) : Order := { order with recorded := [] }

instance : Aggregate Order where
  kind := "Order"
  id := id
  events order := order.recorded.map OrderEvent.toDomain
  drained := drained

end Order

end TableService
