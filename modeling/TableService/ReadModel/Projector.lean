import TableService.ReadModel.Fields
import TableService.ReadModel.HandlerTable
import TableService.ReadModel.Store

/-!
# Projectors

- `Projector`: a name, the event types it handles and what is to be done for an event.
- `ProjectionM`: a change of the read models in place, which may fail half way.
- `ProjectionM.onPlaced` and its like: the handlers, each for one type of event.
- `Projection`: the read models behind such a change, or why they stay as they are.
- `menuItemProjector`, `orderProjector`: the projectors for menu items and for orders.

An event may be delivered more than once. What is created exists only once, an item is added only
once, and a status is simply set. An event whose read model is missing does nothing. Each event
changes at most one read model, in its last step.
-/

namespace TableService

/-- The read models behind an event, or why they are as before. -/
abbrev Projection := Outage → ReadModels → Except ProjectionFailure ReadModels

/-- A change of the read models in place. If it fails half way, what it has done stays done. -/
abbrev ProjectionM := ExceptT ProjectionFailure (StateM ReadModels)

/-- What is to be done for an event. -/
abbrev Steps := Outage → ProjectionM Unit

/-- What the steps come to, and the read models as they leave them. -/
def Steps.run (steps : Steps) (out : Outage) (m : ReadModels) :
    Except ProjectionFailure Unit × ReadModels :=
  (steps out).run.run m

/-- The read models behind steps that do not fail. -/
def Projection.ofSteps (steps : Steps) : Projection := fun out m =>
  match steps.run out m with
  | (.ok (), m) => .ok m
  | (.error e, _) => .error e

/-- What projects the events of some types. What there is to do for an event is a value of `α`. -/
structure Projector (α : Type) where
  name : String
  eventTypes : List String
  project : String → Payload → α

/-- An event of any other type is refused. -/
def HandlerTable.steps (table : HandlerTable Steps) : String → Payload → Steps :=
  table.dispatch fun e _ => throw (.error e)

namespace Projector

/-- A projector that hands each event to its handler. -/
def ofTable (table : HandlerTable Steps) : Projector Projection where
  name := table.projector
  eventTypes := table.eventTypes
  project eventType payload := .ofSteps (table.steps eventType payload)

/-- The same projector with other values for what there is to do. -/
def map (f : α → β) (p : Projector α) : Projector β :=
  { p with project := fun eventType payload => f (p.project eventType payload) }

end Projector

/-! ## Handlers -/

namespace OrderModel

/-- A pending item, unless its total price is too large. -/
def newItem (fields : Fields) (itemId : String) : Except ProjectionFailure OrderItemModel := do
  let unitPrice ← (fields.decimal "unit_price").mapError .error
  let quantity ← (fields.word "quantity").mapError .error
  let menuItemId ← (fields.string "menu_item_id").mapError .error
  let name ← (fields.string "name").mapError .error
  match (Decimal.ofInt? quantity).bind unitPrice.mul? with
  | some totalPrice =>
    return { itemId, menuItemId, name, unitPrice, quantity, status := "pending", totalPrice }
  | none => throw (.panic Decimal.overflowMessage)

end OrderModel

namespace ProjectionM

/-- Goes on with a value, unless there is an error. -/
def check (r : Except ProjectionError α) : ProjectionM α :=
  MonadExcept.ofExcept (r.mapError .error)

/-- The menu item with this id, as it is shown at present. -/
def findMenuItem (out : Outage) (id : String) : ProjectionM (Option MenuItemModel) := do
  check ((← get).findMenuItem out id)

/-- Puts a menu item in the place of the one with its id. -/
def saveMenuItem (out : Outage) (item : MenuItemModel) : ProjectionM Unit := do
  set (← check ((← get).saveMenuItem out item))

/-- The order with this id, as it is shown at present. -/
def findOrder (out : Outage) (id : String) : ProjectionM (Option OrderModel) := do
  check ((← get).findOrder out id)

/-- Puts an order in the place of the one with its id. -/
def saveOrder (out : Outage) (order : OrderModel) : ProjectionM Unit := do
  set (← check ((← get).saveOrder out order))

/-- A menu item that is shown already stays as it is; its other fields are not even read. -/
def onCreated (data : Payload) (out : Outage) : ProjectionM Unit := do
  let fields : Fields := ⟨"MenuItemCreated", data⟩
  let menuItemId ← check (fields.string "menu_item_id")
  if (← findMenuItem out menuItemId).isSome then return ()
  let name ← check (fields.string "name")
  let price ← check (fields.decimal "price")
  saveMenuItem out { menuItemId, name, price, available := true }

/-- For both events that change whether a dish is available. A dish that is not shown is passed
over. -/
def setAvailable (eventType : String) (available : Bool) (data : Payload) (out : Outage) :
    ProjectionM Unit := do
  let menuItemId ← check (Fields.string ⟨eventType, data⟩ "menu_item_id")
  match ← findMenuItem out menuItemId with
  | none => return ()
  | some item => saveMenuItem out { item with available }

/-- An order that is shown already stays as it is; its other fields are not even read. -/
def onPlaced (data : Payload) (out : Outage) : ProjectionM Unit := do
  let fields : Fields := ⟨"OrderPlaced", data⟩
  let orderId ← check (fields.string "order_id")
  if (← findOrder out orderId).isSome then return ()
  let tableNumber ← check (fields.word "table_number")
  saveOrder out { orderId, tableNumber, status := "open", items := [] }

/-- Adds a line with its total price. An order that is not shown is passed over, and so is a line
that is shown already. -/
def onItemAdded (data : Payload) (out : Outage) : ProjectionM Unit := do
  let fields : Fields := ⟨"OrderItemAdded", data⟩
  let orderId ← check (fields.string "order_id")
  let itemId ← check (fields.string "order_item_id")
  match ← findOrder out orderId with
  | none => return ()
  | some order =>
    if order.hasItem itemId then return ()
    let item ← MonadExcept.ofExcept (OrderModel.newItem fields itemId)
    saveOrder out { order with items := order.items ++ [item] }

/-- For both events that end an order. An order that is not shown is passed over. -/
def setStatus (eventType status : String) (data : Payload) (out : Outage) : ProjectionM Unit := do
  let orderId ← check (Fields.string ⟨eventType, data⟩ "order_id")
  match ← findOrder out orderId with
  | none => return ()
  | some order => saveOrder out { order with status }

/-- For both events that settle a line. What is not shown is passed over. -/
def setStatusOfItem (eventType status : String) (data : Payload) (out : Outage) :
    ProjectionM Unit := do
  let fields : Fields := ⟨eventType, data⟩
  let orderId ← check (fields.string "order_id")
  let itemId ← check (fields.string "order_item_id")
  match ← findOrder out orderId with
  | none => return ()
  | some order =>
    if order.hasItem itemId then saveOrder out (order.setItemStatus itemId status) else return ()

end ProjectionM

/-! ## Menu items -/

/-- The handlers of the events of menu items. -/
def menuItemHandlers : HandlerTable Steps :=
  ({ projector := "MenuItemProjector" } : HandlerTable Steps)
    |>.on "MenuItemCreated" ProjectionM.onCreated
    |>.on "MenuItemSoldOut" (ProjectionM.setAvailable "MenuItemSoldOut" false)
    |>.on "MenuItemAvailable" (ProjectionM.setAvailable "MenuItemAvailable" true)

/-- Shows menu items. -/
def menuItemProjector : Projector Projection := .ofTable menuItemHandlers

/-! ## Orders -/

/-- The handlers of the events of orders. -/
def orderHandlers : HandlerTable Steps :=
  ({ projector := "OrderProjector" } : HandlerTable Steps)
    |>.on "OrderPlaced" ProjectionM.onPlaced
    |>.on "OrderItemAdded" ProjectionM.onItemAdded
    |>.on "DishMarkedReady" (ProjectionM.setStatusOfItem "DishMarkedReady" "ready")
    |>.on "OrderItemCancelled" (ProjectionM.setStatusOfItem "OrderItemCancelled" "cancelled")
    |>.on "OrderCompleted" (ProjectionM.setStatus "OrderCompleted" "completed")
    |>.on "OrderCancelled" (ProjectionM.setStatus "OrderCancelled" "cancelled")

/-- Shows orders. -/
def orderProjector : Projector Projection := .ofTable orderHandlers

end TableService
