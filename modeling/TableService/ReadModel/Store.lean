import TableService.Number.DecimalText
import TableService.ReadModel.Error
import TableService.Sequence.FirstMatch
import TableService.Store.Outage
import TableService.Store.Table

/-!
# Read models

- `MenuItemModel`, `OrderModel`: what queries show of a menu item and of an order.
- `ReadModels`: all read models, each under its own id.
- `ReadModels.getOrder`, `getAvailableMenuItems`: the queries.

Every call may fail while storage is down.
-/

namespace TableService

/-- What is shown of a menu item. -/
structure MenuItemModel where
  menuItemId : String
  name : String
  price : Decimal
  available : Bool
deriving DecidableEq

/-- What is shown of a line of an order. The total price is worked out when the line is added. -/
structure OrderItemModel where
  itemId : String
  menuItemId : String
  name : String
  unitPrice : Decimal
  quantity : Nat
  status : String
  totalPrice : Decimal
deriving DecidableEq

/-- What is shown of an order. Lines are in the order in which they were added. -/
structure OrderModel where
  orderId : String
  tableNumber : Nat
  status : String
  items : List OrderItemModel
deriving DecidableEq

namespace OrderModel

/-- Whether a line with this id is shown. -/
def hasItem (order : OrderModel) (itemId : String) : Bool :=
  order.items.any (·.itemId == itemId)

/-- Sets the status of the first item with this id. -/
def setItemStatus (order : OrderModel) (itemId status : String) : OrderModel :=
  { order with items := updateFirst (·.itemId == itemId) ({ · with status }) order.items }

end OrderModel

/-- What queries see. It follows what is committed with a delay. -/
structure ReadModels where
  orders : Table OrderModel := ∅
  menuItems : Table MenuItemModel := ∅

/-- Refuses a call that is down. -/
def Outage.check (out : Outage) (call : String) : Except ProjectionError Unit :=
  match out.reason? call with
  | some reason => .error (.storage reason)
  | none => .ok ()

namespace ReadModels

/-- The order with this id, if one is shown. -/
def findOrder (m : ReadModels) (out : Outage) (id : String) :
    Except ProjectionError (Option OrderModel) := do
  out.check "order_find"
  return m.orders[id]?

/-- Puts the order under its own id, in the place of an earlier one. -/
def saveOrder (m : ReadModels) (out : Outage) (order : OrderModel) :
    Except ProjectionError ReadModels := do
  out.check "order_save"
  return { m with orders := m.orders.insert order.orderId order }

/-- Takes an order away. This call is never down. -/
def deleteOrder (m : ReadModels) (id : String) : ReadModels :=
  { m with orders := m.orders.erase id }

/-- The menu item with this id, if one is shown. -/
def findMenuItem (m : ReadModels) (out : Outage) (id : String) :
    Except ProjectionError (Option MenuItemModel) := do
  out.check "menu_find"
  return m.menuItems[id]?

/-- Puts the menu item under its own id, in the place of an earlier one. -/
def saveMenuItem (m : ReadModels) (out : Outage) (item : MenuItemModel) :
    Except ProjectionError ReadModels := do
  out.check "menu_save"
  return { m with menuItems := m.menuItems.insert item.menuItemId item }

/-- The available menu items by id. -/
def availableMenuItems (m : ReadModels) (out : Outage) :
    Except ProjectionError (List MenuItemModel) := do
  out.check "menu_all"
  return m.menuItems.values.filter (·.available)

end ReadModels

/-! ## Queries -/

/-- Why a query has no answer. -/
inductive QueryError where
  | orderNotFound (id : String)
  | storage (e : ProjectionError)
deriving DecidableEq

/-- How this is reported. -/
def QueryError.message : QueryError → String
  | orderNotFound id => "Order '" ++ id ++ "' not found"
  | storage e => e.message

namespace ReadModels

/-- An order is not found until it has been projected. -/
def getOrder (m : ReadModels) (out : Outage) (id : String) : Except QueryError OrderModel := do
  match ← (m.findOrder out id).mapError .storage with
  | some order => return order
  | none => throw (.orderNotFound id)

/-- The menu as guests see it: what is available, by id. -/
def getAvailableMenuItems (m : ReadModels) (out : Outage) :
    Except QueryError (List MenuItemModel) :=
  (m.availableMenuItems out).mapError .storage

end ReadModels

end TableService
