import TableService.Domain.MenuItem
import TableService.Wire.Scalar

/-!
# Events on the wire

- `MenuItemEvent.ofJson?`, `OrderEvent.ofJson?`: the event of a type that a record holds.
-/

namespace TableService

open Json

/-- The event of a menu item, by its type. -/
def MenuItemEvent.ofJson? (type : String) (v : Json) : Option MenuItemEvent :=
  match type with
  | "MenuItemCreated" => do
    let fields ← v.record? ["menu_item_id", "name", "price"]
    some (.created (← required? fields "menu_item_id" text?) (← required? fields "name" text?)
      (← required? fields "price" Decimal.ofJson?))
  | "MenuItemSoldOut" => do
    let fields ← v.record? ["menu_item_id"]
    some (.soldOut (← required? fields "menu_item_id" text?))
  | "MenuItemAvailable" => do
    let fields ← v.record? ["menu_item_id"]
    some (.available (← required? fields "menu_item_id" text?))
  | _ => none

namespace OrderEvent

/-- An event that tells of a line. -/
def ofItem? (make : String → String → OrderEvent) (v : Json) : Option OrderEvent := do
  let fields ← v.record? ["order_id", "order_item_id"]
  some (make (← required? fields "order_id" text?) (← required? fields "order_item_id" text?))

/-- An event that tells of the order only. -/
def ofOrder? (make : String → OrderEvent) (v : Json) : Option OrderEvent := do
  let fields ← v.record? ["order_id"]
  some (make (← required? fields "order_id" text?))

/-- The event of an order, by its type. -/
def ofJson? (type : String) (v : Json) : Option OrderEvent :=
  match type with
  | "OrderPlaced" => do
    let fields ← v.record? ["order_id", "table_number"]
    some (.placed (← required? fields "order_id" text?) (← required? fields "table_number" word?))
  | "OrderItemAdded" => do
    let fields ← v.record?
      ["order_id", "order_item_id", "menu_item_id", "name", "unit_price", "quantity"]
    some (.itemAdded
      (← required? fields "order_id" text?) (← required? fields "order_item_id" text?)
      (← required? fields "menu_item_id" text?) (← required? fields "name" text?)
      (← required? fields "unit_price" Decimal.ofJson?) (← required? fields "quantity" word?))
  | "DishMarkedReady" => ofItem? .dishReady v
  | "OrderItemCancelled" => ofItem? .itemCancelled v
  | "OrderCompleted" => ofOrder? .completed v
  | "OrderCancelled" => ofOrder? .cancelled v
  | _ => none

end OrderEvent

end TableService
