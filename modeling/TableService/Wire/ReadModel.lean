import TableService.Command.Handler
import TableService.ReadModel.Store
import TableService.Wire.Scalar

/-!
# Read models and requests on the wire

- `MenuItemModel.toJson`, `OrderModel.toJson` and their readers. What is read is not checked.
- `OrderLine.toJson`, `OrderLine.ofJson?`: a requested line.
-/

namespace TableService

open Json

namespace MenuItemModel

/-- A menu item as it is shown. -/
def toJson (m : MenuItemModel) : Json :=
  .obj [("menu_item_id", .str m.menuItemId), ("name", .str m.name), ("price", m.price.toJson),
        ("available", .bool m.available)]

/-- Reads a menu item. -/
def ofJson? (v : Json) : Option MenuItemModel := do
  let fields ← v.record? ["menu_item_id", "name", "price", "available"]
  some {
    menuItemId := ← required? fields "menu_item_id" text?
    name := ← required? fields "name" text?
    price := ← required? fields "price" Decimal.ofJson?
    available := ← required? fields "available" bool? }

end MenuItemModel

namespace OrderItemModel

/-- A line as it is shown. -/
def toJson (i : OrderItemModel) : Json :=
  .obj [("order_item_id", .str i.itemId), ("menu_item_id", .str i.menuItemId),
        ("name", .str i.name), ("unit_price", i.unitPrice.toJson), ("quantity", .int i.quantity),
        ("status", .str i.status), ("total_price", i.totalPrice.toJson)]

/-- Reads a line. The status may be any text. -/
def ofJson? (v : Json) : Option OrderItemModel := do
  let fields ← v.record?
    ["order_item_id", "menu_item_id", "name", "unit_price", "quantity", "status", "total_price"]
  some {
    itemId := ← required? fields "order_item_id" text?
    menuItemId := ← required? fields "menu_item_id" text?
    name := ← required? fields "name" text?
    unitPrice := ← required? fields "unit_price" Decimal.ofJson?
    quantity := ← required? fields "quantity" word?
    status := ← required? fields "status" text?
    totalPrice := ← required? fields "total_price" Decimal.ofJson? }

end OrderItemModel

namespace OrderModel

/-- An order as it is shown, with its lines. -/
def toJson (o : OrderModel) : Json :=
  .obj [("order_id", .str o.orderId), ("table_number", .int o.tableNumber),
        ("status", .str o.status), ("items", .arr (o.items.map OrderItemModel.toJson))]

/-- Reads an order. The status may be any text. -/
def ofJson? (v : Json) : Option OrderModel := do
  let fields ← v.record? ["order_id", "table_number", "status", "items"]
  some {
    orderId := ← required? fields "order_id" text?
    tableNumber := ← required? fields "table_number" word?
    status := ← required? fields "status" text?
    items := ← required? fields "items" (items? OrderItemModel.ofJson?) }

end OrderModel

namespace OrderLine

/-- A requested line. -/
def toJson (l : OrderLine) : Json :=
  .obj [("menu_item_id", .str l.menuItemId), ("name", .str l.name),
        ("unit_price", l.unitPrice.toJson), ("quantity", .int l.quantity)]

/-- Reads a requested line. The quantity may be any number of 64 bits. -/
def ofJson? (v : Json) : Option OrderLine := do
  let fields ← v.record? ["menu_item_id", "name", "unit_price", "quantity"]
  some {
    menuItemId := ← required? fields "menu_item_id" text?
    name := ← required? fields "name" text?
    unitPrice := ← required? fields "unit_price" Decimal.ofJson?
    quantity := ← required? fields "quantity" (whole? (-limit63) limit63) }

end OrderLine

end TableService
