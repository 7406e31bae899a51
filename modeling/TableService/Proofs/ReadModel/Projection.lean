import TableService.Proofs.Domain.Story
import TableService.Proofs.Number.DecimalText
import TableService.Proofs.ReadModel.Accessors
import TableService.Proofs.ReadModel.InPlace

/-!
# What a projector makes of an event

- `Fields.string_ok`, `word_ok`, `decimal_ok`: a field is read as it was written. A decimal is read
  plain.
- `OrderState.model?`, `MenuItemState.model?`: the read model that shows a state. An order has none
  if the total price of one of its items is too large.
- `OrderModel.onPlaced_eq`, `MenuItemModel.onCreated_eq` and the like: what a handler does to the
  read models, given the fields that its event was written with.
- `OrderEvent.steps_eq`, `MenuItemEvent.steps_eq`: which handler an event is handed to.
-/

namespace TableService

open Text

/-! ## Reading fields -/

namespace Fields

variable {f : Fields} {field : String}

theorem string_ok {s : String} (h : f.payload.lookup field = some (.str s)) :
    f.string field = .ok s :=
  read_ok h rfl

theorem word_ok {n : Nat} (h : f.payload.lookup field = some (.int n)) (hn : n < limit32) :
    f.word field = .ok n :=
  read_ok h (word?_eq_some_iff.mpr (.int hn))

theorem decimal_ok {d : Decimal} (h : f.payload.lookup field = some (.str d.text)) :
    f.decimal field = .ok d.plain := by
  refine read_ok h ?_
  show Decimal.ofChars? (trimChars d.text.toList) = some d.plain
  rw [Decimal.text, String.toList_ofList, Decimal.trimChars_toChars, Decimal.ofChars?_toChars]

end Fields

/-! ## What is shown -/

/-- The line as it is shown, unless its total price is too large. -/
def ItemState.model? (item : ItemState) : Option OrderItemModel :=
  ((Decimal.ofInt? item.quantity).bind item.unitPrice.mul?).map fun totalPrice =>
    ⟨item.id, item.menuItemId, item.name, item.unitPrice.plain, item.quantity, item.status.text,
      totalPrice⟩

/-- The order as it is shown, unless a total price is too large. -/
def OrderState.model? (s : OrderState) : Option OrderModel :=
  (s.items.mapM ItemState.model?).map fun items => ⟨s.id, s.table, s.status.text, items⟩

/-- The menu item as it is shown. -/
def MenuItemState.model? (s : MenuItemState) : Option MenuItemModel :=
  some ⟨s.id, s.name, s.price.plain, s.available⟩

/-! ## While storage is up -/

namespace ReadModels

variable (m : ReadModels)

theorem findMenuItem_nil (id : String) : m.findMenuItem [] id = .ok m.menuItems[id]? := rfl

theorem findOrder_nil (id : String) : m.findOrder [] id = .ok m.orders[id]? := rfl

theorem saveOrder_nil (order : OrderModel) :
    m.saveOrder [] order = .ok { m with orders := m.orders.insert order.orderId order } := rfl

end ReadModels

open ReadModels ProjectionM

/-! ## Handlers of menu items -/

namespace MenuItemModel

theorem onCreated_eq {data : Payload} {id name : String} {price : Decimal}
    (hid : data.lookup "menu_item_id" = some (.str id))
    (hname : data.lookup "name" = some (.str name))
    (hprice : data.lookup "price" = some (.str price.text)) (m : ReadModels) :
    Projection.ofSteps (ProjectionM.onCreated data) [] m =
      match m.menuItems[id]? with
      | some _ => .ok m
      | none =>
        .ok { m with menuItems := m.menuItems.insert id ⟨id, name, price.plain, true⟩ } := by
  have hid : Fields.string ⟨"MenuItemCreated", data⟩ "menu_item_id" = .ok id := Fields.string_ok hid
  have hname : Fields.string ⟨"MenuItemCreated", data⟩ "name" = .ok name := Fields.string_ok hname
  have hprice : Fields.decimal ⟨"MenuItemCreated", data⟩ "price" = .ok price.plain :=
    Fields.decimal_ok hprice
  simp only [Projection.ofSteps_eq, onCreated, hid, hname, hprice, exec_bind, exec_check,
    exec_findMenuItem, findMenuItem_nil, Except.mapError]
  cases m.menuItems[id]? with
  | none => rfl
  | some _ => rfl

theorem setAvailable_eq {eventType id : String} {available : Bool} {data : Payload}
    (hid : data.lookup "menu_item_id" = some (.str id)) (m : ReadModels) :
    Projection.ofSteps (ProjectionM.setAvailable eventType available data) [] m =
      match m.menuItems[id]? with
      | none => .ok m
      | some item =>
        .ok { m with menuItems := m.menuItems.insert item.menuItemId { item with available } } := by
  have hid : Fields.string ⟨eventType, data⟩ "menu_item_id" = .ok id := Fields.string_ok hid
  simp only [Projection.ofSteps_eq, setAvailable, hid, exec_bind, exec_check, exec_findMenuItem,
    findMenuItem_nil, Except.mapError]
  cases m.menuItems[id]? with
  | none => rfl
  | some _ => rfl

end MenuItemModel

/-! ## Handlers of orders -/

namespace OrderModel

variable {data : Payload} {id itemId : String}

theorem onPlaced_eq {table : Nat} (hid : data.lookup "order_id" = some (.str id))
    (hnumber : data.lookup "table_number" = some (.int table)) (htable : table < limit32)
    (m : ReadModels) :
    Projection.ofSteps (ProjectionM.onPlaced data) [] m =
      match m.orders[id]? with
      | some _ => .ok m
      | none => .ok { m with orders := m.orders.insert id ⟨id, table, "open", []⟩ } := by
  have hid : Fields.string ⟨"OrderPlaced", data⟩ "order_id" = .ok id := Fields.string_ok hid
  have hnumber : Fields.word ⟨"OrderPlaced", data⟩ "table_number" = .ok table :=
    Fields.word_ok hnumber htable
  simp only [Projection.ofSteps_eq, onPlaced, hid, hnumber, exec_bind, exec_check, exec_findOrder,
    findOrder_nil, Except.mapError]
  cases m.orders[id]? with
  | none => rfl
  | some _ => rfl

theorem setStatus_eq {eventType status : String} (hid : data.lookup "order_id" = some (.str id))
    (m : ReadModels) :
    Projection.ofSteps (ProjectionM.setStatus eventType status data) [] m =
      match m.orders[id]? with
      | none => .ok m
      | some order =>
        .ok { m with orders := m.orders.insert order.orderId { order with status } } := by
  have hid : Fields.string ⟨eventType, data⟩ "order_id" = .ok id := Fields.string_ok hid
  simp only [Projection.ofSteps_eq, setStatus, hid, exec_bind, exec_check, exec_findOrder,
    findOrder_nil, Except.mapError]
  cases m.orders[id]? with
  | none => rfl
  | some _ => rfl

theorem setStatusOfItem_eq {eventType status : String}
    (hid : data.lookup "order_id" = some (.str id))
    (hitem : data.lookup "order_item_id" = some (.str itemId)) (m : ReadModels) :
    Projection.ofSteps (ProjectionM.setStatusOfItem eventType status data) [] m =
      match m.orders[id]? with
      | none => .ok m
      | some order =>
        if order.hasItem itemId then
          .ok { m with orders := m.orders.insert order.orderId (order.setItemStatus itemId status) }
        else .ok m := by
  have hid : Fields.string ⟨eventType, data⟩ "order_id" = .ok id := Fields.string_ok hid
  have hitem : Fields.string ⟨eventType, data⟩ "order_item_id" = .ok itemId :=
    Fields.string_ok hitem
  simp only [Projection.ofSteps_eq, setStatusOfItem, hid, hitem, exec_bind, exec_check,
    exec_findOrder, findOrder_nil, Except.mapError]
  cases m.orders[id]? with
  | none => rfl
  | some order =>
    cases hasItem : order.hasItem itemId with
    | true => simp [hasItem, saveOrder_nil, setItemStatus, behind, Except.mapError]
    | false => simp [hasItem]

/-- A new item is shown pending, or the projector crashes over its total price. -/
theorem newItem_eq {f : Fields} {menuItemId name : String} {price : Decimal} {quantity : Nat}
    (hmenu : f.payload.lookup "menu_item_id" = some (.str menuItemId))
    (hname : f.payload.lookup "name" = some (.str name))
    (hprice : f.payload.lookup "unit_price" = some (.str price.text))
    (hnumber : f.payload.lookup "quantity" = some (.int quantity))
    (hquantity : quantity < limit32) :
    newItem f itemId =
      match ItemState.model? ⟨itemId, menuItemId, name, price, quantity, .pending⟩ with
      | some item => .ok item
      | none => .error (.panic Decimal.overflowMessage) := by
  -- the handler multiplies the price as it was read, which is plain
  have htotal : (Decimal.ofInt? quantity).bind price.plain.mul? =
      (Decimal.ofInt? quantity).bind price.mul? :=
    congrArg _ (funext fun q => Decimal.mul?_plain price q)
  simp only [newItem, Fields.decimal_ok hprice, Fields.word_ok hnumber hquantity,
    Fields.string_ok hmenu, Fields.string_ok hname, Except.mapError, bind, Except.bind,
    ItemState.model?, htotal]
  cases (Decimal.ofInt? quantity).bind price.mul? with
  | none => rfl
  | some total => rfl

theorem onItemAdded_eq {menuItemId name : String} {price : Decimal} {quantity : Nat}
    (hid : data.lookup "order_id" = some (.str id))
    (hitem : data.lookup "order_item_id" = some (.str itemId))
    (hmenu : data.lookup "menu_item_id" = some (.str menuItemId))
    (hname : data.lookup "name" = some (.str name))
    (hprice : data.lookup "unit_price" = some (.str price.text))
    (hnumber : data.lookup "quantity" = some (.int quantity)) (hquantity : quantity < limit32)
    (m : ReadModels) :
    Projection.ofSteps (ProjectionM.onItemAdded data) [] m =
      match m.orders[id]? with
      | none => .ok m
      | some order =>
        if order.hasItem itemId then .ok m
        else match ItemState.model? ⟨itemId, menuItemId, name, price, quantity, .pending⟩ with
          | some item =>
            let order := { order with items := order.items ++ [item] }
            .ok { m with orders := m.orders.insert order.orderId order }
          | none => .error (.panic Decimal.overflowMessage) := by
  have hid : Fields.string ⟨"OrderItemAdded", data⟩ "order_id" = .ok id := Fields.string_ok hid
  have hitem : Fields.string ⟨"OrderItemAdded", data⟩ "order_item_id" = .ok itemId :=
    Fields.string_ok hitem
  have hnew : newItem ⟨"OrderItemAdded", data⟩ itemId = _ :=
    newItem_eq hmenu hname hprice hnumber hquantity
  simp only [Projection.ofSteps_eq, onItemAdded, hid, hitem, hnew, exec_bind, exec_check,
    exec_findOrder, findOrder_nil, Except.mapError]
  cases m.orders[id]? with
  | none => rfl
  | some order =>
    cases hasItem : order.hasItem itemId with
    | true => simp [hasItem]
    | false =>
      cases ItemState.model? ⟨itemId, menuItemId, name, price, quantity, .pending⟩ with
      | none => simp [hasItem]
      | some item => simp [hasItem, saveOrder_nil, behind, Except.mapError]

end OrderModel

/-! ## Handlers by event -/

/-- The handler of an event's type. -/
def OrderEvent.handler : OrderEvent → Payload → Steps
  | placed .. => onPlaced
  | itemAdded .. => onItemAdded
  | dishReady .. => setStatusOfItem "DishMarkedReady" "ready"
  | itemCancelled .. => setStatusOfItem "OrderItemCancelled" "cancelled"
  | completed _ => setStatus "OrderCompleted" "completed"
  | cancelled _ => setStatus "OrderCancelled" "cancelled"

theorem OrderEvent.steps_eq (e : OrderEvent) (data : Payload) :
    orderHandlers.steps e.name data = e.handler data := by
  cases e <;> simp [HandlerTable.steps, HandlerTable.dispatch, orderHandlers,
    HandlerTable.getElem?_handlers_on, name, handler]

theorem OrderEvent.project_handler (e : OrderEvent) (data : Payload) :
    orderProjector.project e.name data = .ofSteps (e.handler data) :=
  congrArg Projection.ofSteps (e.steps_eq data)

/-- The handler of an event's type. -/
def MenuItemEvent.handler : MenuItemEvent → Payload → Steps
  | created .. => onCreated
  | soldOut _ => setAvailable "MenuItemSoldOut" false
  | available _ => setAvailable "MenuItemAvailable" true

theorem MenuItemEvent.steps_eq (e : MenuItemEvent) (data : Payload) :
    menuItemHandlers.steps e.name data = e.handler data := by
  cases e <;> simp [HandlerTable.steps, HandlerTable.dispatch, menuItemHandlers,
    HandlerTable.getElem?_handlers_on, name, handler]

theorem MenuItemEvent.project_handler (e : MenuItemEvent) (data : Payload) :
    menuItemProjector.project e.name data = .ofSteps (e.handler data) :=
  congrArg Projection.ofSteps (e.steps_eq data)

end TableService
