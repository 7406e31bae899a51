import TableService.Proofs.Domain.Changes
import TableService.Proofs.ReadModel.Shown

/-!
# Events are read as they were written

An aggregate writes the fields of an event, and the handler of a projector reads them by name.

- `OrderEvent.read`, `MenuItemEvent.read`: the event that a handler reads off a payload.
- `OrderEvent.steps_congr`, `MenuItemEvent.steps_congr`: a handler goes by what it reads, and by
  nothing else.
- `WireForm`: how an event travels, and that nothing of it is lost on the way.
- `events_travel_whole`: so it is for all events.
-/

namespace TableService

/-- Whether it is a zero with a sign. -/
def Decimal.IsNegativeZero (d : Decimal) : Prop := d.negative = true ∧ d.digits = 0

theorem Decimal.plain_eq_self {d : Decimal} (h : ¬ d.IsNegativeZero) : d.plain = d := by
  obtain ⟨negative, digits, scale, _, _⟩ := d
  have hsign : (negative && digits ≠ 0) = negative := by
    cases negative with
    | false => rfl
    | true =>
      have hdigits : digits ≠ 0 := fun hzero => h ⟨rfl, hzero⟩
      simpa using hdigits
  simp only [plain, hsign]

theorem Fields.decimal_plain {f : Fields} {field : String} {d : Decimal}
    (h : f.payload.lookup field = some (.str d.text)) (hd : ¬ d.IsNegativeZero) :
    f.decimal field = .ok d := by
  rw [Fields.decimal_ok h, Decimal.plain_eq_self hd]

/-! ## A handler goes by what it reads -/

namespace ProjectionM

open Fields

variable {data data' : Payload}

/-- The same is read in a field of two payloads. -/
abbrev SameRead {α : Type} (data data' : Payload)
    (read : Fields → String → Except ProjectionError α) (eventType field : String) : Prop :=
  read ⟨eventType, data⟩ field = read ⟨eventType, data'⟩ field

theorem onCreated_congr (hid : SameRead data data' string "MenuItemCreated" "menu_item_id")
    (hname : SameRead data data' string "MenuItemCreated" "name")
    (hprice : SameRead data data' decimal "MenuItemCreated" "price") :
    onCreated data = onCreated data' := by
  funext out
  simp only [onCreated, hid, hname, hprice]

theorem setAvailable_congr {eventType : String} {available : Bool}
    (hid : SameRead data data' string eventType "menu_item_id") :
    setAvailable eventType available data = setAvailable eventType available data' := by
  funext out
  simp only [setAvailable, hid]

theorem onPlaced_congr (hid : SameRead data data' string "OrderPlaced" "order_id")
    (htable : SameRead data data' word "OrderPlaced" "table_number") :
    onPlaced data = onPlaced data' := by
  funext out
  simp only [onPlaced, hid, htable]

theorem onItemAdded_congr (hid : SameRead data data' string "OrderItemAdded" "order_id")
    (hitem : SameRead data data' string "OrderItemAdded" "order_item_id")
    (hprice : SameRead data data' decimal "OrderItemAdded" "unit_price")
    (hquantity : SameRead data data' word "OrderItemAdded" "quantity")
    (hmenu : SameRead data data' string "OrderItemAdded" "menu_item_id")
    (hname : SameRead data data' string "OrderItemAdded" "name") :
    onItemAdded data = onItemAdded data' := by
  funext out
  simp only [onItemAdded, OrderModel.newItem, hid, hitem, hprice, hquantity, hmenu, hname]

theorem setStatus_congr {eventType status : String}
    (hid : SameRead data data' string eventType "order_id") :
    setStatus eventType status data = setStatus eventType status data' := by
  funext out
  simp only [setStatus, hid]

theorem setStatusOfItem_congr {eventType status : String}
    (hid : SameRead data data' string eventType "order_id")
    (hitem : SameRead data data' string eventType "order_item_id") :
    setStatusOfItem eventType status data = setStatusOfItem eventType status data' := by
  funext out
  simp only [setStatusOfItem, hid, hitem]

end ProjectionM

open ProjectionM

/-! ## Events of an order -/

namespace OrderEvent

/-- The fields of an event in the order in which they are declared. -/
def fieldNames : OrderEvent → List String
  | placed .. => ["order_id", "table_number"]
  | itemAdded .. =>
    ["order_id", "order_item_id", "menu_item_id", "name", "unit_price", "quantity"]
  | dishReady .. | itemCancelled .. => ["order_id", "order_item_id"]
  | completed _ | cancelled _ => ["order_id"]

/-- The price that an event tells, if it tells one. -/
def price? : OrderEvent → Option Decimal
  | itemAdded _ _ _ _ unitPrice _ => some unitPrice
  | _ => none

/-- What the handler of an event reads. -/
def read (f : Fields) : Except ProjectionError OrderEvent := do
  match f.eventType with
  | "OrderPlaced" =>
    let orderId ← f.string "order_id"
    let tableNumber ← f.word "table_number"
    return placed orderId tableNumber
  | "OrderItemAdded" =>
    let orderId ← f.string "order_id"
    let itemId ← f.string "order_item_id"
    let unitPrice ← f.decimal "unit_price"
    let quantity ← f.word "quantity"
    let menuItemId ← f.string "menu_item_id"
    let name ← f.string "name"
    return itemAdded orderId itemId menuItemId name unitPrice quantity
  | "DishMarkedReady" =>
    let orderId ← f.string "order_id"
    let itemId ← f.string "order_item_id"
    return dishReady orderId itemId
  | "OrderItemCancelled" =>
    let orderId ← f.string "order_id"
    let itemId ← f.string "order_item_id"
    return itemCancelled orderId itemId
  | "OrderCompleted" =>
    let orderId ← f.string "order_id"
    return completed orderId
  | "OrderCancelled" =>
    let orderId ← f.string "order_id"
    return cancelled orderId
  | eventType => throw (.unhandledEventType "OrderProjector" eventType)

variable {e : OrderEvent} {data data' : Payload}

theorem read_fields (hrange : e.InRange) (hprice : ∀ d ∈ e.price?, ¬ d.IsNegativeZero) :
    read ⟨e.name, e.fields⟩ = .ok e := by
  cases e with
  | placed orderId tableNumber =>
    have hword : Fields.word ⟨"OrderPlaced", fields (placed orderId tableNumber)⟩ "table_number" =
        .ok tableNumber := Fields.word_ok rfl hrange
    simp only [read, name, hword]
    rfl
  | itemAdded orderId itemId menuItemId itemName unitPrice quantity =>
    have hdecimal : Fields.decimal ⟨"OrderItemAdded",
        fields (itemAdded orderId itemId menuItemId itemName unitPrice quantity)⟩ "unit_price" =
          .ok unitPrice := Fields.decimal_plain rfl (hprice unitPrice rfl)
    have hword : Fields.word ⟨"OrderItemAdded",
        fields (itemAdded orderId itemId menuItemId itemName unitPrice quantity)⟩ "quantity" =
          .ok quantity := Fields.word_ok rfl hrange
    simp only [read, name, hdecimal, hword]
    rfl
  | dishReady | itemCancelled | completed | cancelled => rfl

/-- What each accessor gives when a payload is read as an event. -/
def Gives (data : Payload) : OrderEvent → Prop
  | placed orderId tableNumber =>
    Fields.string ⟨"OrderPlaced", data⟩ "order_id" = .ok orderId ∧
      Fields.word ⟨"OrderPlaced", data⟩ "table_number" = .ok tableNumber
  | itemAdded orderId itemId menuItemId name unitPrice quantity =>
    Fields.string ⟨"OrderItemAdded", data⟩ "order_id" = .ok orderId ∧
      Fields.string ⟨"OrderItemAdded", data⟩ "order_item_id" = .ok itemId ∧
      Fields.decimal ⟨"OrderItemAdded", data⟩ "unit_price" = .ok unitPrice ∧
      Fields.word ⟨"OrderItemAdded", data⟩ "quantity" = .ok quantity ∧
      Fields.string ⟨"OrderItemAdded", data⟩ "menu_item_id" = .ok menuItemId ∧
      Fields.string ⟨"OrderItemAdded", data⟩ "name" = .ok name
  | dishReady orderId itemId =>
    Fields.string ⟨"DishMarkedReady", data⟩ "order_id" = .ok orderId ∧
      Fields.string ⟨"DishMarkedReady", data⟩ "order_item_id" = .ok itemId
  | itemCancelled orderId itemId =>
    Fields.string ⟨"OrderItemCancelled", data⟩ "order_id" = .ok orderId ∧
      Fields.string ⟨"OrderItemCancelled", data⟩ "order_item_id" = .ok itemId
  | completed orderId => Fields.string ⟨"OrderCompleted", data⟩ "order_id" = .ok orderId
  | cancelled orderId => Fields.string ⟨"OrderCancelled", data⟩ "order_id" = .ok orderId

theorem gives_of_read (h : read ⟨e.name, data⟩ = .ok e) : e.Gives data := by
  cases e with
  | placed orderId tableNumber =>
    obtain ⟨id, hid, h⟩ := bind_ok h
    obtain ⟨table, htable, h⟩ := bind_ok h
    cases h
    exact ⟨hid, htable⟩
  | itemAdded orderId itemId menuItemId itemName unitPrice quantity =>
    obtain ⟨id, hid, h⟩ := bind_ok h
    obtain ⟨item, hitem, h⟩ := bind_ok h
    obtain ⟨price, hprice, h⟩ := bind_ok h
    obtain ⟨number, hnumber, h⟩ := bind_ok h
    obtain ⟨dish, hdish, h⟩ := bind_ok h
    obtain ⟨name, hname, h⟩ := bind_ok h
    cases h
    exact ⟨hid, hitem, hprice, hnumber, hdish, hname⟩
  | dishReady orderId itemId | itemCancelled orderId itemId =>
    obtain ⟨id, hid, h⟩ := bind_ok h
    obtain ⟨item, hitem, h⟩ := bind_ok h
    cases h
    exact ⟨hid, hitem⟩
  | completed orderId | cancelled orderId =>
    obtain ⟨id, hid, h⟩ := bind_ok h
    cases h
    exact hid

/-- Payloads that are read as the same event are handled in the same way. -/
theorem steps_congr (h : read ⟨e.name, data⟩ = .ok e) (h' : read ⟨e.name, data'⟩ = .ok e) :
    orderHandlers.steps e.name data = orderHandlers.steps e.name data' := by
  rw [steps_eq, steps_eq]
  have hgives := gives_of_read h
  have hgives' := gives_of_read h'
  cases e with
  | placed orderId tableNumber =>
    obtain ⟨hid, htable⟩ := hgives
    obtain ⟨hid', htable'⟩ := hgives'
    exact onPlaced_congr (hid.trans hid'.symm) (htable.trans htable'.symm)
  | itemAdded orderId itemId menuItemId itemName unitPrice quantity =>
    obtain ⟨hid, hitem, hprice, hnumber, hdish, hname⟩ := hgives
    obtain ⟨hid', hitem', hprice', hnumber', hdish', hname'⟩ := hgives'
    exact onItemAdded_congr (hid.trans hid'.symm) (hitem.trans hitem'.symm)
      (hprice.trans hprice'.symm) (hnumber.trans hnumber'.symm) (hdish.trans hdish'.symm)
      (hname.trans hname'.symm)
  | dishReady orderId itemId | itemCancelled orderId itemId =>
    obtain ⟨hid, hitem⟩ := hgives
    obtain ⟨hid', hitem'⟩ := hgives'
    exact setStatusOfItem_congr (hid.trans hid'.symm) (hitem.trans hitem'.symm)
  | completed orderId | cancelled orderId => exact setStatus_congr (hgives.trans hgives'.symm)

end OrderEvent

/-! ## Events of a menu item -/

namespace MenuItemEvent

/-- The fields of an event in the order in which they are declared. -/
def fieldNames : MenuItemEvent → List String
  | created .. => ["menu_item_id", "name", "price"]
  | soldOut _ | available _ => ["menu_item_id"]

/-- The price that an event tells, if it tells one. -/
def price? : MenuItemEvent → Option Decimal
  | created _ _ price => some price
  | _ => none

/-- What the handler of an event reads. -/
def read (f : Fields) : Except ProjectionError MenuItemEvent := do
  match f.eventType with
  | "MenuItemCreated" =>
    let menuItemId ← f.string "menu_item_id"
    let name ← f.string "name"
    let price ← f.decimal "price"
    return created menuItemId name price
  | "MenuItemSoldOut" =>
    let menuItemId ← f.string "menu_item_id"
    return soldOut menuItemId
  | "MenuItemAvailable" =>
    let menuItemId ← f.string "menu_item_id"
    return available menuItemId
  | eventType => throw (.unhandledEventType "MenuItemProjector" eventType)

variable {e : MenuItemEvent} {data data' : Payload}

theorem read_fields (hprice : ∀ d ∈ e.price?, ¬ d.IsNegativeZero) :
    read ⟨e.name, e.fields⟩ = .ok e := by
  cases e with
  | created menuItemId itemName price =>
    have hdecimal : Fields.decimal ⟨"MenuItemCreated",
        fields (created menuItemId itemName price)⟩ "price" = .ok price :=
      Fields.decimal_plain rfl (hprice price rfl)
    simp only [read, name, hdecimal]
    rfl
  | soldOut | available => rfl

/-- What each accessor gives when a payload is read as an event. -/
def Gives (data : Payload) : MenuItemEvent → Prop
  | created menuItemId name price =>
    Fields.string ⟨"MenuItemCreated", data⟩ "menu_item_id" = .ok menuItemId ∧
      Fields.string ⟨"MenuItemCreated", data⟩ "name" = .ok name ∧
      Fields.decimal ⟨"MenuItemCreated", data⟩ "price" = .ok price
  | soldOut menuItemId => Fields.string ⟨"MenuItemSoldOut", data⟩ "menu_item_id" = .ok menuItemId
  | available menuItemId =>
    Fields.string ⟨"MenuItemAvailable", data⟩ "menu_item_id" = .ok menuItemId

theorem gives_of_read (h : read ⟨e.name, data⟩ = .ok e) : e.Gives data := by
  cases e with
  | created menuItemId itemName price =>
    obtain ⟨id, hid, h⟩ := bind_ok h
    obtain ⟨name, hname, h⟩ := bind_ok h
    obtain ⟨price, hprice, h⟩ := bind_ok h
    cases h
    exact ⟨hid, hname, hprice⟩
  | soldOut menuItemId | available menuItemId =>
    obtain ⟨id, hid, h⟩ := bind_ok h
    cases h
    exact hid

/-- Payloads that are read as the same event are handled in the same way. -/
theorem steps_congr (h : read ⟨e.name, data⟩ = .ok e) (h' : read ⟨e.name, data'⟩ = .ok e) :
    menuItemHandlers.steps e.name data = menuItemHandlers.steps e.name data' := by
  rw [steps_eq, steps_eq]
  have hgives := gives_of_read h
  have hgives' := gives_of_read h'
  cases e with
  | created menuItemId itemName price =>
    obtain ⟨hid, hname, hprice⟩ := hgives
    obtain ⟨hid', hname', hprice'⟩ := hgives'
    exact onCreated_congr (hid.trans hid'.symm) (hname.trans hname'.symm)
      (hprice.trans hprice'.symm)
  | soldOut menuItemId | available menuItemId =>
    exact setAvailable_congr (hgives.trans hgives'.symm)

end MenuItemEvent

/-! ## Both kinds of events -/

/-- An event is written as flat data for exactly one of two projectors. Its handler reads off them
the event that was written, and does the same with whatever it reads as this event. -/
structure WireForm {Event : Type} (read : Fields → Except ProjectionError Event)
    (mine other : HandlerTable Steps) (fieldNames : List String) (e : Event)
    (event : DomainEvent) (data : Payload) : Prop where
  handled : event.name ∈ mine.eventTypes
  unhandled : event.name ∉ other.eventTypes
  written : event.payload = .ok data
  primitive : ∀ f ∈ data, f.2.isPrimitive = true
  names : data.map Prod.fst = fieldNames
  readBack : read ⟨event.name, data⟩ = .ok e
  sameSteps : ∀ data', read ⟨event.name, data'⟩ = .ok e →
    mine.steps event.name data' = mine.steps event.name data

/-- No type of event is for both projectors. -/
theorem eventTypes_disjoint : orderHandlers.eventTypes.Disjoint menuItemHandlers.eventTypes := by
  have hnone : ∀ name ∈ orderHandlers.eventTypes, name ∉ menuItemHandlers.eventTypes := by decide
  exact fun _ horder hmenu => hnone _ horder hmenu

theorem OrderEvent.wireForm {e : OrderEvent} (hrange : e.InRange)
    (hprice : ∀ d ∈ e.price?, ¬ d.IsNegativeZero) :
    WireForm OrderEvent.read orderHandlers menuItemHandlers e.fieldNames e e.toDomain e.fields := by
  have hprimitive := Story.isPrimitive_fields (α := Order) e
  have hread := OrderEvent.read_fields hrange hprice
  refine {
    handled := e.name_mem
    unhandled := eventTypes_disjoint e.name_mem
    written := DomainEvent.payload_ofFields e.name hprimitive
    primitive := hprimitive
    names := ?_
    readBack := hread
    sameSteps := fun data' hdata' => OrderEvent.steps_congr hdata' hread }
  cases e <;> rfl

theorem MenuItemEvent.wireForm {e : MenuItemEvent}
    (hprice : ∀ d ∈ e.price?, ¬ d.IsNegativeZero) :
    WireForm MenuItemEvent.read menuItemHandlers orderHandlers e.fieldNames e e.toDomain
      e.fields := by
  have hprimitive := Story.isPrimitive_fields (α := MenuItem) e
  have hread := MenuItemEvent.read_fields hprice
  refine {
    handled := e.name_mem
    unhandled := fun horder => eventTypes_disjoint horder e.name_mem
    written := DomainEvent.payload_ofFields e.name hprimitive
    primitive := hprimitive
    names := ?_
    readBack := hread
    sameSteps := fun data' hdata' => MenuItemEvent.steps_congr hdata' hread }
  cases e <;> rfl

/-- Every event is read as it was written, its numbers to the last place. -/
theorem events_travel_whole :
    (∀ e : OrderEvent, e.InRange → (∀ d ∈ e.price?, ¬ d.IsNegativeZero) →
      WireForm OrderEvent.read orderHandlers menuItemHandlers e.fieldNames e e.toDomain e.fields) ∧
    ∀ e : MenuItemEvent, (∀ d ∈ e.price?, ¬ d.IsNegativeZero) →
      WireForm MenuItemEvent.read menuItemHandlers orderHandlers e.fieldNames e e.toDomain
        e.fields :=
  ⟨fun _ => OrderEvent.wireForm, fun _ => MenuItemEvent.wireForm⟩

/-- As many digits and places as there can be. -/
def Decimal.longest : Decimal :=
  ⟨true, 79228162514264337593543950335, 28, by decide, by decide⟩

/-- An item that looks like numbers, at the limits of its numbers. -/
def OrderEvent.extreme : OrderEvent := .itemAdded "1" "1.0" "" "null" .longest (limit32 - 1)

theorem extreme_travels_whole :
    OrderEvent.extreme.InRange ∧
      (∀ d ∈ OrderEvent.extreme.price?, ¬ d.IsNegativeZero) ∧
      (OrderEvent.extreme.fields.lookup "unit_price").bind Fields.string? =
        some "-7.9228162514264337593543950335" ∧
      WireForm OrderEvent.read orderHandlers menuItemHandlers OrderEvent.extreme.fieldNames
        OrderEvent.extreme OrderEvent.extreme.toDomain OrderEvent.extreme.fields := by
  have hrange : OrderEvent.extreme.InRange := by
    show limit32 - 1 < limit32
    decide
  have hprice : ∀ d ∈ OrderEvent.extreme.price?, ¬ d.IsNegativeZero := by
    rintro d ⟨⟩ ⟨-, hzero⟩
    exact absurd hzero (by decide)
  exact ⟨hrange, hprice, by decide +kernel, events_travel_whole.1 _ hrange hprice⟩

end TableService
