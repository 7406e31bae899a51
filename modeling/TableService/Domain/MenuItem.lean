import TableService.Domain.Event
import TableService.Domain.Validation

/-!
# Menu items

- `MenuItem`: a dish with its price, either available or sold out.
- `MenuItemEvent`: what is recorded of it.

Marking an item as what it already is records nothing.
-/

namespace TableService

/-- What happens to a menu item. Each event names the item. -/
inductive MenuItemEvent where
  | created (menuItemId name : String) (price : Decimal)
  | soldOut (menuItemId : String)
  | available (menuItemId : String)
deriving DecidableEq

namespace MenuItemEvent

/-- The type under which projectors know the event. -/
def name : MenuItemEvent → String
  | created .. => "MenuItemCreated"
  | soldOut _ => "MenuItemSoldOut"
  | available _ => "MenuItemAvailable"

/-- The data of the event. Prices are written as texts. -/
def fields : MenuItemEvent → Payload
  | created menuItemId name price =>
    [("menu_item_id", .str menuItemId), ("name", .str name), ("price", .str price.text)]
  | soldOut menuItemId => [("menu_item_id", .str menuItemId)]
  | available menuItemId => [("menu_item_id", .str menuItemId)]

/-- The event as it goes into the outbox. -/
def toDomain (e : MenuItemEvent) : DomainEvent := .ofFields e.name e.fields

end MenuItemEvent

/-- A dish. `recorded` are its events that have not been handed on yet, oldest first. -/
structure MenuItem where
  id : String
  name : String
  price : Money
  available : Bool
  recorded : List MenuItemEvent
deriving DecidableEq

namespace MenuItem

/-- A new dish, which is available. Blank texts are refused, the id before the name. -/
def create (id name : String) (price : Money) : Except ValidationError MenuItem := do
  let id ← requireText "MenuItem" "id" id
  let name ← requireText "MenuItem" "name" name
  return { id, name, price, available := true, recorded := [.created id name price.amount] }

/-- Takes the dish off the menu. Nothing is recorded of a dish that is sold out already. -/
def markSoldOut (item : MenuItem) : MenuItem :=
  if item.available then
    { item with available := false, recorded := item.recorded ++ [.soldOut item.id] }
  else item

/-- Puts the dish back on the menu. Nothing is recorded of a dish that is available already. -/
def markAvailable (item : MenuItem) : MenuItem :=
  if item.available then item
  else { item with available := true, recorded := item.recorded ++ [.available item.id] }

/-- The dish when its events have been handed on. -/
def drained (item : MenuItem) : MenuItem := { item with recorded := [] }

instance : Aggregate MenuItem where
  kind := "MenuItem"
  id := id
  events item := item.recorded.map MenuItemEvent.toDomain
  drained := drained

end MenuItem

/-- The requested items that are missing or sold out. -/
inductive MenuItemError where
  | notAvailable (ids : List String)
deriving DecidableEq

/-- The ids are listed in the order of the request. -/
def MenuItemError.message : MenuItemError → String
  | notAvailable ids => "Menu items not available: " ++ ", ".intercalate ids

/-- Refuses a request with the ids that no available item has, in the order of the request. -/
def verifyAvailable (requested : List String) (items : List MenuItem) : Except MenuItemError Unit :=
  let missing := requested.filter fun id => !items.any fun m => m.id == id && m.available
  if missing = [] then .ok () else .error (.notAvailable missing)

end TableService
