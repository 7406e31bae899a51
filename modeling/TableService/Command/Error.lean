import TableService.Store.UnitOfWork

/-!
# Why a command is refused

- `CommandError`: the causes, each with the text that reports it.
-/

namespace TableService

/-- Why a command is refused. Refusals of the parts that a command consists of are passed on. -/
inductive CommandError where
  | validation (e : ValidationError)
  | order (e : OrderError)
  | menuItem (e : MenuItemError)
  | orderNotFound (id : String)
  | orderAlreadyExists (id : String)
  | menuItemNotFound (id : String)
  | menuItemAlreadyExists (id : String)
  | unitOfWork (e : UnitOfWorkError)
  | outbox (e : OutboxError)
deriving DecidableEq

/-- How the refusal is reported. What is passed on keeps its own text. -/
def CommandError.message : CommandError → String
  | validation e => e.message
  | order e => e.message
  | menuItem e => e.message
  | orderNotFound id => "Order '" ++ id ++ "' not found"
  | orderAlreadyExists id => "Order '" ++ id ++ "' already exists"
  | menuItemNotFound id => "Menu item '" ++ id ++ "' not found"
  | menuItemAlreadyExists id => "Menu item '" ++ id ++ "' already exists"
  | unitOfWork e => e.message
  | outbox e => e.message

end TableService
