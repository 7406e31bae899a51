import TableService.Number.DecimalText
import TableService.Number.Limits
import TableService.Text.Blank

/-!
# Checked values

- `Money`: an amount that is not negative.
- `Quantity`, `TableNumber`: whole numbers from 1 up to below `2 ^ 32`.
- `requireText`: the trimmed text of a field that must not be blank.
- `ValidationError`: what a value is refused for.
-/

namespace TableService

/-- What is wrong with a value. It is reported with the value itself, or with the field that is
blank. -/
inductive ValidationError where
  | requiredField (entity field : String)
  | negativeMoney (amount : Decimal)
  | invalidQuantity (value : Int)
  | invalidTableNumber (value : Int)
deriving DecidableEq

namespace ValidationError

/-- How the refusal is reported. -/
def message : ValidationError → String
  | requiredField entity field => entity ++ "." ++ field ++ " is required"
  | negativeMoney amount => "Money cannot be negative: " ++ amount.text
  | invalidQuantity value => "Invalid quantity: " ++ Text.Numeral.intText value
  | invalidTableNumber value => "Invalid table number: " ++ Text.Numeral.intText value

end ValidationError

/-- The trimmed text of a field, unless it is blank throughout. -/
def requireText (entity field value : String) : Except ValidationError String :=
  match Text.required? value with
  | some t => .ok t
  | none => .error (.requiredField entity field)

/-- An amount of money. A negative one cannot be made. -/
structure Money where
  amount : Decimal
  nonneg : 0 ≤ amount.coeff
deriving DecidableEq

/-- How many of a dish are ordered. -/
structure Quantity where
  value : Nat
  pos : 0 < value
  lt : value < limit32
deriving DecidableEq

/-- The number of a table. -/
structure TableNumber where
  value : Nat
  pos : 0 < value
  lt : value < limit32
deriving DecidableEq

namespace Quantity

/-- The quantity of so many, if it is in range. -/
def of? (n : Int) : Except ValidationError Quantity :=
  if h : 0 < n.toNat ∧ n.toNat < limit32 then .ok ⟨n.toNat, h.1, h.2⟩
  else .error (.invalidQuantity n)

theorem lt_limit96 (q : Quantity) : q.value < limit96 :=
  Nat.lt_trans q.lt (by decide)

/-- The quantity as a number without places. -/
def amount (q : Quantity) : Decimal := .whole q.value q.lt_limit96

end Quantity

/-- The table with this number, if it is in range. -/
def TableNumber.of? (n : Int) : Except ValidationError TableNumber :=
  if h : 0 < n.toNat ∧ n.toNat < limit32 then .ok ⟨n.toNat, h.1, h.2⟩
  else .error (.invalidTableNumber n)

namespace Money

/-- The amount, unless it is negative. -/
def of? (amount : Decimal) : Except ValidationError Money :=
  if h : 0 ≤ amount.coeff then .ok ⟨amount, h⟩ else .error (.negativeMoney amount)

/-- The price of so many, unless the product is too large. -/
def times? (m : Money) (q : Quantity) : Option Money :=
  match h : m.amount.mul? q.amount with
  | some d => some ⟨d, Decimal.coeff_nonneg_of_mul? m.nonneg (Int.natCast_nonneg _) h⟩
  | none => none

end Money

end TableService
