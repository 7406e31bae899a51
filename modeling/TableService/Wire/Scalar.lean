import TableService.Domain.Order
import TableService.Json.Record
import TableService.Number.DecimalText
import TableService.Outbox.Entry
import TableService.Time.Rfc3339

/-!
# Single values on the wire

- `Decimal.toJson`, `Decimal.ofJson?`: a decimal is written as a text, and read from a number too.
- `Instant.toJson`, `Instant.ofJson?`: times are texts.
- `OrderStatus.ofText?`, `ItemStatus.ofText?`, `EntryStatus.ofText?`: the status of a name.
- `Json.ofOption`: a missing value is null.
-/

namespace TableService

/-- A value, or null in its place. -/
def Json.ofOption (write : α → Json) : Option α → Json
  | none => .null
  | some a => write a

/-- All places are kept. -/
def Decimal.toJson (d : Decimal) : Json := .str d.text

/-- A floating-point number stands for its shortest numeral without a power of ten. -/
def Decimal.ofJson? : Json → Option Decimal
  | .str s => Decimal.ofText? s
  | .int n => Decimal.ofInt? n
  | .float x => Decimal.ofText? x.plainText
  | _ => none

/-- The time in UTC. -/
def Instant.toJson (t : Instant) : Json := .str t.text

/-- A time with any offset from UTC. -/
def Instant.ofJson? (v : Json) : Option Instant :=
  v.text?.bind Instant.ofText?

/-- The status that is shown like this. -/
def OrderStatus.ofText? : String → Option OrderStatus
  | "open" => some opened
  | "completed" => some completed
  | "cancelled" => some cancelled
  | _ => none

/-- The status that is shown like this. -/
def ItemStatus.ofText? : String → Option ItemStatus
  | "pending" => some pending
  | "ready" => some ready
  | "cancelled" => some cancelled
  | _ => none

/-- The status that is shown like this. -/
def EntryStatus.ofText? : String → Option EntryStatus
  | "pending" => some pending
  | "processed" => some processed
  | "failed" => some failed
  | "dead_lettered" => some deadLettered
  | _ => none

theorem EntryStatus.ofText?_text (s : EntryStatus) : ofText? s.text = some s := by cases s <;> rfl

end TableService
