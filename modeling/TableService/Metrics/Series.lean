import Std.Data.ExtTreeMap

/-!
# Series of a metric

- `fingerprint`: 64 bits that stand for the values of a metric's labels.
- `Series`: what a metric has counted, under the fingerprint of its label values.
- `Series.update`: counts something. Label values with the same fingerprint share one count, which
  keeps the values it was begun with.
- `Series.toList`: all counts, by their label values in ascending order.

A fingerprint is taken from the bytes of all values one behind the other, so values with the same
bytes share a count however the bytes are divided among the labels.
-/

namespace TableService

/-- The values of a metric's labels, in the order of the labels. -/
abbrev LabelValues := List String

namespace LabelValues

/-- The bytes of all values, one value behind the other. -/
def bytes (values : LabelValues) : List UInt8 :=
  values.flatMap fun v => v.toList.flatMap String.utf8EncodeChar

/-- Takes one more byte into a fingerprint. -/
def absorb (h : UInt64) (b : UInt8) : UInt64 :=
  (h ^^^ b.toUInt64) * 0x100000001B3

/-- The bytes are taken in from the first to the last. -/
def fingerprint (values : LabelValues) : UInt64 :=
  values.bytes.foldl absorb 0xCBF29CE484222325

/-- The first values that differ decide. -/
def cmp : LabelValues → LabelValues → Ordering
  | [], [] => .eq
  | [], _ :: _ => .lt
  | _ :: _, [] => .gt
  | a :: as, b :: bs => (compare a b).then (cmp as bs)

end LabelValues

/-- Under each fingerprint, what was counted and the label values that came first. -/
abbrev Series (α : Type) := Std.ExtTreeMap UInt64 (LabelValues × α)

namespace Series

/-- What has been counted under the fingerprint of these values. -/
def get? (s : Series α) (values : LabelValues) : Option α :=
  s[values.fingerprint]?.map (·.2)

/-- Changes the count of some label values, which is `start` before anything has been counted. -/
def update (s : Series α) (values : LabelValues) (start : α) (f : α → α) : Series α :=
  match s[values.fingerprint]? with
  | some (first, a) => s.insert values.fingerprint (first, f a)
  | none => s.insert values.fingerprint (values, f start)

/-- Counts one more. -/
def count (s : Series Nat) (values : LabelValues) : Series Nat :=
  s.update values 0 (· + 1)

/-- Each count with the label values that it was begun with. -/
def toList (s : Series α) : List (LabelValues × α) :=
  s.values.mergeSort fun a b => (a.1.cmp b.1).isLE

theorem get?_update (s : Series α) (values other : LabelValues) (start : α) (f : α → α) :
    (s.update values start f).get? other =
      if values.fingerprint = other.fingerprint then some (f ((s.get? values).getD start))
      else s.get? other := by
  simp only [update, get?]
  split
  all_goals
    next h =>
      rw [Std.ExtTreeMap.getElem?_insert, h]
      simp only [Std.LawfulEqCmp.compare_eq_iff_eq]
      split <;> rfl

end Series

example : LabelValues.fingerprint ["8yn0iYCKYHlIj4-BwPqk"] =
      LabelValues.fingerprint ["GReLUrM4wMqfg9yzV3KQ"]
    ∧ LabelValues.fingerprint ["a"] ≠ LabelValues.fingerprint ["b"] := by decide +kernel

end TableService
