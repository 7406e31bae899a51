import Std.Data.ExtTreeMap

/-!
# Tables keyed by text

- `Table`: finitely many values, each under its own key. Two tables with the same values under the
  same keys are equal, and a table is listed in ascending order of the keys.
- `tally`: how often each text occurs in a list.
-/

namespace TableService

/-- Finitely many values under texts as keys. -/
abbrev Table (α : Type u) := Std.ExtTreeMap String α

/-- Raises the count of a key by one. -/
def Table.count (counts : Table Nat) (key : String) : Table Nat :=
  counts.insert key (counts.getD key 0 + 1)

/-- Counts how often each text occurs. -/
def tally (keys : List String) : Table Nat :=
  keys.foldl Table.count ∅

theorem Table.getD_count (counts : Table Nat) (key other : String) :
    (counts.count key).getD other 0 = counts.getD other 0 + if key = other then 1 else 0 := by
  simp only [Table.count, Std.ExtTreeMap.getD_insert]
  by_cases h : key = other <;> simp [h]

/-- A tally counts each text as often as it occurs. -/
theorem getD_tally (keys : List String) (key : String) :
    (tally keys).getD key 0 = keys.count key := by
  suffices h : ∀ (keys : List String) (counts : Table Nat),
      (keys.foldl Table.count counts).getD key 0 = counts.getD key 0 + keys.count key by
    simpa [tally] using h keys ∅
  intro keys
  induction keys with
  | nil => simp
  | cons k rest ih =>
    intro counts
    rw [List.foldl_cons, ih, Table.getD_count, List.count_cons]
    by_cases h : k = key
    · simp [h]; omega
    · simp [h]

end TableService
