import TableService.Domain.Event
import TableService.Store.Table

/-!
# Staged changes over a committed table

- `Versioned`: a committed value and how often its key has been committed.
- `StagedTable`: changes that are not committed yet, and for each key that was touched the version
  that was committed then.
- `StagedTable.find`, `save`: reading and writing through the changes.
- `StagedTable.conflict?`: a staged key whose committed version has moved on.
- `StagedTable.merge`: the committed table with the changes.
-/

namespace TableService

/-- A committed value. The version counts how often its key has been committed. -/
structure Versioned (α : Type) where
  version : Nat
  value : α

/-- The committed version of a key; one that has never been committed has version 0. -/
def versionOf (committed : Table (Versioned α)) (id : String) : Nat :=
  (committed[id]?.map Versioned.version).getD 0

/-- Commits a value under a key. -/
def bump (committed : Table (Versioned α)) (id : String) (value : α) : Table (Versioned α) :=
  committed.insert id ⟨versionOf committed id + 1, value⟩

/-- A staged key with the version that was seen and the one that is committed. -/
structure Conflict where
  id : String
  expected : Nat
  actual : Nat
deriving DecidableEq

/-- What is staged, and under `observed` the version of each key when it was first touched. -/
structure StagedTable (α : Type) where
  staged : Table α := ∅
  observed : Table Nat := ∅

namespace StagedTable

/-- Remembers the committed version of a key that is touched for the first time. -/
def observe (t : StagedTable α) (committed : Table (Versioned α)) (id : String) : StagedTable α :=
  { t with observed := t.observed.insertIfNew id (versionOf committed id) }

/-- A staged value comes before a committed one. Only a look at the committed table is
remembered. -/
def find (t : StagedTable α) (committed : Table (Versioned α)) (id : String) :
    Option α × StagedTable α :=
  match t.staged[id]? with
  | some value => (some value, t)
  | none => (committed[id]?.map Versioned.value, t.observe committed id)

/-- Stages a value under its own id, which is then touched. -/
def save [Aggregate α] (t : StagedTable α) (committed : Table (Versioned α)) (value : α) :
    StagedTable α :=
  let t := t.observe committed (Aggregate.id value)
  { t with staged := t.staged.insert (Aggregate.id value) value }

/-- Whether a staged key is still at the version that was seen. -/
def conflictAt? (t : StagedTable α) (committed : Table (Versioned α)) (id : String) :
    Option Conflict :=
  let expected := t.observed.getD id 0
  let actual := versionOf committed id
  if expected = actual then none else some { id, expected, actual }

/-- The first staged key, in ascending order, that is not at the version that was seen. -/
def conflict? (t : StagedTable α) (committed : Table (Versioned α)) : Option Conflict :=
  t.staged.keys.findSome? (t.conflictAt? committed)

/-- Commits all that is staged. Every version goes up by one. -/
def merge (t : StagedTable α) (committed : Table (Versioned α)) : Table (Versioned α) :=
  t.staged.foldl bump committed

theorem versionOf_bump_of_ne (committed : Table (Versioned α)) {id other : String} (value : α)
    (h : id ≠ other) : versionOf (bump committed id value) other = versionOf committed other := by
  simp [versionOf, bump, Std.ExtTreeMap.getElem?_insert, h]

end StagedTable

end TableService
