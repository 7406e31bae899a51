import TableService.Proofs.Command.Recorded
import TableService.Proofs.Command.Traffic
import TableService.Proofs.Command.Work

/-!
# A command is accepted as a whole, or leaves nothing behind

- `AllOrNothing`: what comes of a command that runs alone.
- `execute_all_or_nothing`: so it is on all stores that commands can have left behind.
-/

namespace TableService

/-- A command that is refused leaves the stores exactly as they were. One that is accepted commits
one aggregate, and its events behind the log. -/
def AllOrNothing (policy : RetryPolicy) (b : Backend) (command : Command) : Prop :=
  match command.execute policy b with
  | (.error _, b') => b'.stores = b.stores
  | (.ok count, b') => Accepts policy b command count b'.stores

/-- Whatever commands have left behind in whatever turns, and whatever the ids are that come next:
what is committed has handed on all its events, and the next command that runs alone is all or
nothing. -/
theorem execute_all_or_nothing {b : Backend} (h : b.stores.Reachable) (policy : RetryPolicy)
    (command : Command) : b.stores.Settled ∧ AllOrNothing policy b command := by
  refine ⟨h.settled, ?_⟩
  have hspec := Command.execute_spec policy command h.settled
  unfold AllOrNothing
  revert hspec
  rcases command.execute policy b with ⟨_ | count, b'⟩
  · exact id
  · exact id

/-- A backend at the start, whose ids are all different. -/
def Backend.fresh : Backend where
  stores := {}
  clock := ⟨0, 0, by decide, by decide, by decide⟩
  ids := { text := fun n => String.ofList (List.replicate (n + 1) 'i') }

theorem Backend.fresh_stores : Backend.fresh.stores = {} := rfl

theorem Backend.fresh_ids : Backend.fresh.ids.Fresh where
  injective m n h := by
    have hlist : List.replicate (m + 1) 'i' = List.replicate (n + 1) 'i' :=
      String.ofList_injective h
    simpa using congrArg List.length hlist
  required n := by
    have hsolid : ∀ c ∈ List.replicate (n + 1) 'i', Text.isBlank c = false := by
      intro c hc
      rw [List.eq_of_mem_replicate hc]
      decide
    have htrim : Text.trim (Backend.fresh.ids.text n) = Backend.fresh.ids.text n := by
      rw [Text.trim, show (Backend.fresh.ids.text n).toList = _ from String.toList_ofList]
      refine congrArg String.ofList (Text.trimChars_eq_self ?_ ?_)
      · exact fun c hc => hsolid c (List.mem_of_mem_head? hc)
      · exact fun c hc => hsolid c (List.mem_of_mem_getLast? hc)
    refine Text.required?_eq_some_iff.mpr ⟨htrim.symm, fun hempty => ?_⟩
    have hlist : List.replicate (n + 1) 'i' = [] := String.ofList_injective hempty
    simp at hlist

theorem three_lt_limit96 : 3 < limit96 := by decide

/-- Puts the first dish on the menu. -/
def Command.createTea : Command := .createMenuItem "tea" "Tea" (.whole 3 three_lt_limit96)

/-- A table orders it. -/
def Command.placeTea : Command :=
  .placeOrder "o1" 4 [⟨"tea", "Tea", .whole 3 three_lt_limit96, 2⟩]

/-- The backend after a first dish has been put on the menu. -/
def Backend.withTea : Backend :=
  (Command.execute {} .fresh (.createMenuItem "tea" "Tea" (.whole 3 (by decide)))).2

/-- The same order under an id with blanks around it. -/
def Command.orderTea : Command :=
  .placeOrder " o1 " 4 [⟨"tea", "Tea", .whole 3 (by decide), 2⟩]

theorem orderTea_all_or_nothing :
    (Command.orderTea.execute {} .withTea).1 = .ok 2 ∧ AllOrNothing {} .withTea .orderTea := by
  have hreach : Backend.withTea.stores.Reachable :=
    ⟨_, (Backend.reachable_of_empty rfl).execute {} _, rfl⟩
  exact ⟨by decide +kernel, (execute_all_or_nothing hreach {} .orderTea).2⟩

end TableService
