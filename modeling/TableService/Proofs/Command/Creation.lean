import TableService.Proofs.Command.AllOrNothing
import TableService.Proofs.Command.Moments

/-!
# What a new aggregate takes the place of

A command that makes something new looks for the id as it was given, and stores what it makes under
the trimmed id. The two are the same only if the id has no blanks around it.

- `Creates`: what a creation that was accepted comes to.
- `accepted_creates`: so it is on all stores that commands can have left behind.
-/

namespace TableService

/-- Something new was committed for this id. -/
structure Creates (α : Type) [Aggregate α] [Collection α] (before after : Stores)
    (id : String) : Prop where
  /-- There was nothing under the id as it was given. -/
  absent : (Collection.committed (α := α) before)[id]? = none
  stored : ∃ a : α, Aggregate.id a = Text.trim id ∧
    (Collection.committed after)[Text.trim id]? =
      some ⟨versionOf (Collection.committed (α := α) before) (Text.trim id) + 1, a⟩
  others {other : String} : other ≠ Text.trim id →
    (Collection.committed (α := α) after)[other]? = (Collection.committed before)[other]?
  /-- It is the first of its id exactly if there was nothing under the trimmed id. -/
  version_eq_one_iff : versionOf (Collection.committed (α := α) after) (Text.trim id) = 1 ↔
    (Collection.committed (α := α) before)[Text.trim id]? = none
  /-- And so it is if the id was given without blanks around it. -/
  first_of_trimmed : Text.trim id = id →
    versionOf (Collection.committed (α := α) after) (Text.trim id) = 1

/-- Whatever is committed has a version. -/
theorem versionOf_eq_zero_iff {α : Type} {t : Table (Versioned α)}
    (h : (∅ : Table (Versioned α)).Advances t) {id : String} :
    versionOf t id = 0 ↔ t[id]? = none := by
  constructor
  · intro hzero
    rcases h id with heq | hlt
    · rw [heq, Std.ExtTreeMap.getElem?_empty]
    · rw [hzero] at hlt
      exact absurd hlt (Nat.not_lt_zero _)
  · intro hnone
    simp [versionOf, hnone]

theorem Stores.Reachable.advances {s : Stores} (h : s.Reachable) :
    (∅ : Table (Versioned Order)).Advances s.orders ∧
      (∅ : Table (Versioned MenuItem)).Advances s.menuItems := by
  obtain ⟨b, ⟨start, hempty, moves, rfl⟩, rfl⟩ := h
  obtain ⟨horders, hitems, -, -⟩ := Traffic.advances_run ⟨start, []⟩ moves
  rw [hempty] at horders hitems
  exact ⟨horders, hitems⟩

theorem Creates.of_committed {α : Type} [Aggregate α] [Collection α] {policy : RetryPolicy}
    {t : Instant} {before after : Stores} {a : α} {id : String}
    (hversions : (∅ : Table (Versioned α)).Advances (Collection.committed before))
    (hc : Committed policy t before after a) (hdrained : Aggregate.id (Aggregate.drained a) =
      Aggregate.id a) (hid : Aggregate.id a = Text.trim id)
    (habsent : (Collection.committed (α := α) before)[id]? = none) : Creates α before after id := by
  have hstored := hc.stored
  rw [hid] at hstored
  have hversion : versionOf (Collection.committed (α := α) after) (Text.trim id) =
      versionOf (Collection.committed (α := α) before) (Text.trim id) + 1 := by
    rw [versionOf, hstored]
    rfl
  refine ⟨habsent, ⟨_, hdrained.trans hid, hstored⟩, fun hne => hc.others (hid ▸ hne), ?_, ?_⟩
  · rw [hversion, Nat.add_eq_right, versionOf_eq_zero_iff hversions]
  · intro htrimmed
    rw [hversion, Nat.add_eq_right, versionOf_eq_zero_iff hversions, htrimmed]
    exact habsent

/-- A command that runs alone, makes something new and is accepted has found nothing under the id as
it was given. Nothing is replaced as long as ids are given without blanks around them, but otherwise
an aggregate under the trimmed id is. -/
theorem accepted_creates {b : Backend} (h : b.stores.Reachable) {policy : RetryPolicy}
    {command : Command} {count : Nat} (hok : (command.execute policy b).1 = .ok count) :
    (∀ {id name amount}, command = .createMenuItem id name amount →
      Creates MenuItem b.stores (command.execute policy b).2.stores id) ∧
    ∀ {id number lines}, command = .placeOrder id number lines →
      Creates Order b.stores (command.execute policy b).2.stores id := by
  have hspec := Command.execute_spec policy command h.settled
  rcases hexecute : command.execute policy b with ⟨result, b'⟩
  rw [hexecute] at hok hspec
  obtain rfl : result = .ok count := hok
  obtain ⟨horders, hitems⟩ := h.advances
  constructor
  · rintro id name amount rfl
    cases hspec with
    | menuItem change id_eq count_eq committed orders =>
      cases change with
      | created absent money make => exact .of_committed hitems committed rfl id_eq absent
    | order change => cases change
  · rintro id number lines rfl
    cases hspec with
    | menuItem change => cases change
    | order change id_eq count_eq committed menuItems =>
      cases change with
      | placed nonempty absent dishes seat make items =>
        exact .of_committed horders committed rfl id_eq absent

/-- The backend after tea was ordered once. -/
def Backend.withOrder : Backend := (Command.orderTea.execute {} .withTea).2

theorem orderTea_replaces :
    (Command.orderTea.execute {} .withOrder).1 = .ok 2 ∧
      Creates Order Backend.withOrder.stores (Command.orderTea.execute {} .withOrder).2.stores
        " o1 " ∧
      Backend.withOrder.stores.orders["o1"]?.isSome ∧
      versionOf (Command.orderTea.execute {} .withOrder).2.stores.orders "o1" = 2 := by
  have hreach : Backend.withOrder.stores.Reachable :=
    ⟨_, ((Backend.reachable_of_empty rfl).execute {} _).execute {} _, rfl⟩
  have hok : (Command.orderTea.execute {} .withOrder).1 = .ok 2 := by decide +kernel
  refine ⟨hok, (accepted_creates hreach hok).2 rfl, by decide +kernel, by decide +kernel⟩

end TableService
