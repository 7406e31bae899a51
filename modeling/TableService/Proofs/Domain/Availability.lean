import Mathlib.Data.List.Induction
import TableService.Proofs.Domain.Story

/-!
# Whether a menu item is told to be available

- `MenuItemState.leads_created`: a menu item is created by its first event and by no other.
- `MenuItemState.replay_of_perm`: the last event since the creation decides, in whatever order
  events come.
-/

namespace TableService

namespace MenuItemEvent

/-- Whether the item is new with the event. -/
def isCreated : MenuItemEvent → Bool
  | created .. => true
  | soldOut _ | available _ => false

/-- Whether the item is available behind the event. -/
def offers : MenuItemEvent → Bool
  | created .. | available _ => true
  | soldOut _ => false

/-- The events from the creation on. -/
def sinceCreation (events : List MenuItemEvent) : List MenuItemEvent :=
  events.dropWhile (!·.isCreated)

end MenuItemEvent

open MenuItemEvent

namespace MenuItemState

variable {events others : List (Story.Event MenuItem)}

theorem foldl_after_none (h : ∀ e ∈ events, isCreated e = false) :
    events.foldl after none = none := by
  induction events with
  | nil => rfl
  | cons e rest ih =>
    have he := h e List.mem_cons_self
    cases e with
    | created => cases he
    | soldOut | available => exact ih fun e he => h e (List.mem_cons_of_mem _ he)

theorem foldl_after_some {s : MenuItemState} (h : ∀ e ∈ events, isCreated e = false) :
    events.foldl after (some s) =
      some { s with available := (events.getLast?.map offers).getD s.available } := by
  induction events using List.reverseRecOn with
  | nil => rfl
  | append_singleton events e ih =>
    have he := h e (List.mem_append_right _ List.mem_cons_self)
    rw [List.foldl_append, ih fun e he => h e (List.mem_append_left _ he), List.getLast?_concat]
    cases e with
    | created => cases he
    | soldOut | available => rfl

/-- Nothing comes before the creation of an item, and it is not created again. -/
theorem leads_created {s : MenuItemState} (h : Leads MenuItem none events (some s)) :
    ∃ id name price rest, events = .created id name price :: rest ∧
      ∀ e ∈ rest, isCreated e = false := by
  have hrest : ∀ {rest : List MenuItemEvent} {s : MenuItemState}
      {t : Option (Story.State MenuItem)},
      Leads MenuItem (some s) rest t → ∀ e ∈ rest, isCreated e = false := by
    intro rest
    induction rest with
    | nil => exact fun _ e he => absurd he List.not_mem_nil
    | cons first rest ih =>
      intro s t h e he
      cases h with
      | cons fits next =>
        cases first with
        | created => exact fits.elim
        | soldOut | available =>
          rcases List.mem_cons.mp he with rfl | he
          · rfl
          · exact ih next e he
  cases h with
  | cons fits next =>
    rename_i first rest
    cases first with
    | created id name price => exact ⟨id, name, price, rest, rfl, hrest next⟩
    | soldOut | available => exact fits.elim

/-- In another order the events tell the same, up to the one that comes last behind the creation. -/
theorem replay_of_perm {s : MenuItemState} (h : Leads MenuItem none events (some s))
    (hperm : others.Perm events) : ∃ available,
      Story.replay MenuItem others = some { s with available } ∧
        (sinceCreation others).getLast?.map offers = some available ∧
        events.getLast?.map offers = some s.available := by
  obtain ⟨id, name, price, rest, rfl, hrest⟩ := leads_created h
  -- the one creation splits the other order in two
  obtain ⟨front, back, rfl⟩ := List.append_of_mem (hperm.symm.subset List.mem_cons_self)
  have hmiddle : (front ++ back).Perm rest := List.Perm.cons_inv (List.perm_middle.symm.trans hperm)
  have hfront : ∀ e ∈ front, isCreated e = false := by
    intro e he
    exact hrest e (hmiddle.subset (List.mem_append_left _ he))
  have hback : ∀ e ∈ back, isCreated e = false := by
    intro e he
    exact hrest e (hmiddle.subset (List.mem_append_right _ he))
  have hlast : ∀ rest : List MenuItemEvent,
      (MenuItemEvent.created id name price :: rest).getLast?.map offers =
        some ((rest.getLast?.map offers).getD true) := by
    intro rest
    rw [List.getLast?_cons]
    cases rest.getLast? with
    | none => rfl
    | some e => rfl
  have hs : s = ⟨id, name, price, (rest.getLast?.map offers).getD true⟩ := by
    have htold := h.foldl_eq
    rw [List.foldl_cons] at htold
    exact (Option.some.inj ((foldl_after_some hrest).symm.trans htold)).symm
  refine ⟨(back.getLast?.map offers).getD true, ?_, ?_, ?_⟩
  · -- what comes before the creation does nothing
    rw [Story.replay, List.foldl_append]
    change List.foldl after (List.foldl after none front) _ = _
    rw [foldl_after_none hfront, hs]
    exact foldl_after_some hback
  · have hdrop : sinceCreation (front ++ .created id name price :: back) =
        .created id name price :: back := by
      rw [sinceCreation, List.dropWhile_append_of_pos fun e he => by rw [hfront e he]; rfl]
      rfl
    rw [hdrop, hlast back]
  · rw [hlast rest, hs]

end MenuItemState

end TableService
