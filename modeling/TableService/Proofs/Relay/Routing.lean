import Mathlib.Data.List.Nodup
import TableService.Proofs.Store.Tables
import TableService.Relay.Registry

/-!
# Which projector an event is routed to

The projectors claim their event types one after the other.

- `Registry.Holds`: a registry holds exactly the claims that have been made, each to its own type.
- `Registry.Holds.claim_new`, `claim_again`: one claim more is taken if its type is new, and refused
  if it is not.
- `Registry.IsFirstRepeat`: the first claim to a type that has been claimed before.
- `Registry.Serves`: each type goes to the one projector that lists it.
- `Registry.registration`: when there is a registry for a list of projectors, and why there is none.
-/

namespace TableService.Registry

variable {α : Type}

/-- The claims so far, with no two to the same type. -/
structure Holds (r : Registry α) (claimed : List (Projector α × String)) : Prop where
  nodup : (claimed.map Prod.snd).Nodup
  getElem?_iff {eventType : String} {p : Projector α} :
    r[eventType]? = some p ↔ (p, eventType) ∈ claimed

/-- The first claim to a type that has been claimed before, and who has claimed it. -/
def IsFirstRepeat (claims : List (Projector α × String)) (existing duplicate : Projector α)
    (eventType : String) : Prop :=
  ∃ before after, claims = before ++ (duplicate, eventType) :: after ∧
    (before.map Prod.snd).Nodup ∧ (existing, eventType) ∈ before

variable {r : Registry α} {claimed rest : List (Projector α × String)} {p : Projector α}
  {eventType : String}

theorem holds_empty : Holds (∅ : Registry α) [] where
  nodup := List.nodup_nil
  getElem?_iff := by simp

namespace Holds

theorem getElem?_eq_none_iff (h : r.Holds claimed) :
    r[eventType]? = none ↔ eventType ∉ claimed.map Prod.snd := by
  rw [Option.eq_none_iff_forall_not_mem]
  simp [h.getElem?_iff]

/-- A claim to a new type is taken. -/
theorem claim_new (h : r.Holds claimed) (hnew : eventType ∉ claimed.map Prod.snd)
    (p : Projector α) :
    r.claim p eventType = .ok (r.insert eventType p) ∧
      Holds (r.insert eventType p) (claimed ++ [(p, eventType)]) := by
  refine ⟨by rw [claim, h.getElem?_eq_none_iff.mpr hnew], ?_, ?_⟩
  · rw [List.map_append, List.map_singleton, List.nodup_append_comm]
    exact List.nodup_cons.mpr ⟨hnew, h.nodup⟩
  · intro t q
    rw [List.mem_append, List.mem_singleton, Prod.mk.injEq]
    by_cases ht : eventType = t
    · subst ht
      have hout : (q, eventType) ∉ claimed := fun hmem => hnew (List.mem_map.mpr ⟨_, hmem, rfl⟩)
      simp [hout, eq_comm]
    · rw [Table.getElem?_insert_of_ne ht, h.getElem?_iff]
      simp [Ne.symm ht]

/-- A claim to a type that has been claimed is refused, with both names. -/
theorem claim_again (h : r.Holds claimed) {existing : Projector α}
    (hmem : (existing, eventType) ∈ claimed) (p : Projector α) :
    r.claim p eventType = .error (.duplicateEventType eventType existing.name p.name) := by
  rw [claim, h.getElem?_iff.mpr hmem]

/-- One claim after the other is taken, up to the first that repeats a type. -/
theorem foldlM (h : r.Holds claimed) (rest : List (Projector α × String)) :
    (∃ r', rest.foldlM (fun r (c : Projector α × String) => claim r c.1 c.2) r = .ok r' ∧
      r'.Holds (claimed ++ rest)) ∨
    ∃ existing duplicate eventType, IsFirstRepeat (claimed ++ rest) existing duplicate eventType ∧
      rest.foldlM (fun r (c : Projector α × String) => claim r c.1 c.2) r =
        .error (.duplicateEventType eventType existing.name duplicate.name) := by
  induction rest generalizing r claimed with
  | nil => exact .inl ⟨r, rfl, by rwa [List.append_nil]⟩
  | cons c rest ih =>
    obtain ⟨p, eventType⟩ := c
    by_cases hnew : eventType ∈ claimed.map Prod.snd
    · obtain ⟨⟨existing, _⟩, hmem, rfl⟩ := List.mem_map.mp hnew
      refine .inr ⟨existing, p, _, ⟨claimed, rest, rfl, h.nodup, hmem⟩, ?_⟩
      rw [List.foldlM_cons, h.claim_again hmem]
      rfl
    · obtain ⟨hok, hholds⟩ := h.claim_new hnew p
      have hrest := ih hholds
      rw [List.append_assoc, List.singleton_append] at hrest
      rwa [List.foldlM_cons, hok]

end Holds

/-- What is claimed is what is listed. -/
theorem map_snd_claims (projectors : List (Projector α)) :
    (claims projectors).map Prod.snd = projectors.flatMap (·.eventTypes) := by
  simp [claims, List.map_flatMap, Function.comp_def]

theorem mem_claims {projectors : List (Projector α)} :
    (p, eventType) ∈ claims projectors ↔ p ∈ projectors ∧ eventType ∈ p.eventTypes := by
  simp only [claims, List.mem_flatMap, List.mem_map, Prod.mk.injEq]
  constructor
  · rintro ⟨q, hq, t, ht, rfl, rfl⟩
    exact ⟨hq, ht⟩
  · rintro ⟨hp, ht⟩
    exact ⟨p, hp, eventType, ht, rfl, rfl⟩

/-- Each type that a projector lists goes to this one, and to it alone. -/
structure Serves (r : Registry α) (projectors : List (Projector α)) : Prop where
  routed : ∀ p ∈ projectors, ∀ eventType ∈ p.eventTypes, r[eventType]? = some p
  alone {i j : ℕ} {p q : Projector α} {eventType : String} :
    projectors[i]? = some p → projectors[j]? = some q →
      eventType ∈ p.eventTypes → eventType ∈ q.eventTypes → i = j
  unrouted (eventType : String) :
    (∀ p ∈ projectors, eventType ∉ p.eventTypes) → r[eventType]? = none
  listed (eventType : String) :
    eventType ∈ r.eventTypes ↔ ∃ p ∈ projectors, eventType ∈ p.eventTypes
  ascending : r.eventTypes.Pairwise (· < ·)

theorem pairwise_eventTypes (r : Registry α) : r.eventTypes.Pairwise (· < ·) := by
  refine Std.ExtTreeMap.ordered_keys.imp ?_
  intro a b h
  exact compareOfLessAndEq_eq_lt.mp h

theorem mem_eventTypes : eventType ∈ r.eventTypes ↔ ∃ p, r[eventType]? = some p := by
  rw [eventTypes, Std.ExtTreeMap.mem_keys, Std.ExtTreeMap.mem_iff_isSome_getElem?,
    Option.isSome_iff_exists]

/-- A type that is listed once is listed in one place. -/
theorem alone_of_nodup {projectors : List (Projector α)}
    (h : (projectors.flatMap (·.eventTypes)).Nodup) {i j : ℕ} {p q : Projector α}
    (hi : projectors[i]? = some p) (hj : projectors[j]? = some q)
    (hp : eventType ∈ p.eventTypes) (hq : eventType ∈ q.eventTypes) : i = j := by
  have hapart := List.pairwise_iff_getElem.mp (List.nodup_flatMap.mp h).2
  obtain ⟨hilt, rfl⟩ := List.getElem?_eq_some_iff.mp hi
  obtain ⟨hjlt, rfl⟩ := List.getElem?_eq_some_iff.mp hj
  rcases Nat.lt_trichotomy i j with hlt | heq | hgt
  · exact absurd hq (hapart i j hilt hjlt hlt hp)
  · exact heq
  · exact absurd hp (hapart j i hjlt hilt hgt hq)

theorem Holds.serves {projectors : List (Projector α)} (h : r.Holds (claims projectors)) :
    r.Serves projectors where
  routed p hp t ht := h.getElem?_iff.mpr (mem_claims.mpr ⟨hp, ht⟩)
  alone hi hj hp hq := alone_of_nodup (map_snd_claims projectors ▸ h.nodup) hi hj hp hq
  unrouted t ht := by
    rw [h.getElem?_eq_none_iff, map_snd_claims, List.mem_flatMap]
    rintro ⟨p, hp, hmem⟩
    exact ht p hp hmem
  listed t := by
    rw [mem_eventTypes]
    simp only [h.getElem?_iff, mem_claims]
  ascending := r.pairwise_eventTypes

theorem IsFirstRepeat.not_nodup {claims : List (Projector α × String)}
    {existing duplicate : Projector α} (h : IsFirstRepeat claims existing duplicate eventType) :
    ¬ (claims.map Prod.snd).Nodup := by
  obtain ⟨before, after, rfl, -, hmem⟩ := h
  rw [List.map_append, List.map_cons]
  intro hnodup
  exact (List.nodup_append.mp hnodup).2.2 eventType (List.mem_map.mpr ⟨_, hmem, rfl⟩) eventType
    List.mem_cons_self rfl

theorem ofProjectors_cases (projectors : List (Projector α)) :
    (∃ r, ofProjectors projectors = .ok r ∧ r.Holds (claims projectors)) ∨
    ∃ existing duplicate eventType, IsFirstRepeat (claims projectors) existing duplicate eventType ∧
      ofProjectors projectors =
        .error (.duplicateEventType eventType existing.name duplicate.name) :=
  holds_empty.foldlM (claims projectors)

theorem holds_of_ofProjectors {projectors : List (Projector α)}
    (h : ofProjectors projectors = .ok r) : r.Holds (claims projectors) := by
  rcases ofProjectors_cases projectors with ⟨r', hok, hholds⟩ | ⟨_, _, _, -, herror⟩
  · rw [h] at hok
    cases hok
    exact hholds
  · rw [h] at herror
    cases herror

/-- Every type that is claimed is routed to the projector that claims it. -/
theorem getElem?_of_mem_claims {projectors : List (Projector α)}
    (h : ofProjectors projectors = .ok r) (hp : p ∈ projectors) (ht : eventType ∈ p.eventTypes) :
    r[eventType]? = some p :=
  (holds_of_ofProjectors h).serves.routed p hp eventType ht

/-- There is a registry exactly if no type is listed twice, and it serves the projectors. If there
is none, the first claim that repeats a type is reported. -/
theorem registration (projectors : List (Projector α)) :
    ((∃ r, ofProjectors projectors = .ok r) ↔ (projectors.flatMap (·.eventTypes)).Nodup) ∧
    (∀ r, ofProjectors projectors = .ok r → r.Serves projectors) ∧
    ∀ e, ofProjectors projectors = .error e → ∃ existing duplicate eventType,
      IsFirstRepeat (claims projectors) existing duplicate eventType ∧
        e = .duplicateEventType eventType existing.name duplicate.name := by
  rw [← map_snd_claims]
  rcases ofProjectors_cases projectors with
    ⟨r, hok, hholds⟩ | ⟨existing, duplicate, eventType, hrepeat, herror⟩
  · rw [hok]
    refine ⟨iff_of_true ⟨r, rfl⟩ hholds.nodup, ?_, nofun⟩
    rintro _ ⟨⟩
    exact hholds.serves
  · rw [herror]
    refine ⟨iff_of_false nofun hrepeat.not_nodup, nofun, ?_⟩
    rintro _ ⟨⟩
    exact ⟨existing, duplicate, eventType, hrepeat, rfl⟩

/-- A projector that does nothing. -/
def idle (name : String) (eventTypes : List String) : Projector Unit :=
  ⟨name, eventTypes, fun _ _ => ()⟩

/-- Three types of two projectors, and one that claims its own type again before it claims a type of
another. -/
theorem idle_registration :
    (∃ r, ofProjectors [idle "Board" ["b", "a"], idle "Till" [], idle "Door" ["c"]] = .ok r ∧
      r.Serves [idle "Board" ["b", "a"], idle "Till" [], idle "Door" ["c"]]) ∧
    ∃ e, ofProjectors [idle "Board" ["b", "a"], idle "Door" ["c", "c", "a"]] = .error e ∧
      e.message = "Event type c is handled by both Door and Door" ∧
      ∃ existing duplicate eventType,
        IsFirstRepeat (claims [idle "Board" ["b", "a"], idle "Door" ["c", "c", "a"]])
          existing duplicate eventType ∧
        e = .duplicateEventType eventType existing.name duplicate.name := by
  obtain ⟨r, hr⟩ :=
    (registration [idle "Board" ["b", "a"], idle "Till" [], idle "Door" ["c"]]).1.mpr (by decide)
  have herror : ofProjectors [idle "Board" ["b", "a"], idle "Door" ["c", "c", "a"]] =
      .error (.duplicateEventType "c" "Door" "Door") := rfl
  exact ⟨⟨r, hr, (registration _).2.1 r hr⟩, _, herror, by decide, (registration _).2.2 _ herror⟩

end TableService.Registry
