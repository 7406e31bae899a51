import TableService.Proofs.Domain.Effect

/-!
# How many events it takes to tell of an order

- `OrderState.weight`: the least number of events that tell of a state.
- `OrderState.inEffect_of_weight`: if there are no more events than that, each of them does
  something.
- `OrderState.inEffect_of_agree`: so if events in another order tell of the same ids and statuses,
  then each of them does something there as well.
-/

namespace TableService

open OrderEvent

namespace OrderState

variable {itemId : String}

/-- The least number of events that tell of an item in this status. -/
def itemWeight : ItemStatus → Nat
  | .pending => 1
  | .ready | .cancelled => 2

/-- The least number of events that tell of a state. -/
def weight : Option OrderState → Nat
  | none => 0
  | some s => 1 + (s.items.map (itemWeight ·.status)).sum +
    match s.status with
    | .opened => 0
    | .completed | .cancelled => 1

/-- An event without effect changes nothing. -/
theorem after_of_not_takesEffect {s : Option OrderState} {e : OrderEvent} (h : ¬ TakesEffect s e) :
    after s e = s := by
  cases s with
  | none =>
    cases e with
    | placed => exact absurd trivial h
    | _ => rfl
  | some s =>
    cases e with
    | placed => rfl
    | itemAdded orderId itemId =>
      have hsome : (s.find? itemId).isSome = true := Option.isSome_iff_ne_none.mpr h
      simp only [after, add, hsome, if_true]
    | dishReady | itemCancelled => exact congrArg some (setItem_eq_self (not_not.mp h) _)
    | completed => exact absurd trivial h
    | cancelled => exact absurd trivial h

theorem itemWeight_bounds (status : ItemStatus) :
    1 ≤ itemWeight status ∧ itemWeight status ≤ 2 := by
  cases status <;> decide

theorem itemWeight_of_ne {status : ItemStatus} (h : status ≠ .pending) : itemWeight status = 2 := by
  cases status with
  | pending => exact absurd rfl h
  | ready => rfl
  | cancelled => rfl

theorem sum_updateFirst_le (itemId : String) (status : ItemStatus) (items : List ItemState) :
    ((updateFirst (·.id == itemId) (fun i : ItemState => { i with status }) items).map
        (itemWeight ·.status)).sum ≤ (items.map (itemWeight ·.status)).sum + 1 := by
  induction items with
  | nil => exact Nat.zero_le _
  | cons item rest ih =>
    simp only [updateFirst]
    split
    · -- an item weighs one or two, so a change of its status adds no more than one
      have hnew := (itemWeight_bounds status).2
      have hold := (itemWeight_bounds item.status).1
      simp only [List.map_cons, List.sum_cons]
      omega
    · simp only [List.map_cons, List.sum_cons]
      omega

/-- A pending item that is pending no longer weighs one more. -/
theorem sum_updateFirst {status : ItemStatus} {items : List ItemState} {item : ItemState}
    (hstatus : status ≠ .pending) (hfind : items.find? (·.id == itemId) = some item)
    (hp : item.status = .pending) :
    ((updateFirst (·.id == itemId) (fun i : ItemState => { i with status }) items).map
        (itemWeight ·.status)).sum = (items.map (itemWeight ·.status)).sum + 1 := by
  induction items with
  | nil => cases hfind
  | cons first rest ih =>
    by_cases hid : first.id = itemId
    · obtain rfl : first = item := by simpa [hid] using hfind
      have hold : itemWeight first.status = 1 := by rw [hp, itemWeight]
      have hnew : itemWeight status = 2 := itemWeight_of_ne hstatus
      rw [updateFirst, if_pos (beq_iff_eq.mpr hid), List.map_cons, List.map_cons, List.sum_cons,
        List.sum_cons, hold, hnew]
      omega
    · have hne : (first.id == itemId) = false := beq_eq_false_iff_ne.mpr hid
      rw [List.find?_cons_of_neg (by simpa using hid)] at hfind
      simp only [updateFirst, hne, Bool.false_eq_true, if_false, List.map_cons, List.sum_cons,
        ih hfind]
      omega

theorem weight_after_le (s : Option OrderState) (e : OrderEvent) :
    weight (after s e) ≤ weight s + 1 := by
  by_cases heffect : TakesEffect s e
  · cases s with
    | none =>
      cases e with
      | placed => exact Nat.le_refl 1
      | _ => exact heffect.elim
    | some s =>
      cases e with
      | placed => exact heffect.elim
      | itemAdded orderId itemId menuItemId name unitPrice quantity =>
        have hnone : s.find? itemId = none := heffect
        simp only [after, add, hnone, Option.isSome_none, Bool.false_eq_true, if_false, weight,
          List.map_append, List.sum_append, List.map_singleton, List.sum_singleton, itemWeight]
        omega
      | dishReady orderId itemId =>
        have hsum := sum_updateFirst_le itemId .ready s.items
        simp only [after, setItem, weight]
        omega
      | itemCancelled orderId itemId =>
        have hsum := sum_updateFirst_le itemId .cancelled s.items
        simp only [after, setItem, weight]
        omega
      | completed | cancelled =>
        simp only [after, weight]
        split
        · omega
        · omega
        · omega
  · rw [after_of_not_takesEffect heffect]
    exact Nat.le_succ _

theorem weight_after_of_fits {s : Option OrderState} {e : OrderEvent} (h : Fits s e) :
    weight (after s e) = weight s + 1 := by
  cases s with
  | none =>
    cases e with
    | placed => rfl
    | _ => exact h.elim
  | some s =>
    cases e with
    | placed => exact h.elim
    | itemAdded orderId itemId menuItemId name unitPrice quantity =>
      simp only [after, add, h.2.1, Option.isSome_none, Bool.false_eq_true, if_false, weight,
        List.map_append, List.sum_append, List.map_singleton, List.sum_singleton, itemWeight]
      omega
    | dishReady orderId itemId =>
      obtain ⟨-, item, hfind, hp⟩ := h
      have hsum := sum_updateFirst (ItemStatus.noConfusion : ItemStatus.ready ≠ .pending) hfind hp
      simp only [after, setItem, weight, hsum]
      omega
    | itemCancelled orderId itemId =>
      obtain ⟨-, item, hfind, hp⟩ := h
      have hsum :=
        sum_updateFirst (ItemStatus.noConfusion : ItemStatus.cancelled ≠ .pending) hfind hp
      simp only [after, setItem, weight, hsum]
      omega
    | completed | cancelled =>
      have hopen : s.status = .opened := h
      simp only [after, weight, hopen]

theorem weight_of_leads {s t : Option (Story.State Order)} {events : List (Story.Event Order)}
    (h : Leads Order s events t) : weight t = weight s + events.length := by
  induction h with
  | nil s => rfl
  | cons fits _ ih =>
    rw [ih, List.length_cons]
    have hfirst := weight_after_of_fits fits
    change weight (after _ _) + _ = _
    omega

/-- Events that tell of a state with as few of them as it takes all do something. -/
theorem inEffect_of_weight (events : List (Story.Event Order)) :
    weight (Story.replay Order events) ≤ events.length ∧
      (events.length ≤ weight (Story.replay Order events) → InEffect none events) := by
  induction events using List.reverseRecOn with
  | nil => exact ⟨Nat.le_refl 0, fun _ => trivial⟩
  | append_singleton events e ih =>
    obtain ⟨hle, hinEffect⟩ := ih
    have hafter : Story.replay Order (events ++ [e]) = after (Story.replay Order events) e :=
      Story.replay_concat Order events e
    have hbound := weight_after_le (Story.replay Order events) e
    rw [hafter, List.length_append, List.length_singleton]
    refine ⟨by omega, ?_⟩
    intro hlength
    by_cases heffect : TakesEffect (Story.replay Order events) e
    · exact inEffect_concat.mpr ⟨hinEffect (by omega), heffect⟩
    · -- without an effect there would be more events than the state weighs
      rw [after_of_not_takesEffect heffect] at hlength
      omega

theorem eq_of_perm_of_map_eq {α β : Type} {f : α → β} {l l' : List α} (hperm : l.Perm l')
    (hmap : l.map f = l'.map f) (hn : (l'.map f).Nodup) : l = l' := by
  refine List.ext_getElem hperm.length_eq ?_
  intro i hi hi'
  refine List.inj_on_of_nodup_map hn (hperm.subset (List.getElem_mem hi)) (List.getElem_mem hi') ?_
  have hget := List.getElem_of_eq hmap (by simpa using hi)
  simpa using hget

/-- If the items of two orders have the same ids and statuses, and the orders have the same status,
then what tells of one of them in another order tells of the other only if each event does
something. -/
theorem inEffect_of_agree {events others : List (Story.Event Order)} {s s' : OrderState}
    (h : Leads Order none events (some s)) (hperm : others.Perm events)
    (hs' : Story.replay Order others = some s') (hids : s'.items.map (·.id) = s.items.map (·.id))
    (hstatuses : s'.items.map (·.status) = s.items.map (·.status))
    (hstatus : s'.status = s.status) :
    InEffect none others ∧ others.filterMap added? = events.filterMap added? := by
  have hweight : weight (some s') = weight (some s) := by
    have hmap : s'.items.map (itemWeight ·.status) = s.items.map (itemWeight ·.status) := by
      have heq := congrArg (List.map itemWeight) hstatuses
      rw [List.map_map, List.map_map] at heq
      exact heq
    simp only [weight, hmap, hstatus]
  have hlength : weight (some s) = events.length := by
    rw [show weight (some s) = _ from weight_of_leads h]
    exact Nat.zero_add _
  have hnil : events ≠ [] := by
    rintro rfl
    cases h
  have hnil' : others ≠ [] := by
    rintro rfl
    exact hnil hperm.symm.eq_nil
  -- both states weigh the same, and there are just as many events as that
  have heffect : InEffect none others := by
    refine (inEffect_of_weight others).2 ?_
    rw [hs', hweight, hlength, hperm.length_eq]
  refine ⟨heffect, ?_⟩
  -- items stand in the order in which they were added, and their ids differ
  obtain ⟨t, ht, htold⟩ := told_of_inEffect (inEffect_of_leads h) hnil
  obtain ⟨t', ht', htold'⟩ := told_of_inEffect heffect hnil'
  obtain rfl : s = t := Option.some.inj (h.foldl_eq.symm.trans ht)
  obtain rfl : s' = t' := Option.some.inj (hs'.symm.trans ht')
  have hadded : ∀ {t : OrderState} {events : List OrderEvent}, t.Told events →
      t.items.map (·.id) = (events.filterMap added?).map (·.id) := by
    intro t events htold
    rw [htold.items, List.map_map]
    rfl
  refine eq_of_perm_of_map_eq (f := ItemState.id) (hperm.filterMap _) ?_ ?_
  · rw [← hadded htold, ← hadded htold', hids]
  · rw [← hadded htold]
    exact htold.nodup

end OrderState

end TableService
