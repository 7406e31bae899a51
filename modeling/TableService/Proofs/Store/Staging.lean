import Mathlib.Data.List.Basic
import TableService.Store.StagedTable

/-!
# What staged tables do to a key

- `getElem?_merge`: a merge puts every staged value under its key, one version up, and leaves all
  other keys alone.
- `conflict?_eq_none_iff`: there is no conflict when every staged key is at the version that was
  seen.
- `observed_observe`: the first touch of a key decides which version was seen.
-/

namespace TableService

namespace StagedTable

variable {α : Type}

/-! ## Committing a value -/

theorem getElem?_bump (committed : Table (Versioned α)) (id other : String) (value : α) :
    (bump committed id value)[other]? =
      if id = other then some ⟨versionOf committed id + 1, value⟩ else committed[other]? := by
  simp [bump, Std.ExtTreeMap.getElem?_insert]

/-- Values under keys other than `id` do not matter for `id`. -/
theorem getElem?_foldl_bump_of_not_mem (id : String) (pairs : List (String × α))
    (committed : Table (Versioned α)) (h : id ∉ pairs.map Prod.fst) :
    (pairs.foldl (fun c p => bump c p.1 p.2) committed)[id]? = committed[id]? := by
  induction pairs generalizing committed with
  | nil => rfl
  | cons p rest ih =>
    simp only [List.map_cons, List.mem_cons, not_or] at h
    rw [List.foldl_cons, ih _ h.2, getElem?_bump, if_neg (Ne.symm h.1)]

theorem getElem?_foldl_bump_of_mem {id : String} {value : α} (pairs : List (String × α))
    (committed : Table (Versioned α)) (hd : (pairs.map Prod.fst).Nodup) (h : (id, value) ∈ pairs) :
    (pairs.foldl (fun c p => bump c p.1 p.2) committed)[id]? =
      some ⟨versionOf committed id + 1, value⟩ := by
  induction pairs generalizing committed with
  | nil => cases h
  | cons p rest ih =>
    simp only [List.map_cons, List.nodup_cons] at hd
    rw [List.foldl_cons]
    -- keys differ, so no later pair puts another value under this key
    rcases List.mem_cons.mp h with rfl | hrest
    · rw [getElem?_foldl_bump_of_not_mem id rest _ hd.1, getElem?_bump, if_pos rfl]
    · have hne : p.1 ≠ id := by
        rintro rfl
        exact hd.1 (List.mem_map.mpr ⟨_, hrest, rfl⟩)
      rw [ih _ hd.2 hrest, versionOf_bump_of_ne committed p.2 hne]

/-! ## Merging -/

theorem merge_eq_foldl_toList (t : StagedTable α) (committed : Table (Versioned α)) :
    t.merge committed = t.staged.toList.foldl (fun c p => bump c p.1 p.2) committed := by
  rw [merge, Std.ExtTreeMap.foldl_eq_foldl_toList]

theorem nodup_staged_keys (t : StagedTable α) : (t.staged.toList.map Prod.fst).Nodup := by
  rw [Std.ExtTreeMap.map_fst_toList_eq_keys]
  exact Std.ExtTreeMap.nodup_keys

theorem getElem?_merge (t : StagedTable α) (committed : Table (Versioned α)) (id : String) :
    (t.merge committed)[id]? =
      match t.staged[id]? with
      | some value => some ⟨versionOf committed id + 1, value⟩
      | none => committed[id]? := by
  rw [merge_eq_foldl_toList]
  cases h : t.staged[id]? with
  | some value =>
    exact getElem?_foldl_bump_of_mem _ _ t.nodup_staged_keys
      (Std.ExtTreeMap.mem_toList_iff_getElem?_eq_some.mpr h)
  | none =>
    refine getElem?_foldl_bump_of_not_mem id _ _ ?_
    rw [Std.ExtTreeMap.map_fst_toList_eq_keys, Std.ExtTreeMap.mem_keys,
      Std.ExtTreeMap.mem_iff_isSome_getElem?, h]
    simp

theorem conflict?_eq_none_iff (t : StagedTable α) (committed : Table (Versioned α)) :
    t.conflict? committed = none ↔
      ∀ id ∈ t.staged, t.observed.getD id 0 = versionOf committed id := by
  simp only [conflict?, List.findSome?_eq_none_iff, Std.ExtTreeMap.mem_keys, conflictAt?]
  refine forall₂_congr ?_
  intro id _
  split <;> simp_all

/-! ## Touching a key -/

theorem observed_observe (t : StagedTable α) (committed : Table (Versioned α)) (id other : String) :
    (t.observe committed id).observed[other]? =
      if id = other ∧ t.observed[other]? = none then some (versionOf committed id)
      else t.observed[other]? := by
  have hmem : id ∈ t.observed ↔ t.observed[id]?.isSome := Std.ExtTreeMap.mem_iff_isSome_getElem?
  simp only [observe, Std.ExtTreeMap.getElem?_insertIfNew, Std.LawfulEqCmp.compare_eq_iff_eq, hmem]
  by_cases h : id = other
  · subst h
    cases t.observed[id]? <;> simp
  · simp [h]

@[simp] theorem staged_observe (t : StagedTable α) (committed : Table (Versioned α)) (id : String) :
    (t.observe committed id).staged = t.staged := rfl

@[simp] theorem staged_find (t : StagedTable α) (committed : Table (Versioned α)) (id : String) :
    (t.find committed id).2.staged = t.staged := by
  simp only [find]
  split <;> rfl

/-! ## Saving over nothing -/

section

variable [Aggregate α] {t : StagedTable α}

theorem staged_save (h : t.staged = ∅) (seen : Table (Versioned α)) (a : α) :
    (t.save seen a).staged = (∅ : Table α).insert (Aggregate.id a) a := by
  simp [save, h]

theorem getElem?_merge_save (h : t.staged = ∅) (seen committed : Table (Versioned α)) (a : α)
    (id : String) : ((t.save seen a).merge committed)[id]? =
      if Aggregate.id a = id then some ⟨versionOf committed id + 1, a⟩ else committed[id]? := by
  rw [getElem?_merge, staged_save h, Std.ExtTreeMap.getElem?_insert]
  by_cases hid : Aggregate.id a = id <;> simp [hid]

/-- The key that is saved must be at the version that was seen first, before the save or by it. -/
theorem conflict?_save_eq_none_iff (h : t.staged = ∅) (seen committed : Table (Versioned α))
    (a : α) : (t.save seen a).conflict? committed = none ↔
      t.observed[Aggregate.id a]?.getD (versionOf seen (Aggregate.id a)) =
        versionOf committed (Aggregate.id a) := by
  have hobserved : (t.save seen a).observed.getD (Aggregate.id a) 0 =
      t.observed[Aggregate.id a]?.getD (versionOf seen (Aggregate.id a)) := by
    rw [Std.ExtTreeMap.getD_eq_getD_getElem?]
    simp only [save]
    rw [observed_observe]
    cases t.observed[Aggregate.id a]? <;> simp
  rw [conflict?_eq_none_iff, staged_save h, ← hobserved]
  constructor
  · exact fun hall => hall _ (by simp)
  · intro heq id hid
    obtain rfl : Aggregate.id a = id := by simpa using hid
    exact heq

end

theorem conflict?_eq_none_of_empty {t : StagedTable α} (h : t.staged = ∅)
    (committed : Table (Versioned α)) : t.conflict? committed = none := by
  rw [conflict?_eq_none_iff]
  intro id hid
  rw [h] at hid
  simp at hid

theorem merge_of_empty {t : StagedTable α} (h : t.staged = ∅) (committed : Table (Versioned α)) :
    t.merge committed = committed := by
  rw [merge, h]
  rfl

end StagedTable

end TableService
