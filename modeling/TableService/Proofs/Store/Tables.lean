import Mathlib
import TableService.Store.Table

/-!
# What a table lists

- `Table.insert_eq_self`: to put a value where it is already changes nothing.
- `Table.filter_values`: if every value sits under its own key, then the values of a key are the one
  that is found there.
- `getElem?_tally`, `sum_values_tally`: a tally lists what occurs, and its counts add up.
-/

namespace TableService

variable {α : Type}

theorem Table.getElem?_insert_of_ne {t : Table α} {key other : String} {a : α} (h : key ≠ other) :
    (t.insert key a)[other]? = t[other]? := by
  rw [Std.ExtTreeMap.getElem?_insert, if_neg]
  intro heq
  exact h (Std.LawfulEqCmp.compare_eq_iff_eq.mp heq)

theorem Table.insert_eq_self {t : Table α} {key : String} {a : α} (h : t[key]? = some a) :
    t.insert key a = t := by
  refine Std.ExtTreeMap.ext_getElem? ?_
  intro k
  rw [Std.ExtTreeMap.getElem?_insert]
  split
  · rename_i hk
    rw [← Std.LawfulEqCmp.compare_eq_iff_eq.mp hk]
    exact h.symm
  · rfl

/-! ## What is listed, whatever the keys are -/

section

variable {κ : Type} {cmp : κ → κ → Ordering} [Std.TransCmp cmp]

theorem Table.values_eq (t : Std.ExtTreeMap κ α cmp) : t.values = t.toList.map Prod.snd := by
  obtain ⟨⟨t⟩⟩ := t
  -- there is no such lemma for tables yet, so open the quotient of trees
  induction t using Quotient.inductionOn with
  | h t =>
    show t.values = (Std.DTreeMap.Const.toList t).map Prod.snd
    rw [Std.DTreeMap.values, Std.DTreeMap.Internal.Impl.values_eq_map_snd,
      Std.DTreeMap.Const.toList, Std.DTreeMap.Internal.Impl.Const.toList_eq_toListModel_map,
      List.map_map]
    rfl

variable [Std.LawfulEqCmp cmp] [DecidableEq κ]

/-- Among pairs with different keys there is at most one with a given key. -/
theorem filter_key_eq {key : κ} {pairs : List (κ × α)} (h : (pairs.map Prod.fst).Nodup) :
    pairs.filter (·.1 == key) = (pairs.find? (·.1 == key)).toList := by
  induction pairs with
  | nil => rfl
  | cons p rest ih =>
    rw [List.map_cons, List.nodup_cons] at h
    by_cases hp : p.1 = key
    · have hrest : rest.filter (·.1 == key) = [] := by
        rw [List.filter_eq_nil_iff]
        intro q hq hkey
        refine h.1 (List.mem_map.mpr ⟨q, hq, ?_⟩)
        rw [hp]
        exact beq_iff_eq.mp hkey
      simp [hp, hrest]
    · simp [hp, ih h.2]

theorem Table.find?_toList (t : Std.ExtTreeMap κ α cmp) (key : κ) :
    t.toList.find? (·.1 == key) = t[key]?.map fun a => (key, a) := by
  cases hfound : t.toList.find? (·.1 == key) with
  | none =>
    have hnone : t[key]? = none := by
      rw [Option.eq_none_iff_forall_not_mem]
      intro a ha
      have hmem := Std.ExtTreeMap.mem_toList_iff_getElem?_eq_some.mpr (Option.mem_def.mp ha)
      simpa using List.find?_eq_none.mp hfound _ hmem
    rw [hnone]
    rfl
  | some p =>
    have hkey : p.1 = key := by simpa using List.find?_some hfound
    have hmem : t[p.1]? = some p.2 :=
      Std.ExtTreeMap.mem_toList_iff_getElem?_eq_some.mp (List.mem_of_find?_eq_some hfound)
    rw [← hkey, hmem]
    rfl

/-- If every value sits under its own key, a key has at most the value that is found there. -/
theorem Table.filter_values {t : Std.ExtTreeMap κ α cmp} {own : α → κ}
    (h : ∀ {key : κ} {a : α}, t[key]? = some a → own a = key) (key : κ) :
    t.values.filter (own · == key) = t[key]?.toList := by
  have hnodup : (t.toList.map Prod.fst).Nodup := by
    rw [Std.ExtTreeMap.map_fst_toList_eq_keys]
    exact Std.ExtTreeMap.nodup_keys
  -- to choose values by their own key is to choose pairs by their first part
  have hown : t.toList.filter ((own · == key) ∘ Prod.snd) = t.toList.filter (·.1 == key) := by
    refine List.filter_congr ?_
    intro p hp
    rw [Function.comp, h (Std.ExtTreeMap.mem_toList_iff_getElem?_eq_some.mp hp)]
  rw [values_eq, List.filter_map, hown, filter_key_eq hnodup, find?_toList]
  cases t[key]? with
  | none => rfl
  | some a => rfl

end

/-! ## Tallies -/

theorem mem_tally {keys : List String} {key : String} : key ∈ tally keys ↔ key ∈ keys := by
  suffices h : ∀ (keys : List String) (counts : Table Nat),
      key ∈ keys.foldl Table.count counts ↔ key ∈ keys ∨ key ∈ counts by
    simpa [tally] using h keys ∅
  intro keys
  induction keys with
  | nil => simp
  | cons k rest ih =>
    intro counts
    rw [List.foldl_cons, ih, Table.count, Std.ExtTreeMap.mem_insert,
      Std.LawfulEqCmp.compare_eq_iff_eq, List.mem_cons]
    tauto

/-- What is counted occurs. -/
theorem getElem?_tally {keys : List String} {key : String} {n : Nat} :
    (tally keys)[key]? = some n ↔ 0 < n ∧ keys.count key = n := by
  by_cases hmem : key ∈ keys
  · have hpos := List.count_pos_iff.mpr hmem
    have hfound : (tally keys)[key]? = some ((tally keys).getD key 0) :=
      Std.ExtTreeMap.getElem?_eq_some_getD (mem_tally.mpr hmem)
    rw [hfound, getD_tally, Option.some.injEq]
    exact ⟨fun h => ⟨h ▸ hpos, h⟩, And.right⟩
  · rw [Std.ExtTreeMap.getElem?_eq_none (mt mem_tally.mp hmem), List.count_eq_zero_of_not_mem hmem]
    constructor
    · nofun
    · rintro ⟨hpos, hzero⟩
      exact absurd hzero (Nat.ne_of_lt hpos)

/-- The counts add up to the number of texts. -/
theorem sum_values_tally (keys : List String) : (tally keys).values.sum = keys.length := by
  have hpairs : ∀ p ∈ (tally keys).toList, p.2 = keys.count p.1 := by
    intro p hp
    exact (getElem?_tally.mp (Std.ExtTreeMap.mem_toList_iff_getElem?_eq_some.mp hp)).2.symm
  have hkeys : (tally keys).keys.Perm keys.dedup := by
    refine (List.perm_ext_iff_of_nodup Std.ExtTreeMap.nodup_keys (List.nodup_dedup _)).mpr ?_
    intro key
    rw [Std.ExtTreeMap.mem_keys, mem_tally, List.mem_dedup]
  calc (tally keys).values.sum
      = ((tally keys).toList.map Prod.snd).sum := by rw [Table.values_eq]
    _ = ((tally keys).toList.map fun p => keys.count p.1).sum := by
      rw [List.map_congr_left hpairs]
    _ = ((tally keys).keys.map fun key => keys.count key).sum := by
      rw [← Std.ExtTreeMap.map_fst_toList_eq_keys, List.map_map]
      rfl
    _ = (keys.dedup.map fun key => keys.count key).sum := (hkeys.map _).sum_eq
    _ = keys.length := List.sum_map_count_dedup_eq_length keys

end TableService
