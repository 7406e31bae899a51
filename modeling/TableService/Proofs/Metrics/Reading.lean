import TableService.Metrics.Basic
import TableService.Proofs.Store.Tables

/-!
# Reading metrics

- `Metrics.value`: what the metrics show for some labels: the samples of a family that have them, in
  sum.
- `Series.Keyed`: every count is kept under the fingerprint of the label values that it shows.
- `Metrics.value_eq`: if all label values that are asked for have one fingerprint, what is shown is
  the one count that is kept under it, provided that it shows them.
-/

namespace TableService

variable {α : Type}

/-! ## Counts under their fingerprints -/

namespace Series

/-- Counts are kept under the fingerprint of the values they were begun with. -/
structure Keyed (s : Series α) : Prop where
  fingerprint {key : UInt64} {first : LabelValues} {a : α} : s[key]? = some (first, a) →
    first.fingerprint = key

theorem keyed_empty : (∅ : Series α).Keyed where
  fingerprint h := by
    rw [Std.ExtTreeMap.getElem?_empty] at h
    cases h

/-- What is shown behind an update has been shown before, or is what was counted. -/
theorem first_of_update {s : Series α} {values : LabelValues} {start : α} {f : α → α} {key : UInt64}
    {first : LabelValues} {a : α} (h : (s.update values start f)[key]? = some (first, a)) :
    (∃ b, s[key]? = some (first, b)) ∨ key = values.fingerprint ∧ first = values := by
  unfold update at h
  split at h
  · rename_i old b hold
    rw [Std.ExtTreeMap.getElem?_insert] at h
    split at h
    · rename_i hkey
      rw [Std.LawfulEqCmp.compare_eq_iff_eq] at hkey
      subst hkey
      cases h
      exact .inl ⟨b, hold⟩
    · exact .inl ⟨a, h⟩
  · rw [Std.ExtTreeMap.getElem?_insert] at h
    split at h
    · rename_i hkey
      rw [Std.LawfulEqCmp.compare_eq_iff_eq] at hkey
      cases h
      exact .inr ⟨hkey.symm, rfl⟩
    · exact .inl ⟨a, h⟩

theorem Keyed.update {s : Series α} (h : s.Keyed) (values : LabelValues) (start : α) (f : α → α) :
    (s.update values start f).Keyed where
  fingerprint hfound := by
    rcases first_of_update hfound with ⟨b, hb⟩ | ⟨rfl, rfl⟩
    · exact h.fingerprint hb
    · rfl

/-- Of counts that have one fingerprint there is at most one. -/
theorem Keyed.filter_toList {s : Series α} (h : s.Keyed) {shows : LabelValues → Bool}
    {key : UInt64}
    (hshows : ∀ {first : LabelValues} {a : α}, s[first.fingerprint]? = some (first, a) →
      shows first = true → first.fingerprint = key) :
    (s.toList.filter fun x => shows x.1).Perm (s[key]?.toList.filter fun x => shows x.1) := by
  have hperm : s.toList.Perm s.values := List.mergeSort_perm ..
  have hone : s.values.filter (fun x => shows x.1) =
      (s.values.filter (·.1.fingerprint == key)).filter fun x => shows x.1 := by
    rw [List.filter_filter]
    refine List.filter_congr fun x hx => ?_
    rw [Table.values_eq] at hx
    obtain ⟨⟨k, y⟩, hmem, rfl⟩ := List.mem_map.mp hx
    have hfound : s[k]? = some y := Std.ExtTreeMap.mem_toList_iff_getElem?_eq_some.mp hmem
    obtain rfl := h.fingerprint hfound
    cases hx : shows y.1 with
    | true => simp [hshows hfound hx]
    | false => rfl
  have hkey : s.values.filter (·.1.fingerprint == key) = s[key]?.toList :=
    Table.filter_values h.fingerprint key
  rw [hkey] at hone
  rw [← hone]
  exact hperm.filter _

end Series

/-! ## What is shown -/

namespace Metrics

/-- The samples that are shown under a name. -/
def shown (m : Metrics) (name : String) : List Sample :=
  (m.families.filter (·.name = name)).flatMap (·.samples)

/-- What is shown for some labels, in sum. -/
def value (m : Metrics) (name : String) (labels : List (String × String)) : Nat :=
  (((m.shown name).filter fun s => labels.all s.labels.contains).map (·.measure.size)).sum

/-- A family that is left out has no samples. -/
theorem flatMap_samples_filter (families : List Family) :
    (families.filter (!·.samples.isEmpty)).flatMap (·.samples) = families.flatMap (·.samples) := by
  induction families with
  | nil => rfl
  | cons f rest ih =>
    rw [List.filter_cons, List.flatMap_cons]
    cases hsamples : f.samples with
    | nil => simpa [hsamples] using ih
    | cons s more => simp [hsamples, ih]

theorem shown_processed (m : Metrics) : m.shown "outbox_entries_processed_total" =
    samples ["event_type"] .count m.processed := by
  rw [shown, families, List.filter_comm, flatMap_samples_filter]
  simp

theorem shown_durations (m : Metrics) : m.shown "outbox_projection_duration_seconds" =
    samples ["event_type"] .durations m.durations := by
  rw [shown, families, List.filter_comm, flatMap_samples_filter]
  simp

theorem shown_failed (m : Metrics) : m.shown "outbox_entries_failed_total" =
    samples ["event_type", "reason"] .count m.failed := by
  rw [shown, families, List.filter_comm, flatMap_samples_filter]
  simp

theorem shown_deadLettered (m : Metrics) : m.shown "outbox_entries_dead_lettered_total" =
    samples ["event_type"] .count m.deadLettered := by
  rw [shown, families, List.filter_comm, flatMap_samples_filter]
  simp

/-- If all label values that are asked for have one fingerprint, the count under it is shown, or
none is. -/
theorem value_eq {m : Metrics} {name : String} {names : List String} {measure : α → Measure}
    {s : Series α} {labels : List (String × String)} {key : UInt64}
    (hshown : m.shown name = samples names measure s) (h : s.Keyed)
    (hkey : ∀ {first : LabelValues} {a : α}, s[first.fingerprint]? = some (first, a) →
      labels.all (names.zip first).contains = true → first.fingerprint = key) :
    m.value name labels = s[key]?.elim 0 fun x =>
      if labels.all (names.zip x.1).contains then (measure x.2).size else 0 := by
  have hsamples : ((m.shown name).filter fun s => labels.all s.labels.contains).map
      (·.measure.size) = (s.toList.filter fun x => labels.all (names.zip x.1).contains).map
        fun x => (measure x.2).size := by
    rw [hshown, samples, List.filter_map, List.map_map]
    rfl
  have hperm := (h.filter_toList hkey).map fun x => (measure x.2).size
  rw [value, hsamples, hperm.sum_eq]
  cases s[key]? with
  | none => rfl
  | some x =>
    cases hx : labels.all (names.zip x.1).contains with
    | true => simp [hx]
    | false => simp [hx]

end Metrics

end TableService
