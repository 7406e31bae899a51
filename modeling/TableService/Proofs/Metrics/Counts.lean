import TableService.Proofs.Metrics.Reading
import TableService.Proofs.Outbox.Marking

/-!
# Counts of entries

- `Series.Counts`: a series counts something of the entries of a log, each under its own label
  values. Entries whose label values have the same fingerprint are counted together.
- `Series.Counts.append`, `put`, `put_update`: so it is behind new entries, behind a change of an
  entry that is not counted, and behind one that is.
- `Series.Counts.value_eq`: what is shown for label values, if no entry has others with the same
  fingerprint.
-/

namespace TableService

variable {α : Type} {measure : α → Measure} {s : Series α} {labels : Entry → LabelValues}
  {count : Entry → Nat} {log : Log}

/-- For any label values, what is found under their fingerprint is the sum over the entries whose
own label values have this fingerprint. It is shown for label values of an entry. -/
structure Series.Counts (measure : α → Measure) (s : Series α) (labels : Entry → LabelValues)
    (count : Entry → Nat) (log : Log) : Prop where
  keyed : s.Keyed
  shown {key : UInt64} {first : LabelValues} {a : α} : s[key]? = some (first, a) →
    ∃ e ∈ log, labels e = first
  total (values : LabelValues) : ((s.get? values).elim 0 fun a => (measure a).size) =
    (log.map fun e => if (labels e).fingerprint = values.fingerprint then count e else 0).sum

/-- A sum over some entries as a sum over all. -/
theorem sum_map_ite (p : Entry → Prop) [DecidablePred p] (f : Entry → Nat) (log : Log) :
    (log.map fun e => if p e then f e else 0).sum = ((log.filter (p ·)).map f).sum := by
  induction log with
  | nil => rfl
  | cons e rest ih =>
    rw [List.map_cons, List.sum_cons, ih]
    by_cases hp : p e
    · simp [hp]
    · simp [hp]

namespace Series

theorem get?_congr {values other : LabelValues} (h : values.fingerprint = other.fingerprint) :
    s.get? values = s.get? other := by
  rw [get?, get?, h]

theorem counts_empty : (∅ : Series α).Counts measure labels count [] where
  keyed := keyed_empty
  shown h := by
    rw [Std.ExtTreeMap.getElem?_empty] at h
    cases h
  total values := by
    rw [get?, Std.ExtTreeMap.getElem?_empty]
    rfl

namespace Counts

/-- New entries of which there is nothing to be counted yet. -/
theorem append {new : List Entry} (h : s.Counts measure labels count log)
    (hnew : ∀ e ∈ new, count e = 0) : s.Counts measure labels count (log ++ new) where
  keyed := h.keyed
  shown hfound := by
    obtain ⟨e, he, hlabels⟩ := h.shown hfound
    exact ⟨e, List.mem_append_left _ he, hlabels⟩
  total values := by
    have hzero : (new.map fun e =>
        if (labels e).fingerprint = values.fingerprint then count e else 0).sum = 0 := by
      rw [List.sum_eq_zero_iff]
      intro n hn
      obtain ⟨e, he, rfl⟩ := List.mem_map.mp hn
      rw [hnew e he, ite_self]
    rw [h.total values, List.map_append, List.sum_append, hzero, Nat.add_zero]

section

variable {e e' : Entry}

theorem exists_put (hn : (log.map Entry.id).Nodup) (he : e ∈ log) (hid : e'.id = e.id)
    (hlabels : labels e' = labels e) {x : Entry} (hx : x ∈ log) :
    ∃ y ∈ log.map (Log.put e'), labels y = labels x := by
  refine ⟨Log.put e' x, List.mem_map_of_mem hx, ?_⟩
  by_cases hxid : x.id = e'.id
  · rw [Log.put_of_eq hxid, hlabels, Log.eq_of_id_eq hn hx he (hxid.trans hid)]
  · rw [Log.put_of_ne hxid]

/-- A change of an entry that is not counted. -/
theorem put (h : s.Counts measure labels count log) (hn : (log.map Entry.id).Nodup) (he : e ∈ log)
    (hid : e'.id = e.id) (hlabels : labels e' = labels e) (hcount : count e' = count e) :
    s.Counts measure labels count (log.map (Log.put e')) where
  keyed := h.keyed
  shown hfound := by
    obtain ⟨x, hx, rfl⟩ := h.shown hfound
    exact exists_put hn he hid hlabels hx
  total values := by
    have hsum := Log.sum_map_put hn he hid fun e =>
      if (labels e).fingerprint = values.fingerprint then count e else 0
    rw [hlabels, hcount] at hsum
    rw [h.total values]
    omega

/-- A change of an entry that is counted once. -/
theorem put_update {start : α} {f : α → α} (h : s.Counts measure labels count log)
    (hn : (log.map Entry.id).Nodup) (he : e ∈ log) (hid : e'.id = e.id)
    (hlabels : labels e' = labels e) (hcount : count e' = count e + 1)
    (hstart : (measure start).size = 0) (hf : ∀ a, (measure (f a)).size = (measure a).size + 1) :
    (s.update (labels e) start f).Counts measure labels count (log.map (Log.put e')) where
  keyed := h.keyed.update _ _ _
  shown hfound := by
    rcases first_of_update hfound with ⟨b, hb⟩ | ⟨-, rfl⟩
    · obtain ⟨x, hx, rfl⟩ := h.shown hb
      exact exists_put hn he hid hlabels hx
    · exact exists_put hn he hid hlabels he
  total values := by
    have hsum := Log.sum_map_put hn he hid fun e =>
      if (labels e).fingerprint = values.fingerprint then count e else 0
    have htotal := h.total values
    rw [hlabels] at hsum
    rw [get?_update]
    by_cases hprint : (labels e).fingerprint = values.fingerprint
    · rw [if_pos hprint, if_pos hprint, hcount] at hsum
      rw [if_pos hprint, get?_congr hprint]
      have hmore : (measure (f ((s.get? values).getD start))).size =
          ((s.get? values).elim 0 fun a => (measure a).size) + 1 := by
        rw [hf]
        cases s.get? values with
        | none => rw [Option.getD_none, hstart]; rfl
        | some a => rfl
      show (measure (f ((s.get? values).getD start))).size = _
      omega
    · rw [if_neg hprint, if_neg hprint] at hsum
      rw [if_neg hprint]
      omega

end

variable {m : Metrics} {name : String} {names : List String} {values : LabelValues}
  {asked : List (String × String)}

/-- No entry has these label values but by having just these. -/
theorem value_eq (h : s.Counts measure labels count log)
    (hshown : m.shown name = Metrics.samples names measure s)
    (halone : ∀ e ∈ log, (labels e).fingerprint = values.fingerprint → labels e = values)
    (hasked : ∀ e ∈ log,
      asked.all (names.zip (labels e)).contains = true ↔ labels e = values) :
    m.value name asked = ((log.filter (labels · = values)).map count).sum := by
  have hkey : ∀ {first : LabelValues} {a : α}, s[first.fingerprint]? = some (first, a) →
      asked.all (names.zip first).contains = true → first.fingerprint = values.fingerprint := by
    intro first a hfound hfirst
    obtain ⟨e, he, rfl⟩ := h.shown hfound
    rw [(hasked e he).mp hfirst]
  have htotal : (log.map fun e =>
      if (labels e).fingerprint = values.fingerprint then count e else 0).sum =
      ((log.filter (labels · = values)).map count).sum := by
    rw [sum_map_ite]
    refine congrArg (fun l => (List.map count l).sum) (List.filter_congr fun e he => ?_)
    rw [decide_eq_decide]
    exact ⟨halone e he, congrArg _⟩
  rw [← htotal, ← h.total values, Metrics.value_eq hshown h.keyed hkey, get?]
  cases hfound : s[values.fingerprint]? with
  | none => rfl
  | some x =>
    obtain ⟨first, a⟩ := x
    obtain ⟨e, he, rfl⟩ := h.shown hfound
    have hvalues := halone e he (h.keyed.fingerprint hfound)
    simp only [Option.elim_some, Option.map_some, (hasked e he).mpr hvalues, if_true]

/-- No entry has these label values. -/
theorem value_eq_zero (h : s.Counts measure labels count log)
    (hshown : m.shown name = Metrics.samples names measure s)
    (hasked : ∀ e ∈ log, asked.all (names.zip (labels e)).contains = false) :
    m.value name asked = 0 := by
  have hnone : ∀ {first : LabelValues} {a : α}, s[first.fingerprint]? = some (first, a) →
      asked.all (names.zip first).contains = false := by
    intro first a hfound
    obtain ⟨e, he, rfl⟩ := h.shown hfound
    exact hasked e he
  have hkey : ∀ {first : LabelValues} {a : α}, s[first.fingerprint]? = some (first, a) →
      asked.all (names.zip first).contains = true → first.fingerprint = 0 := by
    intro first a hfound hfirst
    rw [hnone hfound] at hfirst
    cases hfirst
  rw [Metrics.value_eq hshown h.keyed hkey]
  cases hfound : s[(0 : UInt64)]? with
  | none => rfl
  | some x =>
    obtain ⟨first, a⟩ := x
    have hfirst : s[first.fingerprint]? = some (first, a) := by
      rw [h.keyed.fingerprint hfound]
      exact hfound
    simp [hnone hfirst]

end Counts

end Series

end TableService
