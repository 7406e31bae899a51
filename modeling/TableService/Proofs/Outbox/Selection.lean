import Mathlib.Data.List.Sort
import Mathlib.Data.List.Sigma
import TableService.Outbox.Log

/-!
# What is selected from the log

Entries are selected by a condition, sorted by the time of their event and cut to a limit. The sort
is stable, so entries of one time are in the order of the log.

- `Log.selectedAt`: what is selected, each entry with its place in the log.
- `Log.Precedes`: the order by time, and by place for equal times.
- `Log.IsSelection`: the first wanted entries in this order, in this order.
- `Log.isSelection`: that is what is selected.
-/

namespace TableService

namespace Log

variable {log : Log} {wanted : Entry → Bool} {limit : Nat}

/-! ## Places -/

theorem nodup_zipIdx (log : Log) : log.zipIdx.Nodup :=
  List.Nodup.of_map _ (List.nodup_zipIdx_map_snd log)

/-- What stands in two places of a list. -/
theorem pair_sublist {α : Type} {l : List α} {i j : Nat} {a b : α} (hi : l[i]? = some a)
    (hj : l[j]? = some b) (hij : i < j) : [a, b].Sublist l := by
  have hfirst : a ∈ l.take j := by
    refine List.mem_of_getElem? (i := i) ?_
    rw [List.getElem?_take_of_lt hij]
    exact hi
  have hsecond : b ∈ l.drop j := by
    refine List.mem_of_getElem? (i := 0) ?_
    rw [List.getElem?_drop]
    exact hj
  have h := (List.singleton_sublist.mpr hfirst).append (List.singleton_sublist.mpr hsecond)
  rwa [List.take_append_drop] at h

/-- The wanted entries, each with its place in the log. -/
def wantedAt (log : Log) (wanted : Entry → Bool) : List (Entry × Nat) :=
  log.zipIdx.filter (wanted ·.1)

theorem mem_wantedAt {p : Entry × Nat} :
    p ∈ log.wantedAt wanted ↔ log[p.2]? = some p.1 ∧ wanted p.1 = true := by
  rw [wantedAt, List.mem_filter, List.mem_zipIdx_iff_getElem?]

theorem map_fst_wantedAt (log : Log) (wanted : Entry → Bool) :
    (log.wantedAt wanted).map Prod.fst = log.filter wanted := by
  conv_rhs => rw [← List.zipIdx_map_fst 0 log, List.filter_map]
  rfl

/-- The wanted entries are in the order of the log. -/
theorem pairwise_wantedAt (log : Log) (wanted : Entry → Bool) :
    (log.wantedAt wanted).Pairwise fun p q => p.2 < q.2 := by
  refine List.Pairwise.filter _ (List.pairwise_iff_getElem.mpr ?_)
  intro i j hi hj hij
  simpa using hij

/-! ## Sorted by time -/

/-- Oldest event first. -/
def sortedAt (log : Log) (wanted : Entry → Bool) : List (Entry × Nat) :=
  (log.wantedAt wanted).mergeSort fun p q => p.1.occurredAt ≤ q.1.occurredAt

theorem perm_sortedAt (log : Log) (wanted : Entry → Bool) :
    (log.sortedAt wanted).Perm (log.wantedAt wanted) :=
  List.mergeSort_perm _ _

theorem map_fst_sortedAt (log : Log) (wanted : Entry → Bool) :
    (log.sortedAt wanted).map Prod.fst = byTime (log.filter wanted) := by
  rw [← map_fst_wantedAt]
  exact List.map_mergeSort fun _ _ _ _ => rfl

theorem le_trans_occurredAt (p q r : Entry × Nat) :
    decide (p.1.occurredAt ≤ q.1.occurredAt) = true →
      decide (q.1.occurredAt ≤ r.1.occurredAt) = true →
        decide (p.1.occurredAt ≤ r.1.occurredAt) = true := by
  simp only [decide_eq_true_eq]
  exact Instant.le_trans

theorem le_total_occurredAt (p q : Entry × Nat) :
    (decide (p.1.occurredAt ≤ q.1.occurredAt) ||
      decide (q.1.occurredAt ≤ p.1.occurredAt)) = true := by
  simpa using Instant.le_total p.1.occurredAt q.1.occurredAt

theorem pairwise_sortedAt (log : Log) (wanted : Entry → Bool) :
    (log.sortedAt wanted).Pairwise fun p q => p.1.occurredAt ≤ q.1.occurredAt :=
  (List.pairwise_mergeSort le_trans_occurredAt le_total_occurredAt _).imp of_decide_eq_true

/-- The sort is stable: entries of one time stay in their order. -/
theorem filter_sortedAt (log : Log) (wanted : Entry → Bool) (t : Instant) :
    (log.sortedAt wanted).filter (·.1.occurredAt = t) =
      (log.wantedAt wanted).filter (·.1.occurredAt = t) := by
  have hsame : ((log.wantedAt wanted).filter (·.1.occurredAt = t)).Pairwise
      fun p q => decide (p.1.occurredAt ≤ q.1.occurredAt) = true := by
    refine List.pairwise_of_forall_mem_list fun p hp q hq => ?_
    have hp := (List.mem_filter.mp hp).2
    have hq := (List.mem_filter.mp hq).2
    rw [decide_eq_true_eq] at hp hq ⊢
    rw [hp, hq]
    exact Instant.le_refl t
  have hsub := List.sublist_mergeSort le_trans_occurredAt le_total_occurredAt hsame
    (List.filter_sublist)
  have hfiltered := hsub.filter (·.1.occurredAt = t)
  rw [List.filter_filter] at hfiltered
  simp only [Bool.and_self] at hfiltered
  exact (hfiltered.eq_of_length ((perm_sortedAt log wanted).filter _).length_eq.symm).symm

/-- One entry comes before another: it is not later, and it stands first if they are of one time. -/
def Precedes (p q : Entry × Nat) : Prop :=
  p.1.occurredAt ≤ q.1.occurredAt ∧ (p.1.occurredAt = q.1.occurredAt → p.2 < q.2)

theorem precedes_sortedAt (log : Log) (wanted : Entry → Bool) :
    (log.sortedAt wanted).Pairwise Precedes := by
  refine List.pairwise_iff_forall_sublist.mpr ?_
  intro p q hpq
  refine ⟨List.pairwise_iff_forall_sublist.mp (pairwise_sortedAt log wanted) hpq, ?_⟩
  intro htime
  -- among the entries of this time they are as they stand in the log
  have hsub := hpq.filter (·.1.occurredAt = q.1.occurredAt)
  rw [filter_sortedAt, List.filter_cons_of_pos (by simpa using htime),
    List.filter_cons_of_pos (by simp), List.filter_nil] at hsub
  exact List.pairwise_iff_forall_sublist.mp (pairwise_wantedAt log wanted)
    (hsub.trans List.filter_sublist)

/-! ## The selection -/

/-- These are the first of the wanted entries, at most `limit` of them, in their order. -/
structure IsSelection (log : Log) (wanted : Entry → Bool) (limit : Nat)
    (selected : List (Entry × Nat)) : Prop where
  meets {p : Entry × Nat} : p ∈ selected → log[p.2]? = some p.1 ∧ wanted p.1 = true
  /-- None comes from a place twice. -/
  nodup : (selected.map Prod.snd).Nodup
  ordered : selected.Pairwise Precedes
  /-- Who is left out comes behind all that are selected. -/
  first {p q : Entry × Nat} : p ∈ selected → log[q.2]? = some q.1 → wanted q.1 = true →
    q ∉ selected → Precedes p q
  /-- No one is left out as long as there is room. -/
  length : selected.length = min limit (log.countP wanted)

/-- The entries that are selected, each with its place in the log. -/
def selectedAt (log : Log) (wanted : Entry → Bool) (limit : Nat) : List (Entry × Nat) :=
  (log.sortedAt wanted).take limit

theorem map_fst_selectedAt (log : Log) (wanted : Entry → Bool) (limit : Nat) :
    (log.selectedAt wanted limit).map Prod.fst = (byTime (log.filter wanted)).take limit := by
  rw [selectedAt, List.map_take, map_fst_sortedAt]

theorem isSelection (log : Log) (wanted : Entry → Bool) (limit : Nat) :
    log.IsSelection wanted limit (log.selectedAt wanted limit) where
  meets h := mem_wantedAt.mp ((perm_sortedAt log wanted).subset (List.mem_of_mem_take h))
  nodup := by
    have hplaces : ((log.wantedAt wanted).map Prod.snd).Nodup :=
      List.pairwise_map.mpr ((pairwise_wantedAt log wanted).imp Nat.ne_of_lt)
    have hsorted := ((perm_sortedAt log wanted).map Prod.snd).nodup_iff.mpr hplaces
    exact hsorted.sublist ((List.take_sublist _ _).map _)
  ordered := (precedes_sortedAt log wanted).sublist (List.take_sublist _ _)
  first {p q} hp hq hwanted hout := by
    have hmem : q ∈ log.sortedAt wanted :=
      (perm_sortedAt log wanted).symm.subset (mem_wantedAt.mpr ⟨hq, hwanted⟩)
    have hordered := precedes_sortedAt log wanted
    rw [← List.take_append_drop limit (log.sortedAt wanted)] at hmem hordered
    have hlate := (List.mem_append.mp hmem).resolve_left hout
    exact (List.pairwise_append.mp hordered).2.2 p hp q hlate
  length := by
    rw [selectedAt, List.length_take, (perm_sortedAt log wanted).length_eq,
      ← List.length_map Prod.fst, map_fst_wantedAt, List.countP_eq_length_filter]

end Log

end TableService
