import Mathlib.Data.List.Forall2
import TableService.Proofs.Outbox.Marking
import TableService.Proofs.Outbox.Selection

/-!
# Logs in causal order

Entries about different aggregates may stand in the log in another order than that of their times.
What is handed out is sorted by time, so entries about one aggregate keep the order of the log only
if their times do not fall, and because the sort is stable.

- `Log.InTime`: along the log, the times of the entries about one aggregate do not fall.
- `Log.pendingAt`: what is handed out, each entry with its place in the log.
- `Log.InTime.isCausal`: an entry is never handed out before one about the same aggregate that
  stands before it and is due.
-/

namespace TableService

/-- Whether two entries are about the same aggregate. -/
def Entry.IsAlike (e e' : Entry) : Prop :=
  e.aggregateType = e'.aggregateType ∧ e.aggregateId = e'.aggregateId

namespace Log

variable {log more : Log} {now : Instant} {limit : Nat}

/-! ## Times that do not fall -/

/-- The times of the entries about one aggregate do not fall. -/
def InTime (log : Log) : Prop :=
  log.Pairwise fun e e' => e.IsAlike e' → e.occurredAt ≤ e'.occurredAt

theorem inTime_nil : InTime [] := List.Pairwise.nil

/-- New entries of one time are in time if nothing about their aggregate is later. -/
theorem InTime.append {t : Instant} (h : log.InTime) (hmore : ∀ e ∈ more, e.occurredAt = t)
    (hlog : ∀ e ∈ log, ∀ e' ∈ more, e.IsAlike e' → e.occurredAt ≤ t) :
    InTime (log ++ more) := by
  refine List.pairwise_append.mpr ⟨h, ?_, ?_⟩
  · refine List.pairwise_of_forall_mem_list fun e he e' he' _ => ?_
    rw [hmore e he, hmore e' he']
    exact Instant.le_refl t
  · intro e he e' he' halike
    rw [hmore e' he']
    exact hlog e he e' he' halike

/-- Marks do not touch what an entry is about, nor its time. -/
theorem InTime.of_same {log' : Log} (h : log.InTime) (hsame : List.Forall₂ Entry.Same log log') :
    log'.InTime := by
  refine List.pairwise_iff_getElem.mpr fun i j hi hj hij halike => ?_
  have hlength : log.length = log'.length := hsame.length_eq
  have hfirst : log[i].Same log'[i] := hsame.get (by omega) hi
  have hsecond : log[j].Same log'[j] := hsame.get (by omega) hj
  obtain ⟨htype, hid⟩ := halike
  rw [hfirst.occurredAt, hsecond.occurredAt]
  refine List.pairwise_iff_getElem.mp h i j (by omega) (by omega) hij ⟨?_, ?_⟩
  · rw [← hfirst.aggregateType, ← hsecond.aggregateType]
    exact htype
  · rw [← hfirst.aggregateId, ← hsecond.aggregateId]
    exact hid

/-- Of two entries about one aggregate the one that stands first is not later. -/
theorem InTime.occurredAt_le (h : log.InTime) {i j : Nat} {e e' : Entry} (hi : log[i]? = some e)
    (hj : log[j]? = some e') (hij : i < j) (halike : e.IsAlike e') :
    e.occurredAt ≤ e'.occurredAt := by
  obtain ⟨hi', rfl⟩ := List.getElem?_eq_some_iff.mp hi
  obtain ⟨hj', rfl⟩ := List.getElem?_eq_some_iff.mp hj
  exact List.pairwise_iff_getElem.mp h i j hi' hj' hij halike

/-! ## What is handed out -/

/-- The pending entries, each with its place in the log. -/
def pendingAt (log : Log) (now : Instant) (limit : Nat) : List (Entry × Nat) :=
  ((log.zipIdx.filter (·.1.isDue now)).mergeSort
    fun p q => p.1.occurredAt ≤ q.1.occurredAt).take limit

theorem map_fst_pendingAt (log : Log) (now : Instant) (limit : Nat) :
    (log.pendingAt now limit).map Prod.fst = log.pending now limit :=
  log.map_fst_selectedAt (·.isDue now) limit

theorem mem_pendingAt {e : Entry} {i : Nat} (h : (e, i) ∈ log.pendingAt now limit) :
    log[i]? = some e ∧ e.isDue now = true :=
  (log.isSelection (·.isDue now) limit).meets h

/-- Who is in the first part of a list has all before it there, too. -/
theorem pair_sublist_take {α : Type} {l : List α} {a b : α} {n : Nat} (hn : l.Nodup)
    (h : [a, b].Sublist l) (hb : b ∈ l.take n) : [a, b].Sublist (l.take n) := by
  have hapart : b ∉ l.drop n := by
    rw [← List.take_append_drop n l, List.nodup_append] at hn
    exact fun hdrop => hn.2.2 b hb b hdrop rfl
  rw [← List.take_append_drop n l, List.sublist_append_iff] at h
  obtain ⟨first, second, heq, hfirst, hsecond⟩ := h
  -- what is behind the first part holds nothing of the two, since `b` is the last of them
  rcases List.eq_nil_or_concat' second with rfl | ⟨init, last, rfl⟩
  · rw [heq, List.append_nil]
    exact hfirst
  · rw [← List.append_assoc] at heq
    obtain rfl : b = last := by
      have hlast := congrArg List.getLast? heq
      simpa using hlast
    exact absurd (hsecond.subset (List.mem_append_right _ List.mem_cons_self)) hapart

/-- Entries about one aggregate are handed out in the order of the log. -/
structure IsCausal (log : Log) : Prop where
  inTime : log.InTime
  handedOut (now : Instant) (limit : Nat) :
    (log.pendingAt now limit).map Prod.fst = log.pending now limit
  before {now : Instant} {limit i j : Nat} {e e' : Entry} : log[i]? = some e → log[j]? = some e' →
    i < j → e.IsAlike e' → e.isDue now = true → (e', j) ∈ log.pendingAt now limit →
      [(e, i), (e', j)].Sublist (log.pendingAt now limit)

theorem InTime.isCausal (h : log.InTime) : log.IsCausal where
  inTime := h
  handedOut := map_fst_pendingAt log
  before {now limit i j e e'} hi hj hij halike hdue hmem := by
    have hsub : [(e, i), (e', j)].Sublist (log.zipIdx.filter (·.1.isDue now)) := by
      have hfilter := (pair_sublist (l := log.zipIdx) (a := (e, i)) (b := (e', j))
        (by simpa using hi) (by simpa using hj) hij).filter (·.1.isDue now)
      rwa [List.filter_cons_of_pos (by exact hdue),
        List.filter_cons_of_pos (by exact (mem_pendingAt hmem).2), List.filter_nil] at hfilter
    have hle : e.occurredAt ≤ e'.occurredAt := h.occurredAt_le hi hj hij halike
    have hsorted := List.pair_sublist_mergeSort le_trans_occurredAt le_total_occurredAt
      (decide_eq_true hle) hsub
    refine pair_sublist_take ?_ hsorted hmem
    exact (List.mergeSort_perm _ _).nodup_iff.mpr ((nodup_zipIdx log).filter _)

end Log

end TableService
