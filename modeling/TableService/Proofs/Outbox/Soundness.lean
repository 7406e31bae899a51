import TableService.Proofs.Outbox.History

/-!
# What holds of the log at any time

- `Log.Sound`: the invariant. Ids differ, events are in the order of their time, and every entry
  carries one.
- `Log.Sound.append`, `Log.Sound.put`: commands and attempts keep it.
- `Log.Sound.pending_eq`: so the entries that are due are attempted in the order of the log.
-/

namespace TableService

/-- An entry of the event of a command. -/
inductive Entry.IsRecord (entry : Entry) : Prop where
  | order {e : OrderEvent} (carries : entry.Carries Order e)
  | menuItem {e : MenuItemEvent} (carries : entry.Carries MenuItem e)

theorem Entry.IsRecord.of_same {entry entry' : Entry} (h : entry.IsRecord)
    (hsame : entry.Same entry') : entry'.IsRecord := by
  cases h with
  | order carries => exact .order (carries.of_same hsame)
  | menuItem carries => exact .menuItem (carries.of_same hsame)

/-- What holds of every entry at a time. -/
structure Entry.IsKept (now : Instant) (entry : Entry) : Prop where
  sound : entry.Sound
  retries : entry.policy.maxRetries ≠ 0
  past : entry.occurredAt ≤ now
  record : entry.IsRecord

namespace Log

/-- The invariant of the log. -/
structure Sound (log : Log) (now : Instant) : Prop where
  nodup : (log.map Entry.id).Nodup
  ordered : log.Pairwise fun a b => a.occurredAt ≤ b.occurredAt
  kept : ∀ e ∈ log, e.IsKept now

variable {log : Log} {now : Instant}

theorem sound_empty (now : Instant) : Sound [] now where
  nodup := List.nodup_nil
  ordered := List.Pairwise.nil
  kept _ he := absurd he List.not_mem_nil

/-- Time goes by. -/
theorem Sound.later {t : Instant} (h : log.Sound now) (ht : now ≤ t) : log.Sound t where
  nodup := h.nodup
  ordered := h.ordered
  kept e he :=
    { h.kept e he with past := Instant.le_trans (h.kept e he).past ht }

/-- New entries are those of the time that it is now. -/
theorem Sound.append {entries : List Entry} (h : log.Sound now) (hn : (entries.map Entry.id).Nodup)
    (hfresh : ∀ e ∈ entries, ∀ old ∈ log, e.id ≠ old.id) (hkept : ∀ e ∈ entries, e.IsKept now)
    (hnow : ∀ e ∈ entries, e.occurredAt = now) : Sound (log ++ entries) now where
  nodup := by
    rw [List.map_append, List.nodup_append]
    refine ⟨h.nodup, hn, ?_⟩
    intro _ ha _ hb heq
    obtain ⟨old, hold, rfl⟩ := List.mem_map.mp ha
    obtain ⟨e, he, rfl⟩ := List.mem_map.mp hb
    exact hfresh e he old hold heq.symm
  ordered := by
    rw [List.pairwise_append]
    -- new entries are all of the time that it is now, and no entry is of a later time
    refine ⟨h.ordered, List.pairwise_of_forall_mem_list fun a ha b hb => ?_, fun a ha b hb => ?_⟩
    · rw [hnow a ha, hnow b hb]
      exact Instant.le_refl now
    · rw [hnow b hb]
      exact (h.kept a ha).past
  kept e he := by
    rcases List.mem_append.mp he with he | he
    · exact h.kept e he
    · exact hkept e he

/-- To mark an entry changes neither its id nor its time. -/
theorem Sound.put {e e' : Entry} (h : log.Sound now) (he : e ∈ log) (hsame : e.Same e')
    (hsound : e'.Sound) : Sound (log.map (Log.put e')) now where
  nodup := by
    rw [map_id_put]
    exact h.nodup
  ordered := by
    rw [List.pairwise_map]
    refine h.ordered.imp_of_mem ?_
    intro a b ha hb hle
    rw [(same_put h.nodup he hsame ha).occurredAt, (same_put h.nodup he hsame hb).occurredAt]
    exact hle
  kept x hx := by
    obtain ⟨y, hy, rfl⟩ := List.mem_map.mp hx
    have hkept := h.kept y hy
    have hyput := same_put h.nodup he hsame hy
    refine ⟨?_, hyput.policy ▸ hkept.retries, hyput.occurredAt ▸ hkept.past,
      hkept.record.of_same hyput⟩
    unfold Log.put
    split
    · exact hsound
    · exact hkept.sound

/-- Entries that are in the order of their time already are not sorted anew. -/
theorem pending_eq (hordered : log.Pairwise fun a b => a.occurredAt ≤ b.occurredAt) (now : Instant)
    (limit : Nat) : log.pending now limit = (log.filter (·.isDue now)).take limit := by
  have hsorted : (log.filter (·.isDue now)).Pairwise
      fun a b => decide (a.occurredAt ≤ b.occurredAt) = true :=
    (hordered.filter _).imp fun hle => decide_eq_true hle
  rw [pending, byTime, List.mergeSort_of_pairwise hsorted]

theorem Sound.pending_eq (h : log.Sound now) (limit : Nat) :
    log.pending now limit = (log.filter (·.isDue now)).take limit :=
  Log.pending_eq h.ordered now limit

/-- What is fetched is due, and nothing is fetched twice. -/
theorem pending_spec (now : Instant) (limit : Nat) (hn : (log.map Entry.id).Nodup) :
    (∀ e ∈ log.pending now limit, e ∈ log ∧ e.isDue now = true) ∧
      ((log.pending now limit).map Entry.id).Nodup := by
  have hperm := List.mergeSort_perm (log.filter (·.isDue now))
    fun a b => decide (a.occurredAt ≤ b.occurredAt)
  have hsub : (log.pending now limit).Sublist (byTime (log.filter (·.isDue now))) :=
    List.take_sublist _ _
  constructor
  · intro e he
    exact List.mem_filter.mp (hperm.mem_iff.mp (hsub.subset he))
  · refine List.Nodup.sublist (hsub.map _) ((hperm.map Entry.id).nodup_iff.mpr ?_)
    exact hn.sublist (List.filter_sublist.map _)

end Log

/-- A pending entry at which no attempt has failed is due. -/
theorem Entry.IsKept.isDue_of_pending {now t : Instant} {entry : Entry} (h : entry.IsKept t)
    (hpending : entry.status = .pending) : entry.isDue now = true := by
  obtain ⟨hcount, hnext⟩ := h.sound.pending hpending
  -- a policy allows for one attempt at least
  have hretry : entry.canRetry = true := by
    rw [canRetry, hcount, decide_eq_true_eq, UInt32.pos_iff_ne_zero]
    exact h.retries
  rw [isDue, hpending, hretry, isReady, hnext]
  rfl

/-- What is due has attempts left. -/
theorem Entry.canRetry_of_isDue {now : Instant} {entry : Entry} (h : entry.isDue now = true) :
    entry.canRetry = true := by
  cases hretry : entry.canRetry with
  | true => rfl
  | false => simp [isDue, hretry] at h

/-- What is due is open. -/
theorem Entry.isOpen_of_isDue {now : Instant} {entry : Entry} (h : entry.isDue now = true) :
    entry.status.isTerminal = false := by
  cases hterminal : entry.status.isTerminal with
  | false => rfl
  | true => simp [isDue, hterminal] at h

end TableService
