import Mathlib.Algebra.GroupWithZero.Nat
import Mathlib.Data.List.Nodup
import TableService.Proofs.Outbox.InPlace

/-!
# What marking does to the log

- `Entry.Same`: what never changes of an entry.
- `Entry.Sound`: an entry that waits has not failed yet, and one that failed may be tried again.
- `Entry.markProcessed_ok`, `markFailed_ok`: an entry that is open can be marked.
- `Log.change_mark_ok`: a mark changes the one entry that it names.
- `Log.markDeadLettered_cases`: to give an entry up by hand changes it, or is refused.
-/

namespace TableService

/-! ## Entries -/

namespace Entry

/-- What never changes of an entry. -/
structure Same (e e' : Entry) : Prop where
  id : e'.id = e.id
  eventType : e'.eventType = e.eventType
  eventData : e'.eventData = e.eventData
  aggregateId : e'.aggregateId = e.aggregateId
  aggregateType : e'.aggregateType = e.aggregateType
  occurredAt : e'.occurredAt = e.occurredAt
  policy : e'.policy = e.policy

theorem Same.refl (e : Entry) : Same e e := ⟨rfl, rfl, rfl, rfl, rfl, rfl, rfl⟩

theorem Same.trans {a b c : Entry} (h : Same a b) (h' : Same b c) : Same a c where
  id := h'.id.trans h.id
  eventType := h'.eventType.trans h.eventType
  eventData := h'.eventData.trans h.eventData
  aggregateId := h'.aggregateId.trans h.aggregateId
  aggregateType := h'.aggregateType.trans h.aggregateType
  occurredAt := h'.occurredAt.trans h.occurredAt
  policy := h'.policy.trans h.policy

/-- No attempt at a pending entry has failed. A failed one has attempts left. -/
structure Sound (e : Entry) : Prop where
  pending : e.status = .pending → e.retryCount = 0 ∧ e.nextRetryAt = none
  failed : e.status = .failed → e.retryCount ≠ 0 ∧ e.canRetry = true

/-- Neither has an attempt at it failed, nor has it been given up. -/
def IsClean (e : Entry) : Prop :=
  e.retryCount = 0 ∧ (e.status = .pending ∨ e.status = .processed)

theorem Sound.isClean_iff {e : Entry} (h : e.Sound) :
    e.IsClean ↔ e.retryCount = 0 ∧ e.status ≠ .deadLettered := by
  unfold IsClean
  constructor
  · rintro ⟨hcount, hp | hp⟩
    · rw [hp]
      exact ⟨hcount, nofun⟩
    · rw [hp]
      exact ⟨hcount, nofun⟩
  · rintro ⟨hcount, hdead⟩
    refine ⟨hcount, ?_⟩
    cases hstatus : e.status with
    | pending => exact .inl rfl
    | processed => exact .inr rfl
    | failed => exact absurd hcount (h.failed hstatus).1
    | deadLettered => exact absurd hstatus hdead

theorem markProcessed_ok {e : Entry} (now : Instant) (hopen : e.status.isTerminal = false) :
    ∃ e', e.markProcessed now = .ok e' ∧ e.Same e' ∧ e'.Sound ∧ e'.status = .processed ∧
      e'.retryCount = e.retryCount := by
  refine ⟨{ e with status := .processed, processedAt := some now, nextRetryAt := none }, ?_,
    ⟨rfl, rfl, rfl, rfl, rfl, rfl, rfl⟩, ⟨nofun, nofun⟩, rfl, rfl⟩
  rw [markProcessed_eq, hopen]
  rfl

/-- The count of an entry that is tried again goes up by one. -/
theorem retryCount_add_one_ne_zero {e : Entry} (h : e.Sound) (hopen : e.status.isTerminal = false) :
    e.retryCount + 1 ≠ 0 := by
  cases hstatus : e.status with
  | pending =>
    rw [(h.pending hstatus).1]
    decide
  | failed =>
    -- it has attempts left, so the count does not wrap around
    intro hzero
    have hcount := toNat_retryCount_add_one (h.failed hstatus).2
    rw [hzero] at hcount
    simp at hcount
  | processed =>
    rw [hstatus] at hopen
    cases hopen
  | deadLettered =>
    rw [hstatus] at hopen
    cases hopen

theorem markFailed_ok {e : Entry} (error : String) (now : Instant) (h : e.Sound)
    (hopen : e.status.isTerminal = false) :
    ∃ e', e.markFailed error now = .ok e' ∧ e.Same e' ∧ e'.Sound ∧
      (e'.status = .failed ∨ e'.status = .deadLettered) := by
  have hne := retryCount_add_one_ne_zero h hopen
  rw [markFailed_eq, hopen, if_neg Bool.false_ne_true]
  unfold EntryM.scheduled
  split
  · rename_i hretry
    refine ⟨_, rfl, ⟨rfl, rfl, rfl, rfl, rfl, rfl, rfl⟩,
      ⟨EntryStatus.noConfusion, fun _ => ⟨?_, hretry⟩⟩, .inl rfl⟩
    -- the smaller of the two is below the limit, so it is the count
    intro hzero
    have hless : min (e.retryCount + 1) e.policy.maxRetries < e.policy.maxRetries :=
      of_decide_eq_true hretry
    by_cases hle : e.retryCount + 1 ≤ e.policy.maxRetries
    · have hmin : min (e.retryCount + 1) e.policy.maxRetries = e.retryCount + 1 := if_pos hle
      exact hne (hmin.symm.trans hzero)
    · have hmin : min (e.retryCount + 1) e.policy.maxRetries = e.policy.maxRetries := if_neg hle
      rw [hmin] at hless
      exact absurd hless (UInt32.lt_irrefl _)
  · exact ⟨_, rfl, ⟨rfl, rfl, rfl, rfl, rfl, rfl, rfl⟩,
      ⟨EntryStatus.noConfusion, EntryStatus.noConfusion⟩, .inr rfl⟩

/-- The entry when it has been given up by hand. -/
def abandoned (e : Entry) : Entry :=
  { e with
    status := .deadLettered, nextRetryAt := none
    lastError := some "dead-lettered by operator" }

theorem same_abandoned (e : Entry) : e.Same e.abandoned := ⟨rfl, rfl, rfl, rfl, rfl, rfl, rfl⟩

theorem markDeadLettered_ok {e : Entry} (hopen : e.status.isTerminal = false) :
    e.markDeadLettered (some "dead-lettered by operator") = .ok e.abandoned := by
  rw [markDeadLettered_eq, hopen]
  rfl

end Entry

/-! ## The log -/

namespace Log

variable {log : Log} {e e' : Entry}

/-- Puts an entry in the place of the one with its id. -/
def put (e' x : Entry) : Entry := if x.id = e'.id then e' else x

theorem eq_of_id_eq (hn : (log.map Entry.id).Nodup) {a b : Entry} (ha : a ∈ log) (hb : b ∈ log)
    (h : a.id = b.id) : a = b :=
  List.inj_on_of_nodup_map hn ha hb h

theorem find?_eq_some (hn : (log.map Entry.id).Nodup) (he : e ∈ log) : log.find? e.id = some e := by
  cases hfound : log.find? e.id with
  | none =>
    have hnone := List.find?_eq_none.mp hfound e he
    simp at hnone
  | some x =>
    have hid : x.id = e.id := by simpa using List.find?_some hfound
    rw [eq_of_id_eq hn (List.mem_of_find?_eq_some hfound) he hid]

theorem updateFirst_eq_map (hn : (log.map Entry.id).Nodup) :
    updateFirst (·.id == e'.id) (fun _ => e') log = log.map (put e') := by
  induction log with
  | nil => rfl
  | cons x rest ih =>
    rw [List.map_cons, List.nodup_cons] at hn
    by_cases hx : x.id = e'.id
    · -- no other entry has this id, so only the first is replaced either way
      have hrest : ∀ y ∈ rest, put e' y = y := by
        intro y hy
        refine if_neg fun hyid => hn.1 ?_
        rw [hx, ← hyid]
        exact List.mem_map_of_mem hy
      simp [updateFirst, put, hx, List.map_congr_left hrest]
    · simp [updateFirst, put, hx, ih hn.2]

/-- A mark changes the one entry that it names. -/
theorem change_mark_ok {α : Type} {m : EntryM α} (hn : (log.map Entry.id).Nodup) (he : e ∈ log)
    (hm : e.change m = .ok e') (hid : e'.id = e.id) :
    log.change (LogM.mark e.id m) = .ok (e', log.map (put e')) := by
  rw [change_mark_eq, find?_eq_some hn he]
  dsimp only
  rw [hm, ← hid]
  exact congrArg (fun log' => Except.ok (e', log')) (updateFirst_eq_map hn)

/-- An entry that is over takes no mark. -/
theorem change_mark_error {α : Type} {m : EntryM α} {err : OutboxError}
    (hn : (log.map Entry.id).Nodup) (he : e ∈ log) (hm : e.change m = .error err) :
    log.change (LogM.mark e.id m) = .error err := by
  rw [change_mark_eq, find?_eq_some hn he]
  dsimp only
  rw [hm]
  rfl

/-- To give an entry up by hand changes that entry, or is refused. -/
theorem markDeadLettered_cases (hn : (log.map Entry.id).Nodup) (id : String) :
    (∃ err, log.markDeadLettered id = .error err) ∨
      ∃ e ∈ log, e.status.isTerminal = false ∧
        log.markDeadLettered id = .ok (e.abandoned, log.map (put e.abandoned)) := by
  cases hfound : log.find? id with
  | none =>
    refine .inl ⟨.entryNotFound id, ?_⟩
    rw [markDeadLettered, LogM.markDeadLettered, change_mark_eq, hfound]
  | some e =>
    have he : e ∈ log := List.mem_of_find?_eq_some hfound
    have hid : e.id = id := by simpa using List.find?_some hfound
    subst hid
    cases hopen : e.status.isTerminal with
    | true =>
      have hrefused : e.markDeadLettered (some "dead-lettered by operator") =
          .error (.invalidTransition e.id e.status "dead-letter") := by
        rw [Entry.markDeadLettered_eq, if_pos hopen]
      exact .inl ⟨_, change_mark_error hn he hrefused⟩
    | false =>
      exact .inr ⟨e, he, hopen,
        change_mark_ok hn he (Entry.markDeadLettered_ok hopen) (Entry.same_abandoned e).id⟩

/-! ### Putting an entry back -/

theorem same_put (hn : (log.map Entry.id).Nodup) (he : e ∈ log) (hsame : e.Same e') {x : Entry}
    (hx : x ∈ log) : x.Same (put e' x) := by
  unfold put
  split
  · rename_i hid
    rw [eq_of_id_eq hn hx he (hid.trans hsame.id)]
    exact hsame
  · exact .refl x

theorem put_of_ne {x : Entry} (h : x.id ≠ e'.id) : put e' x = x := if_neg h

theorem put_of_eq {x : Entry} (h : x.id = e'.id) : put e' x = e' := if_pos h

/-- What is put does not touch the others. -/
theorem mem_map_put_of_ne {x : Entry} (hx : x ∈ log) (h : x.id ≠ e'.id) : x ∈ log.map (put e') :=
  List.mem_map.mpr ⟨x, hx, put_of_ne h⟩

theorem map_id_put (log : Log) (e' : Entry) :
    (log.map (put e')).map Entry.id = log.map Entry.id := by
  rw [List.map_map]
  refine List.map_congr_left ?_
  intro x _
  by_cases hx : x.id = e'.id
  · rw [Function.comp, put_of_eq hx, hx]
  · rw [Function.comp, put_of_ne hx]

/-- To keep some entries by what never changes of them is the same before and after. -/
theorem filter_map_put {p : Entry → Bool} (hp : ∀ {a b : Entry}, a.Same b → p b = p a)
    (hn : (log.map Entry.id).Nodup) (he : e ∈ log) (hsame : e.Same e') :
    (log.map (put e')).filter p = (log.filter p).map (put e') := by
  rw [List.filter_map]
  refine congrArg _ (List.filter_congr fun x hx => ?_)
  exact hp (same_put hn he hsame hx)

theorem map_put_middle {front back : List Entry} {e e' : Entry}
    (hn : ((front ++ e :: back).map Entry.id).Nodup) (hid : e'.id = e.id) :
    (front ++ e :: back).map (put e') = front ++ e' :: back := by
  -- no entry on either side has this id
  have hother : ∀ x, x ∈ front ∨ x ∈ back → put e' x = x := by
    intro x hx
    refine put_of_ne ?_
    intro heq
    rw [List.map_append, List.map_cons, List.nodup_append] at hn
    rcases hx with hx | hx
    · exact hn.2.2 _ (List.mem_map_of_mem hx) _ List.mem_cons_self (heq.trans hid)
    · refine (List.nodup_cons.mp hn.2.1).1 ?_
      rw [← hid, ← heq]
      exact List.mem_map_of_mem hx
  have hfront : front.map (put e') = front :=
    (List.map_congr_left fun x hx => hother x (.inl hx)).trans (List.map_id _)
  have hback : back.map (put e') = back :=
    (List.map_congr_left fun x hx => hother x (.inr hx)).trans (List.map_id _)
  rw [List.map_append, List.map_cons, put_of_eq hid.symm, hfront, hback]

/-- A sum over the log changes by what the entry adds to it. -/
theorem sum_map_put (hn : (log.map Entry.id).Nodup) (he : e ∈ log) (hid : e'.id = e.id)
    (f : Entry → Nat) : ((log.map (put e')).map f).sum + f e = (log.map f).sum + f e' := by
  obtain ⟨front, back, rfl⟩ := List.append_of_mem he
  rw [map_put_middle hn hid]
  simp only [List.map_append, List.map_cons, List.sum_append, List.sum_cons]
  omega

theorem countP_map_put (hn : (log.map Entry.id).Nodup) (he : e ∈ log) (hid : e'.id = e.id)
    (p : Entry → Bool) : (log.map (put e')).countP p + (if p e then 1 else 0) =
      log.countP p + if p e' then 1 else 0 := by
  obtain ⟨front, back, rfl⟩ := List.append_of_mem he
  rw [map_put_middle hn hid]
  simp only [List.countP_append, List.countP_cons]
  omega

end Log

end TableService
