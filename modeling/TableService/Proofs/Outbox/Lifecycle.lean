import TableService.Proofs.Command.Work
import TableService.Proofs.Outbox.Soundness

/-!
# The life of an entry

- `Entry.Call`, `Entry.run`: the calls that may be made on an entry, in place and in any order, of
  which some are refused.
- `Entry.atomic_inPlace`: a call that is refused has done nothing.
- `Entry.markFailed_of_canRetry`: a failed attempt takes one of the attempts that are left.
- `Entry.Consistent`: how status, count, policy, last error and the two times go together. Every
  call keeps it.
- `Entry.Consistent.run`: so it holds of an entry for good, and no entry that is open is lost.
-/

namespace TableService.Entry

open InPlace

/-- A call on an entry. A policy is made of its two numbers, which may be refused themselves. -/
inductive Call where
  | withPolicy (maxRetries baseDelaySeconds : UInt32)
  | markProcessed (now : Instant)
  | markFailed (error : String) (now : Instant)
  | markDeadLettered (reason : Option String)

/-- A call as a transition in place. -/
def Call.inPlace : Call → EntryM Unit
  | .withPolicy maxRetries baseDelaySeconds => do
    EntryM.withPolicy (← MonadExcept.ofExcept (RetryPolicy.of? maxRetries baseDelaySeconds))
  | .markProcessed now => EntryM.markProcessed now
  | .markFailed error now => do
    let _ ← EntryM.markFailed error now
  | .markDeadLettered reason => EntryM.markDeadLettered reason

/-- The entry behind a call that is not refused. -/
def perform (e : Entry) (call : Call) : Except OutboxError Entry :=
  e.change call.inPlace

/-- The entry after a call, as the call leaves it in place, whether or not it is refused. -/
def after (e : Entry) (call : Call) : Entry :=
  (call.inPlace.run.run e).2

/-- The entry after one call after another. -/
def run (e : Entry) (calls : List Call) : Entry :=
  calls.foldl after e

variable {e e' : Entry} {call : Call}

theorem perform_withPolicy (e : Entry) (maxRetries baseDelaySeconds : UInt32) :
    e.perform (.withPolicy maxRetries baseDelaySeconds) =
      RetryPolicy.of? maxRetries baseDelaySeconds >>= e.withPolicy := by
  rw [perform, change, Call.inPlace, run_bind, run_ofExcept]
  cases RetryPolicy.of? maxRetries baseDelaySeconds with
  | error _ => rfl
  | ok policy => rfl

theorem perform_markFailed (e : Entry) (error : String) (now : Instant) :
    e.perform (.markFailed error now) = e.markFailed error now := by
  rw [perform, markFailed, change, change, Call.inPlace, run_bind]
  rcases (EntryM.markFailed error now).run.run e with ⟨_ | _, e'⟩ <;> rfl

theorem after_of_ok (h : e.perform call = .ok e') : e.after call = e' := by
  unfold perform change at h
  split at h
  · rename_i hrun
    cases h
    rw [after, hrun]
  · cases h

/-- A call that is refused has done nothing. -/
theorem atomic_inPlace (e : Entry) (call : Call) : Atomic call.inPlace e := by
  cases call with
  | withPolicy maxRetries baseDelaySeconds =>
    exact .bind (run_ofExcept _ e) fun policy _ => EntryM.atomic_withPolicy policy e
  | markProcessed now => exact EntryM.atomic_markProcessed now e
  | markFailed error now => exact (EntryM.atomic_markFailed error now e).bind_pure
  | markDeadLettered reason => exact EntryM.atomic_markDeadLettered reason e

theorem after_of_error {err : OutboxError} (h : e.perform call = .error err) :
    e.after call = e := by
  unfold perform change at h
  split at h
  · cases h
  · rename_i hrun
    rw [after, hrun]
    exact atomic_inPlace e call _ _ hrun

/-! ## What a call does that is not refused -/

theorem of_withPolicy_eq_ok {policy : RetryPolicy} (h : e.withPolicy policy = .ok e') :
    e.status = .pending ∧ e.retryCount = 0 ∧ e' = { e with policy } := by
  rw [withPolicy_eq] at h
  split at h
  · cases h
  · rename_i hnew
    rw [not_or, not_not, UInt32.pos_iff_ne_zero, not_not] at hnew
    cases h
    exact ⟨hnew.1, hnew.2, rfl⟩

theorem of_markProcessed_eq_ok {now : Instant} (h : e.markProcessed now = .ok e') :
    e.status.isTerminal = false ∧
      e' = { e with status := .processed, processedAt := some now, nextRetryAt := none } := by
  rw [markProcessed_eq] at h
  split at h
  · cases h
  · rename_i hopen
    cases h
    exact ⟨Bool.eq_false_iff.mpr hopen, rfl⟩

theorem of_markDeadLettered_eq_ok {reason : Option String}
    (h : e.markDeadLettered reason = .ok e') :
    e.status.isTerminal = false ∧
      e' = { e with
        status := .deadLettered, nextRetryAt := none, lastError := reason.or e.lastError } := by
  rw [markDeadLettered_eq] at h
  split at h
  · cases h
  · rename_i hopen
    cases h
    exact ⟨Bool.eq_false_iff.mpr hopen, rfl⟩

theorem isOpen_of_markFailed_eq_ok {error : String} {now : Instant}
    (h : e.markFailed error now = .ok e') : e.status.isTerminal = false := by
  rw [markFailed_eq] at h
  split at h
  · cases h
  · rename_i hopen
    exact Bool.eq_false_iff.mpr hopen

/-- The count goes up to the limit of the policy, and the last attempt ends the entry. -/
theorem of_markFailed_eq_ok {error : String} {now : Instant} (h : e.markFailed error now = .ok e') :
    e.Same e' ∧ e'.retryCount = min (e.retryCount + 1) e.policy.maxRetries ∧
      (e'.status = .deadLettered ∨ e'.canRetry = true) := by
  have hopen := isOpen_of_markFailed_eq_ok h
  rw [markFailed_eq, hopen, if_neg Bool.false_ne_true] at h
  unfold EntryM.scheduled at h
  split at h
  · rename_i hretry
    cases h
    exact ⟨⟨rfl, rfl, rfl, rfl, rfl, rfl, rfl⟩, rfl, .inr hretry⟩
  · cases h
    exact ⟨⟨rfl, rfl, rfl, rfl, rfl, rfl, rfl⟩, rfl, .inl rfl⟩

theorem lt_of_canRetry (h : e.canRetry = true) :
    e.retryCount.toNat < e.policy.maxRetries.toNat := by
  rw [canRetry, decide_eq_true_eq] at h
  exact UInt32.lt_iff_toNat_lt.mp h

/-- While attempts are left, the new count is within the policy. -/
theorem min_retryCount_add_one (h : e.canRetry = true) :
    min (e.retryCount + 1) e.policy.maxRetries = e.retryCount + 1 := by
  refine if_pos ?_
  rw [UInt32.le_iff_toNat_le, toNat_retryCount_add_one h]
  exact lt_of_canRetry h

/-- A failed attempt takes one of the attempts that are left, and the last one ends the entry. -/
theorem markFailed_of_canRetry (error : String) (now : Instant)
    (hopen : e.status.isTerminal = false) (h : e.canRetry = true) :
    (e.retryCount + 1 < e.policy.maxRetries ∧ e.markFailed error now = .ok
      { e with
        retryCount := e.retryCount + 1, lastError := some error, status := .failed
        nextRetryAt := some
          ((now.add? (e.policy.backoff (e.retryCount + 1))).getD .latest) }) ∨
    (e.retryCount + 1 = e.policy.maxRetries ∧ e.markFailed error now = .ok
      { e with
        retryCount := e.retryCount + 1, lastError := some error, status := .deadLettered
        nextRetryAt := none }) := by
  rw [markFailed_eq, hopen, if_neg Bool.false_ne_true]
  simp only [EntryM.scheduled, EntryM.counted, min_retryCount_add_one h, canRetry,
    decide_eq_true_eq]
  by_cases hmore : e.retryCount + 1 < e.policy.maxRetries
  · rw [if_pos hmore]
    exact .inl ⟨hmore, rfl⟩
  · rw [if_neg hmore]
    refine .inr ⟨?_, rfl⟩
    have hlt := lt_of_canRetry h
    rw [UInt32.lt_iff_toNat_lt, toNat_retryCount_add_one h] at hmore
    rw [← UInt32.toNat_inj, toNat_retryCount_add_one h]
    omega

/-! ## The invariant -/

/-- How the fields of an entry go together. -/
structure Consistent (e : Entry) : Prop where
  allows : 1 ≤ e.policy.maxRetries
  within : e.retryCount ≤ e.policy.maxRetries
  pending : e.status = .pending → e.retryCount = 0 ∧ e.lastError = none
  failed : e.status = .failed →
    1 ≤ e.retryCount ∧ e.retryCount < e.policy.maxRetries ∧ e.lastError.isSome
  scheduled : e.nextRetryAt.isSome ↔ e.status = .failed
  dated : e.processedAt.isSome ↔ e.status = .processed

theorem status_of_isOpen (hopen : e.status.isTerminal = false) :
    e.status = .pending ∨ e.status = .failed := by
  cases hstatus : e.status with
  | pending => exact .inl rfl
  | failed => exact .inr rfl
  | processed =>
    rw [hstatus] at hopen
    cases hopen
  | deadLettered =>
    rw [hstatus] at hopen
    cases hopen

namespace Consistent

/-- An entry that is open has attempts left. -/
theorem canRetry (h : e.Consistent) (hopen : e.status.isTerminal = false) :
    e.canRetry = true := by
  rw [Entry.canRetry, decide_eq_true_eq]
  rcases status_of_isOpen hopen with hstatus | hstatus
  · rw [(h.pending hstatus).1, UInt32.lt_iff_toNat_lt]
    exact UInt32.le_iff_toNat_le.mp h.allows
  · exact (h.failed hstatus).2.1

theorem processedAt_of_isOpen (h : e.Consistent) (hopen : e.status.isTerminal = false) :
    e.processedAt = none := by
  rw [← Option.not_isSome_iff_eq_none, h.dated]
  intro hstatus
  rw [hstatus] at hopen
  cases hopen

theorem create {id : String} {event : DomainEvent} {aggregateId aggregateType : String}
    {occurredAt : Instant} (h : create id event aggregateId aggregateType occurredAt = .ok e) :
    e.Consistent := by
  obtain ⟨data, -, rfl⟩ := create_ok h
  refine ⟨?_, ?_, fun _ => ⟨rfl, rfl⟩, nofun, ?_, ?_⟩
  · show (1 : UInt32) ≤ 3
    decide
  · show (0 : UInt32) ≤ 3
    decide
  · simp
  · simp

theorem withPolicy {policy : RetryPolicy} (h : e.Consistent) (hallows : 1 ≤ policy.maxRetries)
    (hnew : e.withPolicy policy = .ok e') : e'.Consistent := by
  obtain ⟨hstatus, hcount, rfl⟩ := of_withPolicy_eq_ok hnew
  refine ⟨hallows, ?_, h.pending, ?_, h.scheduled, h.dated⟩
  · show e.retryCount ≤ policy.maxRetries
    rw [hcount, UInt32.le_iff_toNat_le]
    exact Nat.zero_le _
  · intro hfailed
    rw [hstatus] at hfailed
    cases hfailed

theorem markProcessed {now : Instant} (h : e.Consistent) (hdone : e.markProcessed now = .ok e') :
    e'.Consistent := by
  obtain ⟨-, rfl⟩ := of_markProcessed_eq_ok hdone
  refine ⟨h.allows, h.within, nofun, nofun, ?_, ?_⟩
  · simp
  · simp

theorem markDeadLettered {reason : Option String} (h : e.Consistent)
    (hdead : e.markDeadLettered reason = .ok e') : e'.Consistent := by
  obtain ⟨hopen, rfl⟩ := of_markDeadLettered_eq_ok hdead
  refine ⟨h.allows, h.within, nofun, nofun, ?_, ?_⟩
  · simp
  · simp [h.processedAt_of_isOpen hopen]

theorem markFailed {error : String} {now : Instant} (h : e.Consistent)
    (hfail : e.markFailed error now = .ok e') : e'.Consistent := by
  have hopen := isOpen_of_markFailed_eq_ok hfail
  have hretry := h.canRetry hopen
  rcases markFailed_of_canRetry error now hopen hretry with ⟨hmore, heq⟩ | ⟨hlast, heq⟩
  · rw [heq] at hfail
    cases hfail
    refine ⟨h.allows, ?_, nofun, fun _ => ⟨?_, hmore, rfl⟩, ?_, ?_⟩
    · exact UInt32.le_of_lt hmore
    · show 1 ≤ e.retryCount + 1
      rw [UInt32.le_iff_toNat_le, toNat_retryCount_add_one hretry]
      exact Nat.le_add_left ..
    · simp
    · simp [h.processedAt_of_isOpen hopen]
  · rw [heq] at hfail
    cases hfail
    refine ⟨h.allows, ?_, nofun, nofun, ?_, ?_⟩
    · show e.retryCount + 1 ≤ e.policy.maxRetries
      rw [hlast]
      exact UInt32.le_refl _
    · simp
    · simp [h.processedAt_of_isOpen hopen]

/-- Each call keeps the entry consistent. -/
theorem after (h : e.Consistent) (call : Call) : (e.after call).Consistent := by
  cases hcall : e.perform call with
  | error err =>
    rw [after_of_error hcall]
    exact h
  | ok e' =>
    rw [after_of_ok hcall]
    cases call with
    | withPolicy maxRetries baseDelaySeconds =>
      rw [perform_withPolicy, RetryPolicy.of?] at hcall
      split at hcall
      · cases hcall
      · rename_i hzero
        exact h.withPolicy (UInt32.pos_iff_ne_zero.mpr hzero) hcall
    | markProcessed now => exact h.markProcessed hcall
    | markFailed error now =>
      rw [perform_markFailed] at hcall
      exact h.markFailed hcall
    | markDeadLettered reason => exact h.markDeadLettered hcall

theorem run (h : e.Consistent) (calls : List Call) : (e.run calls).Consistent := by
  induction calls generalizing e with
  | nil => exact h
  | cons call rest ih => exact ih (h.after call)

/-- An entry is due unless it is over, or has failed and its delay is not over. -/
theorem isDue_iff (h : e.Consistent) (now : Instant) : e.isDue now = true ↔
    e.status = .pending ∨ e.status = .failed ∧ ∃ t, e.nextRetryAt = some t ∧ t ≤ now := by
  have hnext : e.status = .pending → e.nextRetryAt = none := by
    intro hstatus
    rw [← Option.not_isSome_iff_eq_none, h.scheduled, hstatus]
    exact EntryStatus.noConfusion
  constructor
  · intro hdue
    rcases status_of_isOpen (isOpen_of_isDue hdue) with hstatus | hstatus
    · exact .inl hstatus
    · obtain ⟨t, ht⟩ := Option.isSome_iff_exists.mp (h.scheduled.mpr hstatus)
      simp only [isDue, isReady, ht, Bool.and_eq_true, decide_eq_true_eq] at hdue
      exact .inr ⟨hstatus, t, ht, hdue.2⟩
  · rintro (hstatus | ⟨hstatus, t, ht, hle⟩)
    · have hopen : e.status.isTerminal = false := by rw [hstatus]; rfl
      simp [isDue, isReady, hopen, h.canRetry hopen, hnext hstatus]
    · have hopen : e.status.isTerminal = false := by rw [hstatus]; rfl
      simp [isDue, isReady, hopen, h.canRetry hopen, ht, hle]

/-- An entry that is open is due from some time on. -/
theorem exists_isDue (h : e.Consistent) (hopen : e.status.isTerminal = false) :
    ∃ t, ∀ now, t ≤ now → e.isDue now = true := by
  rcases status_of_isOpen hopen with hstatus | hstatus
  · exact ⟨.latest, fun now _ => (h.isDue_iff now).mpr (.inl hstatus)⟩
  · obtain ⟨t, ht⟩ := Option.isSome_iff_exists.mp (h.scheduled.mpr hstatus)
    exact ⟨t, fun now hle => (h.isDue_iff now).mpr (.inr ⟨hstatus, t, ht, hle⟩)⟩

/-- There is room in 32 bits for one more failure. -/
theorem retryCount_add_one_lt (h : e.Consistent) (hopen : e.status.isTerminal = false) :
    e.retryCount.toNat + 1 < UInt32.size := by
  have hlt := lt_of_canRetry (h.canRetry hopen)
  have hbound := e.policy.maxRetries.toNat_lt_size
  omega

end Consistent

/-! ## What is over -/

/-- What is processed or dead-lettered takes no call. -/
theorem perform_of_isTerminal (h : e.status.isTerminal = true) (call : Call) :
    ∃ err, e.perform call = .error err := by
  cases call with
  | withPolicy maxRetries baseDelaySeconds =>
    have hstatus : e.status ≠ .pending := by
      intro hpending
      rw [hpending] at h
      cases h
    rw [perform_withPolicy]
    cases RetryPolicy.of? maxRetries baseDelaySeconds with
    | error err => exact ⟨err, rfl⟩
    | ok policy =>
      refine ⟨.invalidTransition e.id e.status "change the retry policy of", ?_⟩
      exact (e.withPolicy_eq policy).trans (if_pos (.inl hstatus))
  | markProcessed now => exact ⟨_, (e.markProcessed_eq now).trans (if_pos h)⟩
  | markFailed error now =>
    rw [perform_markFailed]
    exact ⟨_, (e.markFailed_eq error now).trans (if_pos h)⟩
  | markDeadLettered reason => exact ⟨_, (e.markDeadLettered_eq reason).trans (if_pos h)⟩

theorem run_of_isTerminal (h : e.status.isTerminal = true) (calls : List Call) :
    e.run calls = e := by
  induction calls with
  | nil => rfl
  | cons call rest ih =>
    obtain ⟨err, herr⟩ := perform_of_isTerminal h call
    show (e.after call).run rest = e
    rw [after_of_error herr]
    exact ih

/-! ## The whole life -/

/-- What holds of an entry at any time of its life. -/
structure Sane (e : Entry) : Prop where
  consistent : e.Consistent
  /-- A failure is counted in 32 bits. -/
  room : e.status.isTerminal = false → e.retryCount.toNat + 1 < UInt32.size
  /-- What is over stays as it is. -/
  final : e.status.isTerminal = true → ∀ calls, e.run calls = e
  refused {call : Call} {err : OutboxError} : e.perform call = .error err → e.after call = e
  canRetry : e.status.isTerminal = false → e.canRetry = true
  due (now : Instant) : e.isDue now = true ↔
    e.status = .pending ∨ e.status = .failed ∧ ∃ t, e.nextRetryAt = some t ∧ t ≤ now
  /-- An open entry is due in the end. -/
  kept : e.status.isTerminal = false → ∃ t, ∀ now, t ≤ now → e.isDue now = true

/-- Whatever calls are made on a new entry, at whatever times, it stays sane. -/
theorem sane_run_create {id : String} {event : DomainEvent} {aggregateId aggregateType : String}
    {occurredAt : Instant} (h : create id event aggregateId aggregateType occurredAt = .ok e)
    (calls : List Call) : (e.run calls).Sane := by
  have hcons : (e.run calls).Consistent := (Consistent.create h).run calls
  exact
    { consistent := hcons
      room := hcons.retryCount_add_one_lt
      final := run_of_isTerminal
      refused := after_of_error
      canRetry := hcons.canRetry
      due := hcons.isDue_iff
      kept := hcons.exists_isDue }

/-- An entry that fails once and is then processed. What comes later is refused. -/
theorem sane_run_create_soldOut : ∃ e,
    create "e-1" (.ofFields "MenuItemSoldOut" [("menu_item_id", .str "m-1")]) "m-1" "MenuItem"
      .latest = .ok e ∧
    (e.run [.withPolicy 2 5, .markFailed "down" .latest]).Sane ∧
    (e.run [.withPolicy 2 5, .markFailed "down" .latest]).status = .failed ∧
    (e.run [.withPolicy 2 5, .markFailed "down" .latest, .withPolicy 1 0,
      .markProcessed .latest, .markDeadLettered none]).Sane ∧
    (e.run [.withPolicy 2 5, .markFailed "down" .latest, .withPolicy 1 0,
      .markProcessed .latest, .markDeadLettered none]).status = .processed := by
  have h : create "e-1" (.ofFields "MenuItemSoldOut" [("menu_item_id", .str "m-1")]) "m-1"
      "MenuItem" .latest = .ok ⟨"e-1", "MenuItemSoldOut", [("menu_item_id", .str "m-1")], "m-1",
        "MenuItem", .latest, .pending, 0, {}, none, none, none⟩ := rfl
  exact ⟨_, h, sane_run_create h _, rfl, sane_run_create h _, rfl⟩

end TableService.Entry
