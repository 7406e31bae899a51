import TableService.Outbox.Log
import TableService.Proofs.InPlace

/-!
# Transitions and marks in place

- `EntryM.run_markProcessed` and its like: what a transition answers, and the entry as it leaves it.
- `EntryM.atomic_markProcessed` and its like: a transition that is refused has done nothing.
- `Entry.markProcessed_eq` and its like: the entry behind a transition, or the refusal.
- `LogM.run_save`, `LogM.run_mark`: what a change of the log answers, and the log as it leaves it.
- `LogM.atomic_mark`: a mark that is refused has done nothing either.
-/

namespace TableService

open InPlace

/-! ## Entries -/

namespace EntryM

variable {α : Type}

/-- What is over is refused before anything is done. -/
theorem run_ensureOpen_bind (action : String) (next : Unit → EntryM α) (e : Entry) :
    (ensureOpen action >>= next).run.run e =
      if e.status.isTerminal then (.error (.invalidTransition e.id e.status action), e)
      else (next ()).run.run e := by
  have hopen : (ensureOpen action).run.run e =
      (if e.status.isTerminal then refuse action else pure ()).run.run e := rfl
  rw [run_bind, hopen]
  cases e.status.isTerminal <;> rfl

theorem run_withPolicy (policy : RetryPolicy) (e : Entry) :
    (withPolicy policy).run.run e =
      if e.status ≠ .pending ∨ 0 < e.retryCount then
        (.error (.invalidTransition e.id e.status "change the retry policy of"), e)
      else (.ok (), { e with policy }) := by
  have hrun : (withPolicy policy).run.run e =
      (if e.status ≠ .pending ∨ 0 < e.retryCount then refuse "change the retry policy of"
        else modify ({ · with policy }) : EntryM Unit).run.run e := rfl
  rw [hrun]
  split <;> rfl

theorem run_markProcessed (now : Instant) (e : Entry) :
    (markProcessed now).run.run e =
      if e.status.isTerminal then
        (.error (.invalidTransition e.id e.status "mark as processed"), e)
      else
        (.ok (), { e with status := .processed, processedAt := some now, nextRetryAt := none }) :=
  run_ensureOpen_bind _ _ e

/-- The entry when one more failure has been counted. -/
def counted (e : Entry) (error : String) : Entry :=
  { e with
    retryCount := min (e.retryCount + 1) e.policy.maxRetries, lastError := some error }

/-- The entry as it waits for its next attempt, or is over. -/
def scheduled (e : Entry) (now : Instant) : Entry :=
  if e.canRetry then
    { e with
      status := .failed
      nextRetryAt := some ((now.add? (e.policy.backoff e.retryCount)).getD .latest) }
  else { e with status := .deadLettered, nextRetryAt := none }

theorem run_schedule (now : Instant) (e : Entry) :
    (schedule now).run.run e = (.ok (), scheduled e now) := by
  unfold schedule scheduled
  rw [run_bind]
  show (if e.canRetry then _ else _ : EntryM Unit).run.run e = _
  split <;> rfl

theorem run_markFailed (error : String) (now : Instant) (e : Entry) :
    (markFailed error now).run.run e =
      if e.status.isTerminal then (.error (.invalidTransition e.id e.status "mark as failed"), e)
      else (.ok (scheduled (counted e error) now).status, scheduled (counted e error) now) := by
  refine (run_ensureOpen_bind _ _ e).trans (ite_congr rfl (fun _ => rfl) fun _ => ?_)
  show (schedule now >>= fun _ => get >>= fun entry => pure entry.status :
    EntryM EntryStatus).run.run (counted e error) = _
  rw [run_bind, run_schedule]
  rfl

theorem run_markDeadLettered (reason : Option String) (e : Entry) :
    (markDeadLettered reason).run.run e =
      if e.status.isTerminal then (.error (.invalidTransition e.id e.status "dead-letter"), e)
      else
        (.ok (), { e with
          status := .deadLettered, nextRetryAt := none, lastError := reason.or e.lastError }) := by
  refine (run_ensureOpen_bind _ _ e).trans (ite_congr rfl (fun _ => rfl) fun _ => ?_)
  cases reason with
  | none => rfl
  | some _ => rfl

theorem atomic_withPolicy (policy : RetryPolicy) (e : Entry) :
    Atomic (withPolicy policy) e :=
  .of_ite (run_withPolicy policy e)

theorem atomic_markProcessed (now : Instant) (e : Entry) :
    Atomic (markProcessed now) e :=
  .of_ite (run_markProcessed now e)

theorem atomic_markFailed (error : String) (now : Instant) (e : Entry) :
    Atomic (markFailed error now) e :=
  .of_ite (run_markFailed error now e)

theorem atomic_markDeadLettered (reason : Option String) (e : Entry) :
    Atomic (markDeadLettered reason) e :=
  .of_ite (run_markDeadLettered reason e)

end EntryM

namespace Entry

open EntryM

variable {α : Type}

theorem change_of_ite {m : EntryM α} {c : Prop} [Decidable c] {err : OutboxError} {a : α}
    {e e' : Entry} (h : m.run.run e = if c then (.error err, e) else (.ok a, e')) :
    e.change m = if c then .error err else .ok e' := by
  rw [change, h]
  by_cases hc : c
  · rw [if_pos hc, if_pos hc]
  · rw [if_neg hc, if_neg hc]

theorem withPolicy_eq (e : Entry) (policy : RetryPolicy) :
    e.withPolicy policy = if e.status ≠ .pending ∨ 0 < e.retryCount then
        .error (.invalidTransition e.id e.status "change the retry policy of")
      else .ok { e with policy } :=
  change_of_ite (run_withPolicy policy e)

theorem markProcessed_eq (e : Entry) (now : Instant) :
    e.markProcessed now = if e.status.isTerminal then
        .error (.invalidTransition e.id e.status "mark as processed")
      else .ok { e with status := .processed, processedAt := some now, nextRetryAt := none } :=
  change_of_ite (run_markProcessed now e)

theorem markFailed_eq (e : Entry) (error : String) (now : Instant) :
    e.markFailed error now = if e.status.isTerminal then
        .error (.invalidTransition e.id e.status "mark as failed")
      else .ok (scheduled (counted e error) now) :=
  change_of_ite (run_markFailed error now e)

theorem markDeadLettered_eq (e : Entry) (reason : Option String) :
    e.markDeadLettered reason = if e.status.isTerminal then
        .error (.invalidTransition e.id e.status "dead-letter")
      else .ok { e with
        status := .deadLettered, nextRetryAt := none, lastError := reason.or e.lastError } :=
  change_of_ite (run_markDeadLettered reason e)

end Entry

/-! ## The log -/

namespace LogM

variable {α : Type} {log : Log}

theorem run_save (entry : Entry) (log : Log) :
    (save entry).run.run log =
      if log.any (·.id == entry.id) then (.error (.duplicateEntry entry.id), log)
      else (.ok (), log ++ [entry]) := by
  unfold save
  rw [run_bind]
  show (if log.any (·.id == entry.id) then _ else _ : LogM Unit).run.run log = _
  split <;> rfl

/-- The entry that is found is put back as the transition leaves it, even if that is refused. -/
theorem run_mark (id : String) (m : EntryM α) (log : Log) :
    (mark id m).run.run log =
      match log.find? id with
      | none => (.error (.entryNotFound id), log)
      | some e =>
        match m.run.run e with
        | (.ok _, e') => (.ok e', updateFirst (·.id == id) (fun _ => e') log)
        | (.error err, e') => (.error err, updateFirst (·.id == id) (fun _ => e') log) := by
  unfold mark update
  rw [run_bind]
  show (match log.find? id with | none => _ | some e => _ : LogM Entry).run.run log = _
  cases log.find? id with
  | none => rfl
  | some e =>
    dsimp only
    rw [run_bind]
    rcases m.run.run e with ⟨_ | a, e'⟩
    · rfl
    · rfl

theorem atomic_save (entry : Entry) (log : Log) : Atomic (save entry) log :=
  .of_ite (run_save entry log)

theorem atomic_mark {m : EntryM α} (h : ∀ e, Atomic m e) (id : String) (log : Log) :
    Atomic (mark id m) log := by
  intro err log' herror
  rw [run_mark] at herror
  cases hfound : log.find? id with
  | none =>
    rw [hfound] at herror
    cases herror
    rfl
  | some e =>
    rw [hfound] at herror
    dsimp only at herror
    rcases hrun : m.run.run e with ⟨err' | a, e'⟩
    · rw [hrun] at herror
      cases herror
      -- the entry is put back where it was
      exact updateFirst_of_find? hfound (h e _ _ hrun)
    · rw [hrun] at herror
      cases herror

end LogM

namespace Log

variable {α : Type}

/-- The log behind a mark: the entry with the id is behind the transition. -/
theorem change_mark_eq (log : Log) (id : String) (m : EntryM α) :
    log.change (LogM.mark id m) =
      match log.find? id with
      | none => .error (.entryNotFound id)
      | some e => (e.change m).map fun e' => (e', updateFirst (·.id == id) (fun _ => e') log) := by
  rw [change, LogM.run_mark]
  cases log.find? id with
  | none => rfl
  | some e =>
    dsimp only
    unfold Entry.change
    rcases m.run.run e with ⟨_ | _, e'⟩
    · rfl
    · rfl

end Log

end TableService
