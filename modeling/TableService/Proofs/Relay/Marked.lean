import TableService.Proofs.Outbox.Lifecycle
import TableService.Relay.Attempt

/-!
# What an attempt makes of an entry

- `Entry.mark`: the transition that records an attempt.
- `Entry.Outcome`: an entry with attempts left, and what the record of an attempt makes of it. A
  success ends it. A failure takes one of its attempts: either another one is due after the delay of
  its policy, or it was the last one.
- `Log.settle_eq`: the log behind the attempt differs in that entry only.
-/

namespace TableService

open InPlace

/-- Records an attempt. -/
def Entry.mark (e : Entry) (now : Instant) : Attempt → Except OutboxError Entry
  | .projected => e.markProcessed now
  | .failed message _ => e.markFailed message now

/-- The delay of the policy is over at this time, or at the end of time. -/
def RetryPolicy.retryAt (policy : RetryPolicy) (now : Instant) (failures : UInt32) : Instant :=
  (now.add? (policy.backoff failures)).getD .latest

namespace Entry

/-- What the record of an attempt makes of an entry that has attempts left. -/
inductive Outcome (now : Instant) (e : Entry) : Attempt → Entry → Prop where
  | processed : Outcome now e .projected
      { e with status := .processed, processedAt := some now, nextRetryAt := none }
  | retried {message reason : String} (more : e.retryCount + 1 < e.policy.maxRetries) :
      Outcome now e (.failed message reason)
        { e with
          status := .failed, retryCount := e.retryCount + 1, lastError := some message
          nextRetryAt := some (e.policy.retryAt now (e.retryCount + 1)) }
  | spent {message reason : String} (last : e.retryCount + 1 = e.policy.maxRetries) :
      Outcome now e (.failed message reason)
        { e with
          status := .deadLettered, retryCount := e.retryCount + 1, lastError := some message
          nextRetryAt := none }

variable {now : Instant} {e e' : Entry} {attempt : Attempt}

/-- An open entry with attempts left takes the mark of any attempt. -/
theorem exists_outcome (now : Instant) (attempt : Attempt) (hopen : e.status.isTerminal = false)
    (hretry : e.canRetry = true) :
    ∃ e', e.mark now attempt = .ok e' ∧ e.Outcome now attempt e' := by
  cases attempt with
  | projected =>
    refine ⟨_, ?_, .processed⟩
    rw [mark, markProcessed_eq, hopen]
    rfl
  | failed message reason =>
    rcases markFailed_of_canRetry message now hopen hretry with ⟨hmore, hok⟩ | ⟨hlast, hok⟩
    · exact ⟨_, hok, .retried hmore⟩
    · exact ⟨_, hok, .spent hlast⟩

namespace Outcome

theorem same (h : e.Outcome now attempt e') : e.Same e' := by
  cases h with
  | processed => exact ⟨rfl, rfl, rfl, rfl, rfl, rfl, rfl⟩
  | retried | spent => exact ⟨rfl, rfl, rfl, rfl, rfl, rfl, rfl⟩

theorem status_eq_processed_iff (h : e.Outcome now attempt e') :
    e'.status = .processed ↔ attempt.isProjected = true := by
  cases h with
  | processed => exact ⟨fun _ => rfl, fun _ => rfl⟩
  | retried | spent =>
    constructor
    · rintro ⟨⟩
    · rintro ⟨⟩

end Outcome

end Entry

namespace Log

variable {log : Log} {now : Instant} {e : Entry}

/-- The call that records an attempt is up. -/
def Records (out : Outage) : Attempt → Prop
  | .projected => out.reason? "outbox_processed" = none
  | .failed .. => out.reason? "outbox_failed" = none

theorem records_nil (attempt : Attempt) : Records [] attempt := by
  cases attempt with
  | projected => rfl
  | failed message reason => rfl

/-- A mark is made behind the question whether the call for it is up. -/
theorem change_settle (log : Log) (now : Instant) (out : Outage) (id : String) (attempt : Attempt) :
    log.change (LogM.settle now out id attempt) =
      match attempt with
      | .projected => reach out "outbox_processed" >>= fun _ => log.markProcessed now id
      | .failed message _ =>
        reach out "outbox_failed" >>= fun _ => log.markFailed now id message := by
  cases attempt with
  | projected =>
    rw [change, LogM.settle, run_bind, run_ofExcept]
    cases reach out "outbox_processed" <;> rfl
  | failed message reason =>
    rw [change, LogM.settle, run_bind, run_ofExcept]
    cases reach out "outbox_failed" <;> rfl

/-- An attempt whose mark is refused is not recorded at all. -/
theorem atomic_settle (log : Log) (now : Instant) (out : Outage) (id : String)
    (attempt : Attempt) : Atomic (LogM.settle now out id attempt) log := by
  cases attempt with
  | projected =>
    exact .bind (run_ofExcept _ log) fun _ _ =>
      LogM.atomic_mark (EntryM.atomic_markProcessed now) id log
  | failed message reason =>
    exact .bind (run_ofExcept _ log) fun _ _ =>
      LogM.atomic_mark (EntryM.atomic_markFailed message now) id log

/-- The id of an entry that can be marked leads to it, and no other entry is touched. -/
theorem settle_eq {out : Outage} {attempt : Attempt} {e' : Entry} (hup : Records out attempt)
    (hn : (log.map Entry.id).Nodup) (he : e ∈ log) (hmark : e.mark now attempt = .ok e')
    (hid : e'.id = e.id) :
    log.change (LogM.settle now out e.id attempt) = .ok (e', log.map (put e')) := by
  rw [change_settle]
  cases attempt with
  | projected =>
    dsimp only
    rw [reach, show out.reason? "outbox_processed" = none from hup]
    exact change_mark_ok hn he hmark hid
  | failed message reason =>
    dsimp only
    rw [reach, show out.reason? "outbox_failed" = none from hup]
    exact change_mark_ok hn he hmark hid

/-- An entry that is over is not marked any more. -/
theorem settle_of_isTerminal (out : Outage) (attempt : Attempt) (hn : (log.map Entry.id).Nodup)
    (he : e ∈ log) (hover : e.status.isTerminal = true) :
    ∃ err, log.change (LogM.settle now out e.id attempt) = .error err := by
  rw [change_settle]
  cases attempt with
  | projected =>
    have hrefused := (e.markProcessed_eq now).trans (if_pos hover)
    dsimp only
    cases reach out "outbox_processed" with
    | error err => exact ⟨err, rfl⟩
    | ok _ => exact ⟨_, change_mark_error hn he hrefused⟩
  | failed message reason =>
    have hrefused := (e.markFailed_eq message now).trans (if_pos hover)
    dsimp only
    cases reach out "outbox_failed" with
    | error err => exact ⟨err, rfl⟩
    | ok _ => exact ⟨_, change_mark_error hn he hrefused⟩

end Log

end TableService
