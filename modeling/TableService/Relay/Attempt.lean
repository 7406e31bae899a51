import TableService.Metrics.Basic
import TableService.Outbox.Log
import TableService.ReadModel.Error
import TableService.Store.Outage

/-!
# Attempts to project an entry

- `Attempt`: what came of an attempt, as the log and the metrics record it.
- `Log.fetch`: the entries that a pass attempts.
- `LogM.settle`: marks the entry behind an attempt, in place.
- `Metrics.recordAttempt`: the metrics behind an attempt.
-/

namespace TableService

/-- What came of an attempt. A failure has a message for the entry, and a reason under which the
metrics count it. -/
inductive Attempt where
  | projected
  | failed (message reason : String)
deriving DecidableEq

namespace Attempt

/-- The failure of an entry whose type no projector handles. -/
def noProjector (eventType : String) : Attempt :=
  failed ("No projector registered for event type: " ++ eventType) "no_projector"

/-- What a call of a projector came to. -/
def ofProjection (projector : String) : Except ProjectionFailure α → Attempt
  | .ok _ => projected
  | .error (.error e) => failed e.message "projection_error"
  | .error (.panic message) =>
    failed ("Projector " ++ projector ++ " panicked: " ++ message) "projection_error"

/-- Whether the attempt was a success. -/
def isProjected : Attempt → Bool
  | projected => true
  | failed .. => false

end Attempt

namespace Log

/-- Refuses a call that is down. -/
def reach (out : Outage) (call : String) : Except OutboxError Unit :=
  match out.reason? call with
  | some reason => .error (.entryNotFound reason)
  | none => .ok ()

/-- The entries that are due, oldest event first, unless the call is down. -/
def fetch (log : Log) (now : Instant) (out : Outage) (limit : Nat) :
    Except OutboxError (List Entry) := do
  reach out "outbox_find"
  return log.pending now limit

end Log

/-- Marks the entry that was attempted, in place, unless the call that does it is down. Gives the
entry as it is now. -/
def LogM.settle (now : Instant) (out : Outage) (id : String) (attempt : Attempt) : LogM Entry := do
  match attempt with
  | .projected =>
    MonadExcept.ofExcept (Log.reach out "outbox_processed")
    LogM.markProcessed now id
  | .failed message _ =>
    MonadExcept.ofExcept (Log.reach out "outbox_failed")
    LogM.markFailed now id message

/-- Counts an attempt of an entry that has been marked. How long a projector takes is not
measured. -/
def Metrics.recordAttempt (m : Metrics) (eventType : String) (attempt : Attempt) (marked : Entry) :
    Metrics :=
  match attempt with
  | .projected => m.recordProcessed eventType 0
  | .failed _ reason =>
    let m := m.recordFailure eventType reason
    if marked.status = .deadLettered then m.recordDeadLetter eventType else m

end TableService
