import TableService.Domain.Event
import TableService.Outbox.RetryPolicy
import TableService.Text.Blank
import TableService.Text.Numeral

/-!
# Outbox entries

- `Entry`: one event that waits to be projected. It is pending until it is processed, fails, or is
  dead-lettered; a failed entry may be tried again once its delay is over.
- `Entry.create`: wraps an event.
- `Entry.isDue`: whether the next pass may attempt the entry.
- `EntryM.withPolicy`, `markProcessed`, `markFailed`, `markDeadLettered`: the transitions, in place.
  What is processed or dead-lettered does not change any more.
- `Entry.withPolicy` and its like: the entry behind such a transition, if it is not refused.
-/

namespace TableService

/-- Where an entry stands. It waits while it is pending or failed, and is over otherwise. -/
inductive EntryStatus where
  | pending
  | processed
  | failed
  | deadLettered
deriving DecidableEq

namespace EntryStatus

/-- The status as messages and stored entries show it. -/
def text : EntryStatus → String
  | pending => "pending"
  | processed => "processed"
  | failed => "failed"
  | deadLettered => "dead_lettered"

/-- All statuses, in the order in which counts are listed. -/
def all : List EntryStatus := [pending, processed, failed, deadLettered]

/-- Whether the entry is over. -/
def isTerminal : EntryStatus → Bool
  | processed | deadLettered => true
  | pending | failed => false

end EntryStatus

/-- Why the outbox refuses an entry or a change of it. -/
inductive OutboxError where
  | entryNotFound (entryId : String)
  | duplicateEntry (entryId : String)
  /-- The status of the entry does not allow the action. -/
  | invalidTransition (entryId : String) (status : EntryStatus) (action : String)
  | missingField (field : String)
  | invalidRetryPolicy (maxRetries : UInt32)
  | invalidEventData (e : EventDataError)
deriving DecidableEq

/-- How the refusal is reported. -/
def OutboxError.message : OutboxError → String
  | entryNotFound entryId => "Outbox entry not found: " ++ entryId
  | duplicateEntry entryId => "Outbox entry " ++ entryId ++ " already exists"
  | invalidTransition entryId status action =>
    "Cannot " ++ action ++ " outbox entry " ++ entryId ++ " in status " ++ status.text
  | missingField field => "Outbox entry field " ++ field ++ " is required"
  | invalidRetryPolicy maxRetries =>
    "Invalid retry policy: max_retries must be at least 1 (got "
      ++ Text.Numeral.natText maxRetries.toNat ++ ")"
  | invalidEventData e => e.message

/-- A policy must allow at least one attempt. -/
def RetryPolicy.of? (maxRetries baseDelaySeconds : UInt32) : Except OutboxError RetryPolicy :=
  if maxRetries = 0 then .error (.invalidRetryPolicy maxRetries)
  else .ok { maxRetries, baseDelaySeconds }

/-- An event in the outbox, and what has become of it so far. The first six fields never change. -/
structure Entry where
  id : String
  eventType : String
  eventData : Payload
  aggregateId : String
  aggregateType : String
  occurredAt : Instant
  status : EntryStatus
  retryCount : UInt32
  policy : RetryPolicy
  lastError : Option String
  processedAt : Option Instant
  nextRetryAt : Option Instant

namespace Entry

/-- Refuses a text that is blank throughout; any other one is kept as it is. -/
def requireField (field value : String) : Except OutboxError String :=
  match Text.required? value with
  | some _ => .ok value
  | none => .error (.missingField field)

/-- A pending entry with the usual policy. -/
def create (id : String) (event : DomainEvent) (aggregateId aggregateType : String)
    (occurredAt : Instant) : Except OutboxError Entry := do
  let id ← requireField "entry_id" id
  let aggregateId ← requireField "aggregate_id" aggregateId
  let aggregateType ← requireField "aggregate_type" aggregateType
  let eventData ← event.payload.mapError .invalidEventData
  return { id, eventType := event.name, eventData, aggregateId, aggregateType, occurredAt,
           status := .pending, retryCount := 0, policy := {}, lastError := none,
           processedAt := none, nextRetryAt := none }

/-- Whether attempts are left. -/
def canRetry (entry : Entry) : Bool :=
  entry.retryCount < entry.policy.maxRetries

/-- While attempts are left the count has room for one more. -/
theorem toNat_retryCount_add_one {entry : Entry} (h : entry.canRetry) :
    (entry.retryCount + 1).toNat = entry.retryCount.toNat + 1 := by
  have below : entry.retryCount.toNat < entry.policy.maxRetries.toNat := by
    simpa [canRetry, UInt32.lt_iff_toNat_lt] using h
  have bound := entry.policy.maxRetries.toNat_lt
  rw [UInt32.toNat_add, UInt32.toNat_one]
  omega

/-- Whether no delay is set, or the delay is over. -/
def isReady (entry : Entry) (now : Instant) : Bool :=
  match entry.nextRetryAt with
  | none => true
  | some t => t ≤ now

/-- Whether the entry is not over, has attempts left, and its delay has passed. -/
def isDue (entry : Entry) (now : Instant) : Bool :=
  !entry.status.isTerminal && entry.canRetry && entry.isReady now

end Entry

/-! ## Transitions -/

/-- A transition of an entry in place. If it is refused half way, what it has done stays done. -/
abbrev EntryM := ExceptT OutboxError (StateM Entry)

namespace EntryM

/-- Refuses an action that the status of the entry does not allow. -/
def refuse (action : String) : EntryM α := do
  let entry ← get
  throw (.invalidTransition entry.id entry.status action)

/-- Refuses the action once the entry is processed or dead-lettered. -/
def ensureOpen (action : String) : EntryM Unit := do
  if (← get).status.isTerminal then refuse action

/-- The policy can be chosen before the first attempt only. -/
def withPolicy (policy : RetryPolicy) : EntryM Unit := do
  let entry ← get
  if entry.status ≠ .pending ∨ 0 < entry.retryCount then refuse "change the retry policy of"
  else modify ({ · with policy })

/-- Records that the event has been projected. -/
def markProcessed (now : Instant) : EntryM Unit := do
  ensureOpen "mark as processed"
  modify ({ · with status := .processed })
  modify ({ · with processedAt := some now })
  modify ({ · with nextRetryAt := none })

/-- What follows a failed attempt. The next one is due after the policy's delay, or at the end of
time if there is no such time; without attempts left the entry is dead-lettered. -/
def schedule (now : Instant) : EntryM Unit := do
  let entry ← get
  if entry.canRetry then
    let delay := entry.policy.backoff entry.retryCount
    modify ({ · with status := .failed })
    modify ({ · with nextRetryAt := some ((now.add? delay).getD .latest) })
  else
    modify ({ · with status := .deadLettered })
    modify ({ · with nextRetryAt := none })

/-- Counts a failed attempt, in 32 bits. Gives the status that the entry has then. -/
def markFailed (error : String) (now : Instant) : EntryM EntryStatus := do
  ensureOpen "mark as failed"
  modify fun entry =>
    { entry with retryCount := min (entry.retryCount + 1) entry.policy.maxRetries }
  modify ({ · with lastError := some error })
  schedule now
  return (← get).status

/-- Gives the entry up, whatever attempts are left. Without a reason the last error stays. -/
def markDeadLettered (reason : Option String) : EntryM Unit := do
  ensureOpen "dead-letter"
  modify ({ · with status := .deadLettered })
  modify ({ · with nextRetryAt := none })
  if reason.isSome then modify ({ · with lastError := reason })

end EntryM

namespace Entry

/-- The entry behind a transition that is not refused. -/
def change (entry : Entry) (m : EntryM α) : Except OutboxError Entry :=
  match m.run.run entry with
  | (.ok _, entry) => .ok entry
  | (.error e, _) => .error e

/-- The entry with another policy. -/
def withPolicy (entry : Entry) (policy : RetryPolicy) : Except OutboxError Entry :=
  entry.change (EntryM.withPolicy policy)

/-- The entry when its event has been projected. -/
def markProcessed (entry : Entry) (now : Instant) : Except OutboxError Entry :=
  entry.change (EntryM.markProcessed now)

/-- The entry behind a failed attempt. -/
def markFailed (entry : Entry) (error : String) (now : Instant) : Except OutboxError Entry :=
  entry.change (EntryM.markFailed error now)

/-- The entry when it is given up. -/
def markDeadLettered (entry : Entry) (reason : Option String) : Except OutboxError Entry :=
  entry.change (EntryM.markDeadLettered reason)

end Entry

end TableService
