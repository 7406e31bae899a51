import TableService.Command.Handler
import TableService.Relay.Attempt
import TableService.Relay.Registry
import TableService.Worker.Basic

/-!
# The service as a whole

- `Service`: the command side, the read models, and what lies between them.
- `Call`: what a projector has to do for an event: change the read models, or play a scripted part.
- `Service.startCall`, `finishCall`: a call takes time between its start and its finish, and
  whatever it does is done at the finish.
- `Service.settle`: records what came of an attempt.
- `Service.execute`: handles a command.
-/

namespace TableService

/-- How a scripted call ends. A crash may have a payload that is not a text. -/
inductive Ending where
  | success
  | failure (reason : String)
  | crash (payload : Option String)
deriving DecidableEq

/-- A scripted call takes some time, may give up an entry by hand, and ends. -/
structure ScriptedCall where
  delay : Nat := 0
  deadLetter : Option String := none
  ending : Ending := .success
deriving DecidableEq

/-- What the caller sees. A failure is reported like one of storage. -/
def Ending.result : Ending → Except ProjectionFailure Unit
  | success => .ok ()
  | failure reason => .error (.error (.storage reason))
  | crash payload => .error (.panic (payload.getD "unknown panic payload"))

/-- What a projector of the service has to do. -/
inductive Call where
  | project (p : Projection)
  /-- Plays the next part of the script with this number. -/
  | play (script : Nat)

/-- What is to be done at the finish of a call. -/
inductive CallPart where
  | project (p : Projection)
  | play (call : ScriptedCall)

/-- Everything but the worker. Commands change `backend`, passes change the log in it and
`models`. -/
structure Service where
  backend : Backend
  policy : RetryPolicy := {}
  models : ReadModels := {}
  outage : Outage := []
  registry : Registry Call := ∅
  batchSize : Nat := 10
  scripts : List (List ScriptedCall) := []
  metrics : Metrics := {}
  /-- Whether attempts are counted in the metrics. -/
  counted : Bool := false

namespace Service

/-- The log of entries. -/
def log (s : Service) : Log := s.backend.stores.outbox

/-- The time at present. -/
def now (s : Service) : Instant := s.backend.clock

/-- Puts another log in the place of the log. -/
def setLog (s : Service) (log : Log) : Service :=
  { s with backend := { s.backend with stores := { s.backend.stores with outbox := log } } }

/-- Handles a command under the policy of the service. -/
def execute (s : Service) (command : Command) : Except CommandError Nat × Service :=
  let (result, backend) := command.execute s.policy s.backend
  (result, { s with backend })

/-- Sets the clock to any time, also an earlier one. -/
def setClock (s : Service) (t : Instant) : Service :=
  { s with backend := { s.backend with clock := t } }

/-- Moves the clock, unless there is no such time. -/
def advanceClock? (s : Service) (d : Span) : Option Service :=
  (s.now.add? d).map s.setClock

/-- Sets how many entries a pass may fetch, which is one at least. -/
def withBatchSize (s : Service) (n : Nat) : Service := { s with batchSize := max n 1 }

theorem batchSize_withBatchSize_pos (s : Service) (n : Nat) : 0 < (s.withBatchSize n).batchSize :=
  Nat.le_max_right n 1

/-- A change of the log in place: what comes of it, and the service with the log as it leaves it. -/
def onLog (s : Service) (m : LogM α) : Except OutboxError α × Service :=
  let (result, log) := m.run.run s.log
  (result, s.setLog log)

/-- The entries that are due, at most `limit` of them. -/
def findPending (s : Service) (limit : Nat) : Except OutboxError (List Entry) :=
  s.log.fetch s.now s.outage limit

/-! ## Calls of projectors -/

/-- Takes the next part of a script; without one the call just succeeds. -/
def nextPart (s : Service) (script : Nat) : ScriptedCall × Service :=
  match s.scripts[script]? with
  | some (call :: rest) => (call, { s with scripts := s.scripts.set script rest })
  | _ => ({}, s)

/-- The wait that the call asks for, and what is to be done then. -/
def startCall (s : Service) : Call → (Nat × CallPart) × Service
  | .project p => ((0, .project p), s)
  | .play script => let (call, s) := s.nextPart script; ((call.delay, .play call), s)

/-- Gives an entry up by hand, whatever comes of it. -/
def giveUp (s : Service) (id : String) : Service :=
  (s.onLog (LogM.markDeadLettered id)).2

/-- What the call comes to. A projection works on the read models as they are by then. -/
def finishCall (s : Service) : CallPart → Except ProjectionFailure Unit × Service
  | .project p =>
    match p s.outage s.models with
    | .ok models => (.ok (), { s with models })
    | .error e => (.error e, s)
  | .play call => (call.ending.result, call.deadLetter.elim s s.giveUp)

/-! ## Attempts -/

/-- Marks an entry as an attempt went. Gives the entry as it is now. -/
def mark (s : Service) (id : String) (attempt : Attempt) : Except OutboxError Entry × Service :=
  s.onLog (LogM.settle s.now s.outage id attempt)

/-- Marks the entry that was attempted and counts the attempt, unless the entry cannot be marked.
Tells whether it has become processed. -/
def settle (s : Service) (entry : Entry) (attempt : Attempt) : Bool × Service :=
  match s.mark entry.id attempt with
  | (.error _, s) => (false, s)
  | (.ok marked, s) =>
    (attempt.isProjected,
      if s.counted then
        { s with metrics := s.metrics.recordAttempt entry.eventType attempt marked }
      else s)

/-- Finishes the call of a projector for an entry. -/
def finishAttempt (s : Service) (entry : Entry) (projector : String) (part : CallPart) :
    Bool × Service :=
  let (result, s) := s.finishCall part
  s.settle entry (.ofProjection projector result)

/-- Starts an attempt. What is left is the name of the projector and its part; without a projector
the attempt has failed already. -/
def startAttempt (s : Service) (entry : Entry) : (Nat × Option (String × CallPart)) × Service :=
  match s.registry[entry.eventType]? with
  | none => ((0, none), s)
  | some p =>
    let ((delay, part), s) := s.startCall (p.project entry.eventType entry.eventData)
    ((delay, some (p.name, part)), s)

/-- The end of an attempt, with or without a projector. -/
def endAttempt (s : Service) (entry : Entry) : Option (String × CallPart) → Bool × Service
  | none => s.settle entry (.noProjector entry.eventType)
  | some (projector, part) => s.finishAttempt entry projector part

/-! ## Passes -/

/-- What a pass has come to: how many entries it has processed, and how long it has taken. -/
structure Tally where
  processed : Nat := 0
  time : Nat := 0

/-- Attempts the entries one after the other. -/
def attemptAll : List Entry → Service → Tally × Service
  | [], s => ({}, s)
  | entry :: rest, s =>
    let ((delay, part), s) := s.startAttempt entry
    let (done, s) := s.endAttempt entry part
    let (tally, s) := attemptAll rest s
    (⟨tally.processed + done.toNat, tally.time + lasting delay⟩, s)

/-- One pass: fetches the entries that are due and attempts each of them. -/
def pass (s : Service) : Except OutboxError Tally × Service :=
  match s.findPending s.batchSize with
  | .error e => (.error e, s)
  | .ok entries => let (tally, s) := attemptAll entries s; (.ok tally, s)

/-- Passes as the work of a background worker. -/
def passJob (interval : Nat) (pos : 0 < interval) :
    Job Service Entry (Entry × Option (String × CallPart)) where
  interval
  interval_pos := pos
  fetch s :=
    match s.findPending s.batchSize with
    | .error _ => ((true, []), s)
    | .ok entries => ((false, entries), s)
  start entry s := let ((delay, part), s) := s.startAttempt entry; ((delay, entry, part), s)
  finish work s := (s.endAttempt work.1 work.2).2
  record failed s := { s with metrics := s.metrics.recordPass failed }

end Service

end TableService
