import TableService.Service.Basic

/-!
# Sessions

- `Session`: a service with a background worker that runs its passes, and named units of work.
- `Session.process`: passes of the main line. Passes never overlap, so the main line waits for a
  pass of the worker, and a worker that becomes due meanwhile comes after all of them.
- `Session.project`: hands an event to a projector directly.
- `Session.inUnit`: runs a program in a named unit of work.
- `Session.startWorker`, `stopWorker`, `sleep`: the worker's steps. The time in which the worker and
  the calls of projectors wait is not the time of the service's clock.
-/

namespace TableService

/-- A worker over a service. -/
abbrev ServiceWorker := Worker Service Entry (Entry × Option (String × CallPart))

/-- An interval between passes. -/
abbrev Interval := { n : Nat // 0 < n }

/-- A service in use. -/
structure Session where
  worker : ServiceWorker
  /-- Chosen when the worker is started for the first time. -/
  interval : Option Interval := none
  projectors : List (Projector Call) := []
  units : Table UnitOfWork := ∅

namespace Session

/-- The service as it is at present. -/
def service (s : Session) : Service := s.worker.state

/-- Puts another service in the place of the service. -/
def setService (s : Session) (service : Service) : Session :=
  { s with worker := { s.worker with state := service } }

/-- What the worker does. It has nothing to do before its first start. -/
def job? (s : Session) : Option (Job Service Entry (Entry × Option (String × CallPart))) :=
  s.interval.map fun i => Service.passJob i.1 i.2

/-! ## The worker -/

/-- Starts the worker. A later start keeps the interval of the first one. -/
def startWorker (s : Session) (interval : Interval) : Session :=
  { s with worker := s.worker.start, interval := some (s.interval.getD interval) }

/-- There is none to stop if none has ever been started. -/
def stopWorker (s : Session) : Option Session :=
  s.job?.map fun job => { s with worker := s.worker.stop job }

/-- The main line waits; the worker may go on meanwhile. -/
def sleep (s : Session) (delay : Nat) : Session :=
  match s.job? with
  | some job => { s with worker := s.worker.sleep job delay }
  | none => s

/-- Waits for a pass of the worker that is under way or has been called. -/
def finishPass (s : Session) : Session :=
  match s.job? with
  | some job => { s with worker := s.worker.finishPass job }
  | none => s

/-! ## Passes of the main line -/

/-- Passes one behind the other. Gives the result of each and the time they take. -/
def passes : Nat → Service → List (Except OutboxError Nat) × Nat × Service
  | 0, s => ([], 0, s)
  | count + 1, s =>
    let (result, s) := s.pass
    let (results, time, s) := passes count s
    match result with
    | .ok tally => (.ok tally.processed :: results, tally.time + time, s)
    | .error e => (.error e :: results, time, s)

/-- So many passes of the main line. With none to do, the worker is not waited for. -/
def process (s : Session) (count : Nat) : List (Except OutboxError Nat) × Session :=
  if count = 0 then ([], s)
  else
    let s := s.finishPass
    let (results, time, service) := passes count s.service
    let s := s.setService service
    (results, { s with worker := s.worker.occupied time })

/-! ## Direct use -/

/-- An event for a projector, past the outbox. -/
def project (s : Session) (projector : Projector Call) (eventType : String) (payload : Payload) :
    Except ProjectionFailure Unit × Session :=
  let ((delay, part), service) := s.service.startCall (projector.project eventType payload)
  let s := (s.setService service).sleep delay
  let (result, service) := s.service.finishCall part
  (result, s.setService service)

/-- A unit that has not been used yet is closed. -/
def inUnit (s : Session) (name : String) (program : Program α) : α × Session :=
  let (a, backend, u) := program.run s.service.backend (s.units[name]?.getD none)
  (a, { s.setService { s.service with backend } with units := s.units.insert name u })

end Session

end TableService
