import TableService.Proofs.Service.Attempt

/-!
# The flow from commands to read models

- `Flow`: a service whose pass may be under way, and what has been delivered so far.
- `Flow.Step`: what may happen next: a command, a change of the clock or of the policy, the
  beginning of a pass, an attempt. Commands may come between the attempts of a pass.
- `Flow.Reached`: what can come of it, from empty stores and empty read models.
- `Flow.Reached.pass`: passes that run without a break are a case of it.
-/

namespace TableService

/-- A service whose pass may be under way, with all that it has projected. -/
structure Flow where
  service : Service
  /-- What the pass under way has fetched and not attempted yet. -/
  waiting : List Entry := []
  /-- The entries that have been projected so far, in that order, as they were before. -/
  delivered : List Entry := []

/-- Nothing has happened yet. The ids that will be handed out are all different and need no
trimming. -/
structure Service.IsNew (s : Service) : Prop where
  stores : s.backend.stores = {}
  models : s.models = {}
  up : s.IsUp
  ids : s.backend.ids.Fresh
  retries : s.policy.maxRetries ≠ 0

namespace Flow

/-- The flow behind an attempt at the first entry that waits. -/
def attempt (w : Flow) (fault : Option ProjectionFailure) (entry : Entry) (rest : List Entry) :
    Flow where
  service := (w.service.attempt fault entry).2
  waiting := rest
  delivered := w.delivered ++ if (w.service.attempt fault entry).1 then [entry] else []

/-- What may happen next. -/
inductive Step (w : Flow) : Flow → Prop where
  /-- A command about an id without blanks around it. -/
  | command {command : Command} (trimmed : Text.trim command.target = command.target) :
    Step w { w with service := (w.service.execute command).2 }
  | setPolicy {policy : RetryPolicy} (retries : policy.maxRetries ≠ 0) :
    Step w { w with service := { w.service with policy } }
  | setClock {t : Instant} (later : w.service.now ≤ t) :
    Step w { w with service := w.service.setClock t }
  /-- A pass begins. -/
  | fetch {limit : Nat} {entries : List Entry} (idle : w.waiting = [])
    (found : w.service.findPending limit = .ok entries) : Step w { w with waiting := entries }
  /-- The pass goes on. Any call of a projector may be made to fail. -/
  | attempt {entry : Entry} {rest : List Entry} (next : w.waiting = entry :: rest)
    (fault : Option ProjectionFailure) : Step w (w.attempt fault entry rest)

/-- What can come of a new service. -/
inductive Reached : Flow → Prop where
  | start {s : Service} (new : s.IsNew) : Reached { service := s }
  | step {w w' : Flow} (before : Reached w) (step : w.Step w') : Reached w'

theorem Reached.attemptAll {entries delivered : List Entry} {s : Service}
    (h : Reached ⟨s, entries, delivered⟩) :
    ∃ delivered', Reached ⟨(Service.attemptAll entries s).2, [], delivered'⟩ := by
  induction entries generalizing s delivered with
  | nil => exact ⟨delivered, h⟩
  | cons entry rest ih =>
    rw [Service.attemptAll_cons]
    exact ih (h.step (.attempt rfl none))

/-- A pass that nothing comes between. -/
theorem Reached.pass {delivered : List Entry} {s : Service} (h : Reached ⟨s, [], delivered⟩) :
    ∃ delivered', Reached ⟨s.pass.2, [], delivered'⟩ := by
  rw [Service.pass]
  cases hfound : s.findPending s.batchSize with
  | error e => exact ⟨delivered, h⟩
  | ok entries => exact (h.step (.fetch rfl hfound)).attemptAll

end Flow

end TableService
