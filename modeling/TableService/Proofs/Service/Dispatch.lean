import TableService.Proofs.Command.Work
import TableService.Proofs.Outbox.Recounting
import TableService.Proofs.Service.Attempt

/-!
# Passes, step by step

- `Dispatch`: a service whose pass may be under way, what the pass has fetched and not attempted
  yet, and the entry that it is attempting.
- `Dispatch.Step`: one access to the log, or one call of a projector, which may end in any way.
  Commands, entries that are given up by hand and changes of the clock come between any two of
  these.
- `Dispatch.Run`: steps one after the other, with what happened at each of them. Only one pass is
  under way at a time.
- `Dispatch.run_pass`, `Dispatch.step_execute`: what the service does is a case of it.
- `Dispatch.exists_run_idle`: no pass gets stuck.
-/

namespace TableService

/-- A service whose pass may be under way. -/
structure Dispatch where
  service : Service
  /-- What the pass under way has fetched and not attempted yet. -/
  waiting : List Entry := []
  /-- The entry that is attempted, and what came of the call of its projector. -/
  current : Option (Entry × Attempt) := none

/-- What comes of an attempt if the projector, should there be one, ends with this result. -/
def Service.attemptWith (s : Service) (entry : Entry) (result : Except ProjectionFailure Unit) :
    Attempt :=
  match s.registry[entry.eventType]? with
  | none => .noProjector entry.eventType
  | some p => .ofProjection p.name result

namespace Dispatch

/-- The log at present. -/
def log (w : Dispatch) : Log := w.service.log

/-- No pass is under way. -/
structure IsIdle (w : Dispatch) : Prop where
  waiting : w.waiting = []
  current : w.current = none

/-- Something that happens. -/
inductive Event where
  | committed (entries : List Entry)
  | givenUp (id : String)
  | clockSet (t : Instant)
  /-- A pass begins, with the service as it is then and the entries that it attempts. -/
  | fetched (before : Service) (entries : List Entry)
  | called (entry : Entry)
  /-- An attempt has been recorded, unless that was refused; perhaps the entry is processed now. -/
  | settled (entry : Entry) (processed : Bool)

namespace Event

/-- The id of the entry that is attempted. -/
def attempted? : Event → Option String
  | called entry => some entry.id
  | _ => none

/-- The id of the entry whose attempt is over. -/
def settled? : Event → Option String
  | settled entry _ => some entry.id
  | _ => none

/-- The id of the entry that is marked as processed. -/
def processed? : Event → Option String
  | settled entry true => some entry.id
  | _ => none

/-- Whether entries have been added. -/
def isCommit : Event → Bool
  | committed _ => true
  | _ => false

/-- Whether a pass begins. -/
def isFetch : Event → Bool
  | fetched .. => true
  | _ => false

end Event

/-- New entries as commands make them. Ids are fresh. -/
structure AreNew (log : Log) (entries : List Entry) : Prop where
  isNew : ∀ e ∈ entries, ∃ policy aggregateId kind t event, policy.maxRetries ≠ 0 ∧
    Entry.IsNew policy aggregateId kind t event e
  nodup : (entries.map Entry.id).Nodup
  fresh : ∀ e ∈ entries, ∀ old ∈ log, e.id ≠ old.id

/-- What may happen next. Commands, marks by hand and changes of the clock may come between any two
steps of a pass. -/
inductive Step (w : Dispatch) : Event → Dispatch → Prop where
  | commit {entries : List Entry} {backend : Backend} (areNew : AreNew w.log entries)
      (log : backend.stores.outbox = w.log ++ entries) :
      Step w (.committed entries) { w with service := { w.service with backend } }
  | giveUp (id : String) : Step w (.givenUp id) { w with service := w.service.giveUp id }
  | setClock (t : Instant) : Step w (.clockSet t) { w with service := w.service.setClock t }
  | fetch {entries : List Entry} (idle : w.IsIdle)
      (found : w.service.findPending w.service.batchSize = .ok entries) :
      Step w (.fetched w.service entries) { w with waiting := entries }
  /-- The call may change read models, and what it comes to is arbitrary. -/
  | call {entry : Entry} {rest : List Entry} (next : w.waiting = entry :: rest)
      (free : w.current = none) (result : Except ProjectionFailure Unit) (models : ReadModels)
      (scripts : List (List ScriptedCall)) :
      Step w (.called entry) {
        service := { w.service with models, scripts }
        waiting := rest
        current := some (entry, w.service.attemptWith entry result) }
  | settle {entry : Entry} {attempt : Attempt} (ended : w.current = some (entry, attempt)) :
      Step w (.settled entry (w.service.settle entry attempt).1)
        { w with service := (w.service.settle entry attempt).2, current := none }

/-- Steps one after the other. -/
inductive Run : Dispatch → List Event → Dispatch → Prop where
  | nil (w : Dispatch) : Run w [] w
  | cons {u v w : Dispatch} {event : Event} {events : List Event} (step : u.Step event v)
      (rest : Run v events w) : Run u (event :: events) w

namespace Run

variable {u v w : Dispatch} {events more : List Event} {event : Event}

theorem append (h : Run u events v) (h' : Run v more w) : Run u (events ++ more) w := by
  induction h with
  | nil => exact h'
  | cons step _ ih => exact .cons step (ih h')

/-- A run can be stopped anywhere. -/
theorem split (h : Run u (events ++ more) w) : ∃ v, Run u events v ∧ Run v more w := by
  induction events generalizing u with
  | nil => exact ⟨u, .nil u, h⟩
  | cons event events ih =>
    cases h with
    | cons step rest =>
      obtain ⟨v, hfirst, hrest⟩ := ih rest
      exact ⟨v, .cons step hfirst, hrest⟩

end Run

/-! ## Passes -/

/-- Steps of a pass, between which nothing is committed. -/
def IsPlain (events : List Event) : Prop :=
  ∀ event ∈ events, event.isFetch = false ∧ event.isCommit = false

theorem IsPlain.append {events more : List Event} (h : IsPlain events) (h' : IsPlain more) :
    IsPlain (events ++ more) := by
  intro event hevent
  rcases List.mem_append.mp hevent with hevent | hevent
  · exact h event hevent
  · exact h' event hevent

/-- How many entries have been marked as processed. -/
def processed (events : List Event) : Nat := (events.filterMap Event.processed?).length

theorem processed_append (events more : List Event) :
    processed (events ++ more) = processed events + processed more := by
  rw [processed, List.filterMap_append, List.length_append]
  rfl

theorem processed_settled (entry : Entry) (done : Bool) :
    processed [.settled entry done] = done.toNat := by
  cases done <;> rfl

/-- A pass: what it finds, what it attempts, and what happens until the next pass begins. -/
structure Pass where
  before : Service
  entries : List Entry
  rest : List Event

namespace Pass

/-- The pass from its beginning on. -/
def events (p : Pass) : List Event := .fetched p.before p.entries :: p.rest

/-- What the pass returns. -/
def returned (p : Pass) : Nat := processed p.rest

/-- Whether everything that is open is due when the pass begins. -/
def AllDue (p : Pass) : Prop :=
  ∀ e ∈ p.before.log, e.status.isTerminal = false → e.isDue p.before.now = true

end Pass

/-! ## What the service does -/

/-- A command that is handled alone commits new entries. -/
theorem step_execute {w : Dispatch} {command : Command} {count : Nat} {s : Service}
    (hs : w.service.backend.stores.Settled) (hretries : w.service.policy.maxRetries ≠ 0)
    (h : w.service.execute command = (.ok count, s)) :
    ∃ entries, w.Step (.committed entries) { w with service := s } := by
  have hspec := Command.execute_spec w.service.policy command hs
  unfold Service.execute at h
  revert hspec h
  rcases command.execute w.service.policy w.service.backend with ⟨_ | _, backend⟩
  · intro h _
    cases h
  · intro h haccepts
    cases h
    have hnew {α : Type} [Aggregate α] [Collection α] {a : α}
        (hc : Committed w.service.policy w.service.backend.clock w.service.backend.stores
          backend.stores a) : ∃ entries, backend.stores.outbox = w.log ++ entries ∧
        AreNew w.log entries := by
      obtain ⟨entries, hlog, hentries, hnodup, hfresh⟩ := hc.outbox
      refine ⟨entries, hlog, fun e he => ?_, hnodup, hfresh⟩
      obtain ⟨event, -, hevent⟩ := exists_of_forall₂ hentries he
      exact ⟨_, _, _, _, event, hretries, hevent⟩
    cases haccepts with
    | menuItem change id_eq count_eq committed orders =>
      obtain ⟨entries, hlog, hentries⟩ := hnew committed
      exact ⟨entries, .commit hentries hlog⟩
    | order change id_eq count_eq committed menuItems =>
      obtain ⟨entries, hlog, hentries⟩ := hnew committed
      exact ⟨entries, .commit hentries hlog⟩

/-- What the service does at an attempt: a call, in which an entry may be given up, and a mark. -/
theorem exists_attempt_eq (s : Service) (entry : Entry) :
    ∃ result models scripts givenUp, s.attempt none entry =
      (Option.elim givenUp { s with models, scripts }
        { s with models, scripts }.giveUp).settle entry (s.attemptWith entry result) := by
  simp only [Service.attempt, Service.startAttempt, Service.attemptWith]
  cases s.registry[entry.eventType]? with
  | none => exact ⟨.ok (), s.models, s.scripts, none, rfl⟩
  | some p =>
    simp only [Option.map_some, CallPart.failing]
    cases p.project entry.eventType entry.eventData with
    | project q =>
      cases hq : q s.outage s.models with
      | ok models =>
        refine ⟨.ok (), models, s.scripts, none, ?_⟩
        simp only [Service.startCall, Service.endAttempt, Service.finishAttempt,
          Service.finishCall, hq]
        rfl
      | error failure =>
        refine ⟨.error failure, s.models, s.scripts, none, ?_⟩
        simp only [Service.startCall, Service.endAttempt, Service.finishAttempt,
          Service.finishCall, hq]
        rfl
    | play script =>
      obtain ⟨call, scripts, hnext⟩ :
          ∃ call scripts, s.nextPart script = (call, { s with scripts }) := by
        unfold Service.nextPart
        split
        · exact ⟨_, _, rfl⟩
        · exact ⟨_, s.scripts, rfl⟩
      refine ⟨call.ending.result, s.models, scripts, call.deadLetter, ?_⟩
      simp only [Service.startCall, hnext, Service.endAttempt, Service.finishAttempt,
        Service.finishCall]

/-- An attempt, as the service makes it. -/
theorem run_attempt (s : Service) (entry : Entry) (rest : List Entry) :
    ∃ events, Run ⟨s, entry :: rest, none⟩ events ⟨(s.attempt none entry).2, rest, none⟩ ∧
      IsPlain events ∧ processed events = (s.attempt none entry).1.toNat := by
  obtain ⟨result, models, scripts, givenUp, hattempt⟩ := exists_attempt_eq s entry
  rw [hattempt]
  have hcall := Step.call (w := ⟨s, entry :: rest, none⟩) rfl rfl result models scripts
  cases givenUp with
  | none =>
    refine ⟨_, .cons hcall (.cons (.settle rfl) (.nil _)), ?_, processed_settled _ _⟩
    simp [IsPlain, Event.isFetch, Event.isCommit]
  | some id =>
    refine ⟨_, .cons hcall (.cons (.giveUp id) (.cons (.settle rfl) (.nil _))), ?_,
      processed_settled _ _⟩
    simp [IsPlain, Event.isFetch, Event.isCommit]

theorem run_attemptAll (s : Service) (entries : List Entry) :
    ∃ events, Run ⟨s, entries, none⟩ events ⟨(Service.attemptAll entries s).2, [], none⟩ ∧
      IsPlain events ∧ processed events = (Service.attemptAll entries s).1.processed := by
  induction entries generalizing s with
  | nil =>
    refine ⟨[], .nil _, fun event hevent => ?_, rfl⟩
    cases hevent
  | cons entry rest ih =>
    obtain ⟨first, hfirst, hplain, hdone⟩ := run_attempt s entry rest
    obtain ⟨others, hothers, hplain', htally⟩ := ih (s.attempt none entry).2
    rw [Service.attemptAll_cons, Service.processed_attemptAll_cons]
    refine ⟨first ++ others, hfirst.append hothers, hplain.append hplain', ?_⟩
    rw [processed_append, hdone, htally, Nat.add_comm]

/-- A pass that nothing comes between. Its tally is what has been processed. -/
theorem run_pass {s : Service} {entries : List Entry}
    (hfound : s.findPending s.batchSize = .ok entries) :
    ∃ events tally, s.pass = (.ok tally, s.pass.2) ∧ tally.processed = processed events ∧
      Run ⟨s, [], none⟩ (.fetched s entries :: events) ⟨s.pass.2, [], none⟩ ∧
      IsPlain events := by
  obtain ⟨events, hrun, hplain, htally⟩ := run_attemptAll s entries
  have hpass : s.pass =
      (.ok (Service.attemptAll entries s).1, (Service.attemptAll entries s).2) := by
    rw [Service.pass, hfound]
  rw [hpass]
  exact ⟨events, _, rfl, htally.symm, .cons (.fetch ⟨rfl, rfl⟩ hfound) hrun, hplain⟩

/-- A pass under way can always be brought to its end. -/
theorem exists_run_idle (w : Dispatch) :
    ∃ events w', Run w events w' ∧ IsPlain events ∧ w'.IsIdle := by
  obtain ⟨s, waiting, current⟩ := w
  cases current with
  | none =>
    obtain ⟨events, hrun, hplain, -⟩ := run_attemptAll s waiting
    exact ⟨events, _, hrun, hplain, ⟨rfl, rfl⟩⟩
  | some c =>
    obtain ⟨events, hrun, hplain, -⟩ := run_attemptAll (s.settle c.1 c.2).2 waiting
    refine ⟨_, _, .cons (.settle rfl) hrun, fun event hevent => ?_, ⟨rfl, rfl⟩⟩
    rcases List.mem_cons.mp hevent with rfl | hevent
    · exact ⟨rfl, rfl⟩
    · exact hplain event hevent

end Dispatch

end TableService
