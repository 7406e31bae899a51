import TableService.Proofs.Outbox.Becoming
import TableService.Proofs.Relay.Marked
import TableService.Proofs.Worker.Along
import TableService.Service.Session

/-!
# The log as an audit trail

- `Program.becomes_run`, `Service.becomes_pass`: whatever programs and passes do to the log, it
  becomes what a log may become.
- `Session.Step`: anything that is done in a session. Programs of units of work may be as short as
  one request, and attempts come in parts, too, so anything may happen in between.
- `Session.audit_trail`: at any two points of a session, the later log has all that the earlier one
  has, in the same places.
-/

namespace TableService

/-! ## Programs -/

/-- Only a commit touches the log, and it puts new entries behind the others. -/
theorem Request.becomes_answer (b : Backend) (u : UnitOfWork) (r : Request) :
    b.stores.outbox.Becomes (r.answer b u).2.1.stores.outbox := by
  cases r with
  | unit act =>
    show b.stores.outbox.Becomes (u.perform b.stores act).2.1.outbox
    rcases UnitOfWork.outbox_perform b.stores u act with
      ⟨entry, -, -, hlog, -⟩ | ⟨-, -, hlog, -⟩ | ⟨hlog, -⟩
    · exact .of_eq hlog
    · rw [hlog]
      exact .append _ _
    · exact .of_eq hlog
  | now => exact .refl _
  | nextId => exact .refl _

theorem Program.becomes_run {α : Type} (p : Program α) (b : Backend) (u : UnitOfWork) :
    b.stores.outbox.Becomes (p.run b u).2.1.stores.outbox := by
  induction p generalizing b u with
  | done a => exact .refl _
  | ask r next ih => exact (r.becomes_answer b u).trans (ih _ _ _)

/-! ## Passes -/

theorem Log.Marks.settle {log log' : Log} {now : Instant} {out : Outage} {id : String}
    {attempt : Attempt} {e' : Entry}
    (h : log.change (LogM.settle now out id attempt) = .ok (e', log')) : log.Marks id log' := by
  rw [Log.change_settle] at h
  cases attempt with
  | projected =>
    obtain ⟨-, -, hmark⟩ := bind_ok h
    exact .markProcessed hmark
  | failed message reason =>
    obtain ⟨-, -, hmark⟩ := bind_ok h
    exact .markFailed hmark

namespace Service

variable (s : Service)

theorem becomes_execute (command : Command) : s.log.Becomes (s.execute command).2.log :=
  (command.handle s.policy).becomes_run s.backend none

theorem log_startCall (call : Call) : (s.startCall call).2.log = s.log := by
  cases call with
  | project p => rfl
  | play script =>
    simp only [startCall, nextPart]
    split
    · rfl
    · rfl

theorem becomes_giveUp (id : String) : s.log.Becomes (s.giveUp id).log := by
  exact .of_run (LogM.atomic_mark (EntryM.atomic_markDeadLettered _) id s.log)
    Log.Marks.markDeadLettered

theorem becomes_finishCall (part : CallPart) : s.log.Becomes (s.finishCall part).2.log := by
  cases part with
  | project p =>
    simp only [finishCall]
    split
    · exact .refl _
    · exact .refl _
  | play call =>
    simp only [finishCall]
    cases call.deadLetter with
    | none => exact .refl _
    | some id => exact s.becomes_giveUp id

theorem becomes_settle (entry : Entry) (attempt : Attempt) :
    s.log.Becomes (s.settle entry attempt).2.log := by
  have hmarks : s.log.Becomes (s.mark entry.id attempt).2.log :=
    .of_run (Log.atomic_settle s.log s.now s.outage entry.id attempt) Log.Marks.settle
  unfold settle
  generalize s.mark entry.id attempt = answer at hmarks
  rcases answer with ⟨err | marked, s'⟩
  · exact hmarks
  · dsimp only
    split
    · exact hmarks
    · exact hmarks

theorem log_startAttempt (entry : Entry) : (s.startAttempt entry).2.log = s.log := by
  unfold startAttempt
  split
  · rfl
  · exact s.log_startCall _

theorem becomes_endAttempt (entry : Entry) (part : Option (String × CallPart)) :
    s.log.Becomes (s.endAttempt entry part).2.log := by
  cases part with
  | none => exact s.becomes_settle entry _
  | some call => exact (s.becomes_finishCall call.2).trans (becomes_settle _ entry _)

theorem becomes_attemptAll (entries : List Entry) :
    s.log.Becomes (attemptAll entries s).2.log := by
  induction entries generalizing s with
  | nil => exact .refl _
  | cons entry rest ih =>
    have hstart := s.log_startAttempt entry
    have hend := becomes_endAttempt (s.startAttempt entry).2 entry (s.startAttempt entry).1.2
    rw [hstart] at hend
    exact hend.trans (ih _)

theorem becomes_pass : s.log.Becomes s.pass.2.log := by
  unfold pass
  split
  · exact .refl _
  · exact s.becomes_attemptAll _

/-- The worker does nothing else to the log. -/
theorem along_passJob (interval : Nat) (pos : 0 < interval) :
    (passJob interval pos).Along fun s s' => s.log.Becomes s'.log where
  refl s := .refl s.log
  trans := Log.Becomes.trans
  fetch s := by
    simp only [passJob]
    split
    · exact .refl _
    · exact .refl _
  start entry s := .of_eq (s.log_startAttempt entry)
  finish work s := s.becomes_endAttempt work.1 work.2
  record failed s := .refl s.log

end Service

/-! ## Sessions -/

namespace Session

/-- The log at present. -/
def log (s : Session) : Log := s.service.log

/-- The time at present. -/
def now (s : Session) : Instant := s.service.now

/-- Anything that is done in a session. -/
inductive Step : Type 1 where
  | execute (command : Command)
  | inUnit {α : Type} (unit : String) (program : Program α)
  | call (call : Log.Call)
  | setClock (t : Instant)
  | setOutage (out : Outage)
  /-- Passes of the main line. -/
  | process (count : Nat)
  | startWorker (interval : Interval)
  | stopWorker
  | sleep (delay : Nat)
  | project (projector : Projector TableService.Call) (eventType : String) (payload : Payload)
  /-- The parts of an attempt at an entry, as it may have been found long ago. -/
  | startAttempt (entry : Entry)
  | finishCall (part : CallPart)
  | settle (entry : Entry) (attempt : Attempt)

/-- The session behind a step. -/
def after (s : Session) : Step → Session
  | .execute command => s.setService (s.service.execute command).2
  | .inUnit unit program => (s.inUnit unit program).2
  | .call call => s.setService (s.service.setLog (s.log.after s.now call))
  | .setClock t => s.setService (s.service.setClock t)
  | .setOutage outage => s.setService { s.service with outage }
  | .process count => (s.process count).2
  | .startWorker interval => s.startWorker interval
  | .stopWorker => s.stopWorker.getD s
  | .sleep delay => s.sleep delay
  | .project projector eventType payload => (s.project projector eventType payload).2
  | .startAttempt entry => s.setService (s.service.startAttempt entry).2
  | .finishCall part => s.setService (s.service.finishCall part).2
  | .settle entry attempt => s.setService (s.service.settle entry attempt).2

/-- The session after one step after another. -/
def run (s : Session) (steps : List Step) : Session :=
  steps.foldl after s

/-- The session when so many of the steps are done. -/
def moment (s : Session) (steps : List Step) (i : Nat) : Session :=
  s.run (steps.take i)

variable (s : Session)

/-! ### One step -/

theorem becomes_finishPass : s.log.Becomes s.finishPass.log := by
  unfold finishPass job?
  cases s.interval with
  | none => exact .refl _
  | some interval => exact Worker.along_finishPass (Service.along_passJob _ interval.2) s.worker

theorem becomes_sleep (delay : Nat) : s.log.Becomes (s.sleep delay).log := by
  unfold sleep job?
  cases s.interval with
  | none => exact .refl _
  | some interval => exact Worker.along_sleep (Service.along_passJob _ interval.2) s.worker delay

theorem becomes_stopWorker : s.log.Becomes (s.stopWorker.getD s).log := by
  unfold stopWorker job?
  cases s.interval with
  | none => exact .refl _
  | some interval => exact Worker.along_stop (Service.along_passJob _ interval.2) s.worker

theorem log_startWorker (interval : Interval) : (s.startWorker interval).log = s.log :=
  congrArg Service.log (Worker.state_start s.worker)

theorem becomes_passes (count : Nat) (service : Service) :
    service.log.Becomes (passes count service).2.2.log := by
  induction count generalizing service with
  | zero => exact .refl _
  | succ count ih =>
    have hpasses := service.becomes_pass.trans (ih service.pass.2)
    simp only [passes]
    split
    · exact hpasses
    · exact hpasses

theorem becomes_process (count : Nat) : s.log.Becomes (s.process count).2.log := by
  unfold process
  split
  · exact .refl _
  · exact s.becomes_finishPass.trans (becomes_passes count s.finishPass.service)

theorem becomes_project (projector : Projector TableService.Call) (eventType : String)
    (payload : Payload) : s.log.Becomes (s.project projector eventType payload).2.log := by
  have hstart := s.service.log_startCall (projector.project eventType payload)
  have hsleep := becomes_sleep
    (s.setService (s.service.startCall (projector.project eventType payload)).2)
    (s.service.startCall (projector.project eventType payload)).1.1
  have hfinish := Service.becomes_finishCall
    ((s.setService (s.service.startCall (projector.project eventType payload)).2).sleep
      (s.service.startCall (projector.project eventType payload)).1.1).service
    (s.service.startCall (projector.project eventType payload)).1.2
  rw [log, ← hstart]
  exact hsleep.trans hfinish

/-- Whatever is done, entries stay in their places. -/
theorem becomes_after (step : Step) : s.log.Becomes (s.after step).log := by
  cases step with
  | execute command => exact s.service.becomes_execute command
  | inUnit unit program => exact program.becomes_run s.service.backend _
  | call call => exact .after s.log s.now call
  | setClock t => exact .refl _
  | setOutage out => exact .refl _
  | process count => exact s.becomes_process count
  | startWorker interval => exact .of_eq (s.log_startWorker interval)
  | stopWorker => exact s.becomes_stopWorker
  | sleep delay => exact s.becomes_sleep delay
  | project projector eventType payload => exact s.becomes_project projector eventType payload
  | startAttempt entry => exact .of_eq (s.service.log_startAttempt entry)
  | finishCall part => exact s.service.becomes_finishCall part
  | settle entry attempt => exact s.service.becomes_settle entry attempt

/-! ### Any number of steps -/

theorem becomes_run (steps : List Step) : s.log.Becomes (s.run steps).log := by
  induction steps generalizing s with
  | nil => exact .refl _
  | cons step rest ih => exact (s.becomes_after step).trans (ih _)

theorem becomes_moment (steps : List Step) {i j : Nat} (hij : i ≤ j) :
    (s.moment steps i).log.Becomes (s.moment steps j).log := by
  have hmore := becomes_run (s.moment steps i) ((steps.take j).drop i)
  have hsplit : (s.moment steps i).run ((steps.take j).drop i) = s.moment steps j := by
    have htake : steps.take i = (steps.take j).take i := by
      rw [List.take_take, Nat.min_eq_left hij]
    rw [moment, htake, run, run, ← List.foldl_append, List.take_append_drop]
    rfl
  rwa [hsplit] at hmore

/-- What the log of a session has to do with what is done in the session. -/
structure AuditTrail (s : Session) (steps : List Step) : Prop where
  /-- What is in the log stays there. -/
  length_le {i j : Nat} : i ≤ j → (s.moment steps i).log.length ≤ (s.moment steps j).log.length
  becomes {i j : Nat} : i ≤ j → (s.moment steps i).log.Becomes (s.moment steps j).log
  /-- A call that is refused changes nothing. -/
  refused {i : Nat} {call : Log.Call} {err : OutboxError} :
    (s.moment steps i).log.perform (s.moment steps i).now call = .error err →
      (s.moment steps i).after (.call call) = s.moment steps i
  saved {i : Nat} {entry : Entry} {log : Log} :
    (s.moment steps i).log.perform (s.moment steps i).now (.save entry) = .ok log →
      ((s.moment steps i).after (.call (.save entry))).log = log ∧
        log = (s.moment steps i).log ++ [entry]
  /-- A mark changes the one entry that it names. -/
  marked {i : Nat} {call : Log.Call} {id : String} {log : Log} : call.marked? = some id →
    (s.moment steps i).log.perform (s.moment steps i).now call = .ok log →
      ((s.moment steps i).after (.call call)).log = log ∧ (s.moment steps i).log.Marks id log

variable {s} {call : Log.Call}

theorem after_call_of_error {err : OutboxError} (h : s.log.perform s.now call = .error err) :
    s.after (.call call) = s := by
  rw [after, Log.after_of_error h]
  rfl

theorem log_after_call {log : Log} (h : s.log.perform s.now call = .ok log) :
    (s.after (.call call)).log = log :=
  Log.after_of_ok h

/-- The log is an audit trail: entries are never removed, moved or made to be about another event.
What is over stays as it is, and up to the limit of their policy failures stay counted. -/
theorem audit_trail (s : Session) (steps : List Step) : s.AuditTrail steps where
  length_le hij := (s.becomes_moment steps hij).length_le
  becomes hij := s.becomes_moment steps hij
  refused := after_call_of_error
  saved hcall := ⟨log_after_call hcall, (Log.perform_save hcall).2⟩
  marked hid hcall := ⟨log_after_call hcall, Log.perform_mark hid hcall⟩

/-- A count beyond the limit, with which an entry is saved, goes back to the limit at a failure. -/
theorem retryCount_falls : ¬ ∀ (s : Session) (steps : List Step) {i j k : Nat} {e e' : Entry},
    ((s.moment steps j).log.map Entry.id).Nodup → i ≤ j → (s.moment steps i).log[k]? = some e →
      (s.moment steps j).log[k]? = some e' → e.retryCount ≤ e'.retryCount := by
  intro h
  have hfalls := h ⟨{ state := { backend := ⟨{}, .latest, { text := fun _ => "" }⟩ } }, none, [], ∅⟩
    [.call (.save ⟨"e-1", "MenuItemSoldOut", [("menu_item_id", .str "m-1")], "m-1", "MenuItem",
      .latest, .pending, 5, {}, none, none, none⟩), .call (.markFailed "e-1" "down")]
    (i := 1) (j := 2) (k := 0) (List.nodup_singleton _) (by decide) rfl rfl
  exact absurd hfalls (by decide)

end Session

end TableService
