import TableService.Proofs.Outbox.History
import TableService.Proofs.ReadModel.Shown
import TableService.Proofs.Relay.Marked
import TableService.Proofs.Relay.Routing
import TableService.Service.Basic

/-!
# One attempt at an entry

- `Service.attempt`: an attempt whose call of the projector may be made to fail.
- `Service.attemptAll_cons`: a pass is made of attempts that are not made to fail.
- `Service.attempt_spec`: what an attempt does to the log and to the read models.
-/

namespace TableService

open InPlace

/-! ## Calls that fail -/

/-- A call that is made to fail does nothing else. -/
def CallPart.failing : Option ProjectionFailure → CallPart → CallPart
  | none, part => part
  | some failure, _ => .project fun _ _ => .error failure

namespace Service

/-- An attempt at an entry. With a `fault`, the call of the projector fails before it does
anything. -/
def attempt (s : Service) (fault : Option ProjectionFailure) (entry : Entry) : Bool × Service :=
  let started := s.startAttempt entry
  started.2.endAttempt entry (started.1.2.map fun call => (call.1, call.2.failing fault))

/-- What a pass does with each entry. -/
theorem attempt_none (s : Service) (entry : Entry) :
    s.attempt none entry =
      (s.startAttempt entry).2.endAttempt entry (s.startAttempt entry).1.2 := by
  have hsame : ∀ part : Option (String × CallPart),
      (part.map fun call => (call.1, call.2.failing none)) = part := by
    intro part
    cases part with
    | none => rfl
    | some call => rfl
  rw [attempt, hsame]

theorem attemptAll_cons (entry : Entry) (rest : List Entry) (s : Service) :
    (attemptAll (entry :: rest) s).2 = (attemptAll rest (s.attempt none entry).2).2 := by
  rw [attempt_none]
  rfl

theorem processed_attemptAll_cons (entry : Entry) (rest : List Entry) (s : Service) :
    (attemptAll (entry :: rest) s).1.processed =
      (attemptAll rest (s.attempt none entry).2).1.processed + (s.attempt none entry).1.toNat := by
  rw [attempt_none]
  rfl

end Service

/-! ## What an attempt leaves -/

/-- How an attempt leaves the entry. -/
structure Entry.Attempted (entry : Entry) (done : Bool) (entry' : Entry) : Prop where
  same : entry.Same entry'
  sound : entry'.Sound
  processed : done = true → entry'.status = .processed ∧ entry'.retryCount = entry.retryCount
  failed : done = false → entry'.status = .failed ∨ entry'.status = .deadLettered

/-- The projectors for menu items and for orders. -/
def realProjectors : List (Projector Call) :=
  [menuItemProjector.map .project, orderProjector.map .project]

namespace Service

variable {s : Service} {entry : Entry}

/-- Storage and log are up, and the events go to the projectors for menu items and for orders. -/
structure IsUp (s : Service) : Prop where
  outage : s.outage = []
  registry : Registry.ofProjectors realProjectors = .ok s.registry

/-- The entry waits in the log, and it is the only one with its id. -/
structure Holds (s : Service) (entry : Entry) : Prop where
  nodup : (s.log.map Entry.id).Nodup
  mem : entry ∈ s.log
  sound : entry.Sound
  isOpen : entry.status.isTerminal = false

theorem onLog_of_ok {α : Type} {m : LogM α} {a : α} {log : Log}
    (h : s.log.change m = .ok (a, log)) : s.onLog m = (.ok a, s.setLog log) := by
  unfold Log.change at h
  unfold onLog
  split at h
  · rename_i hrun
    cases h
    rw [hrun]
  · cases h

theorem onLog_of_error {α : Type} {m : LogM α} {err : OutboxError} (hm : Atomic m s.log)
    (h : s.log.change m = .error err) : s.onLog m = (.error err, s) := by
  unfold Log.change at h
  unfold onLog
  split at h
  · cases h
  · rename_i hrun
    cases h
    rw [hrun, hm _ _ hrun]
    rfl

theorem giveUp_of_ok {id : String} {entry' : Entry} {log : Log}
    (h : s.log.markDeadLettered id = .ok (entry', log)) : s.giveUp id = s.setLog log :=
  congrArg Prod.snd (onLog_of_ok h)

theorem giveUp_of_error {id : String} {err : OutboxError}
    (h : s.log.markDeadLettered id = .error err) : s.giveUp id = s :=
  congrArg Prod.snd (onLog_of_error
    (LogM.atomic_mark (EntryM.atomic_markDeadLettered _) id s.log) h)

/-- An attempt that the log refuses to record changes nothing. -/
theorem settle_of_error {attempt : Attempt} {err : OutboxError}
    (h : s.log.change (LogM.settle s.now s.outage entry.id attempt) = .error err) :
    s.settle entry attempt = (false, s) := by
  have hmark : s.mark entry.id attempt = (.error err, s) :=
    onLog_of_error (Log.atomic_settle s.log s.now s.outage entry.id attempt) h
  rw [settle, hmark]

/-- An attempt that the log records is counted, if attempts are counted. -/
theorem settle_of_ok {attempt : Attempt} {entry' : Entry} {log : Log}
    (h : s.log.change (LogM.settle s.now s.outage entry.id attempt) = .ok (entry', log)) :
    s.settle entry attempt = (attempt.isProjected,
      { s.setLog log with
        metrics :=
          if s.counted then s.metrics.recordAttempt entry.eventType attempt entry'
          else s.metrics }) := by
  have hmark : s.mark entry.id attempt = (.ok entry', s.setLog log) := onLog_of_ok h
  rw [settle, hmark]
  cases hcounted : s.counted with
  | true => simp only [setLog, hcounted, if_true]
  | false => simp only [setLog, hcounted, Bool.false_eq_true, if_false]

/-- An attempt at an open entry is recorded, and the entry gets its outcome. -/
theorem settle_of_isOpen {attempt : Attempt} (hup : Log.Records s.outage attempt)
    (hn : (s.log.map Entry.id).Nodup) (he : entry ∈ s.log)
    (hopen : entry.status.isTerminal = false) (hretry : entry.canRetry = true) :
    ∃ entry', entry.mark s.now attempt = .ok entry' ∧ entry.Outcome s.now attempt entry' ∧
      s.settle entry attempt = (attempt.isProjected,
        { s.setLog (s.log.map (Log.put entry')) with
          metrics :=
            if s.counted then s.metrics.recordAttempt entry.eventType attempt entry'
            else s.metrics }) := by
  obtain ⟨entry', hmark, houtcome⟩ := Entry.exists_outcome s.now attempt hopen hretry
  have hlog := Log.settle_eq hup hn he hmark houtcome.same.id
  exact ⟨entry', hmark, houtcome, settle_of_ok hlog⟩

/-- An open entry is marked as its attempt went. -/
theorem settle_spec (attempt : Attempt) (hup : s.outage = []) (h : s.Holds entry) :
    ∃ entry' metrics, entry.Attempted attempt.isProjected entry' ∧
      s.settle entry attempt =
        (attempt.isProjected, { s.setLog (s.log.map (Log.put entry')) with metrics }) := by
  obtain ⟨entry', hmark, hattempted⟩ : ∃ entry',
      entry.mark s.now attempt = .ok entry' ∧ entry.Attempted attempt.isProjected entry' := by
    cases attempt with
    | projected =>
      obtain ⟨entry', hmark, hsame, hsound, hstatus, hcount⟩ :=
        Entry.markProcessed_ok s.now h.isOpen
      exact ⟨entry', hmark, hsame, hsound, fun _ => ⟨hstatus, hcount⟩, nofun⟩
    | failed message reason =>
      obtain ⟨entry', hmark, hsame, hsound, hstatus⟩ :=
        Entry.markFailed_ok message s.now h.sound h.isOpen
      exact ⟨entry', hmark, hsame, hsound, nofun, fun _ => hstatus⟩
  have hlog := Log.settle_eq (hup ▸ Log.records_nil attempt) h.nodup h.mem hmark hattempted.same.id
  exact ⟨entry', _, hattempted, settle_of_ok hlog⟩

variable {α : Type} [Aggregate α] [Story α] [Shown α] {e : Story.Event α}

/-- The projector of a kind of aggregate is one of the two. -/
class Routed (α : Type) [Aggregate α] [Story α] [Shown α] : Prop where
  mem : (Shown.projector α).map .project ∈ realProjectors

instance : Routed Order := ⟨List.mem_cons_of_mem _ List.mem_cons_self⟩

instance : Routed MenuItem := ⟨List.mem_cons_self⟩

theorem IsUp.route [Routed α] (h : s.IsUp) (hcarries : entry.Carries α e) :
    s.registry[entry.eventType]? = some ((Shown.projector α).map .project) := by
  rw [hcarries.eventType]
  exact Registry.getElem?_of_mem_claims h.registry Routed.mem (Shown.name_mem e)

/-- A call either fails before it does anything, or puts what is told behind the event. -/
theorem finishCall_spec {told : Option (Story.State α)} (fault : Option ProjectionFailure)
    (hup : s.outage = []) (hcarries : entry.Carries α e)
    (hid : ∀ t ∈ told, Shown.stateId t = Story.about e)
    (hshows : Shows α s.models (Story.about e) told) :
    ∃ result models, s.finishCall (CallPart.failing fault
        (.project ((Shown.projector α).project entry.eventType entry.eventData))) =
        (result, { s with models }) ∧
      if result.isOk then Projected α s.models told e models else models = s.models := by
  cases fault with
  | some failure => exact ⟨.error failure, s.models, rfl, rfl⟩
  | none =>
    simp only [CallPart.failing, finishCall, hcarries.eventType, hcarries.eventData]
    cases hproject :
      (Shown.projector α).project (Story.name e) (Story.fields e) s.outage s.models with
    | error failure => exact ⟨.error failure, s.models, rfl, rfl⟩
    | ok models =>
      rw [hup] at hproject
      exact ⟨.ok (), models, rfl, projected_of_ok hcarries.inRange hid hshows hproject⟩

/-- An attempt calls the projector of the kind that the entry is about. -/
theorem attempt_eq [Routed α] (fault : Option ProjectionFailure) (hup : s.IsUp)
    (hcarries : entry.Carries α e) :
    s.attempt fault entry = s.finishAttempt entry (Shown.projector α).name
      (CallPart.failing fault
        (.project ((Shown.projector α).project entry.eventType entry.eventData))) := by
  have hstart : s.startAttempt entry =
      ((0, some ((Shown.projector α).name,
        .project ((Shown.projector α).project entry.eventType entry.eventData))), s) := by
    simp only [startAttempt, hup.route hcarries]
    rfl
  rw [attempt, hstart]
  rfl

/-- An attempt at an entry with an event either fails and leaves the read models as they are, or the
event is projected. The entry is marked as the attempt went. -/
theorem attempt_spec [Routed α] {told : Option (Story.State α)} (fault : Option ProjectionFailure)
    (hup : s.IsUp) (h : s.Holds entry) (hcarries : entry.Carries α e)
    (hid : ∀ t ∈ told, Shown.stateId t = Story.about e)
    (hshows : Shows α s.models (Story.about e) told) :
    ∃ done entry' models metrics, entry.Attempted done entry' ∧
      s.attempt fault entry =
        (done, { s.setLog (s.log.map (Log.put entry')) with models, metrics }) ∧
      if done then Projected α s.models told e models else models = s.models := by
  obtain ⟨result, models, hresult, hmodels⟩ := finishCall_spec fault hup.outage hcarries hid hshows
  have hheld : Holds { s with models } entry := ⟨h.nodup, h.mem, h.sound, h.isOpen⟩
  obtain ⟨entry', metrics, hattempted, hsettle⟩ :=
    settle_spec (s := { s with models }) (.ofProjection (Shown.projector α).name result)
      hup.outage hheld
  refine ⟨_, entry', models, metrics, hattempted, ?_, ?_⟩
  · rw [attempt_eq fault hup hcarries, finishAttempt, hresult]
    exact hsettle
  · have hdone :
        (Attempt.ofProjection (Shown.projector α).name result).isProjected = result.isOk := by
      rcases result with (_ | _) | _
      · rfl
      · rfl
      · rfl
    rw [hdone]
    exact hmodels

end Service

end TableService
