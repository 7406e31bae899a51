import TableService.Proofs.Relay.Counted
import TableService.Proofs.Service.OnePass
import TableService.Proofs.Service.Redelivery

/-!
# The metrics agree with the log

The log and the metrics are kept by different hands: an attempt whose mark is refused must not be
counted either, and what is given up by hand is in the log only.

- `Dispatch.Operated`: a run, with the types of the entries that were given up by hand.
- `Dispatch.Sound.giveUp_cases`, `settle_cases`: what a step does to the log and to the metrics.
- `Dispatch.Books`: the two go together, up to what was given up by hand.
- `Dispatch.Books.step`, `Dispatch.Books.run`: every step keeps the books, so every run does.
- `Dispatch.metrics_agree`: the metrics show what is in the log, for every event type that they tell
  apart from the others. Types that they do not tell apart are counted together, and what they have
  in common is shown for the type that was counted first.
-/

namespace TableService

namespace Dispatch

variable {u v w w' : Dispatch} {event : Event}

/-! ## What is given up by hand -/

/-- The type of the entry that is given up at a step, unless that is refused. -/
def givesUp (w : Dispatch) : Event → List String
  | .givenUp id =>
    match w.log.markDeadLettered id with
    | .ok (e, _) => [e.eventType]
    | .error _ => []
  | _ => []

/-- Steps one after the other, with the types of the entries that were given up by hand. -/
inductive Operated : Dispatch → List Event → List String → Dispatch → Prop where
  | nil (w : Dispatch) : Operated w [] [] w
  | cons {u v w : Dispatch} {event : Event} {events : List Event} {types : List String}
      (step : u.Step event v) (rest : Operated v events types w) :
      Operated u (event :: events) (u.givesUp event ++ types) w

/-- Every run is one, whatever is given up at it. -/
theorem Run.operated {events : List Event} (h : Run u events w) :
    ∃ types, Operated u events types w := by
  induction h with
  | nil w => exact ⟨_, .nil w⟩
  | cons step _ ih =>
    obtain ⟨types, hrest⟩ := ih
    exact ⟨_, .cons step hrest⟩

/-- To give an entry up changes that entry, or is refused. -/
theorem Sound.giveUp_cases (h : w.Sound) (id : String) :
    w.givesUp (.givenUp id) = [] ∧ w.service.giveUp id = w.service ∨
      ∃ x ∈ w.log, x.status.isTerminal = false ∧ w.givesUp (.givenUp id) = [x.eventType] ∧
        w.service.giveUp id = w.service.setLog (w.log.map (Log.put x.abandoned)) := by
  unfold givesUp
  simp only
  rcases Log.markDeadLettered_cases h.nodup id with ⟨err, hrefused⟩ | ⟨x, hx, hopen, hok⟩
  · rw [hrefused]
    exact .inl ⟨rfl, Service.giveUp_of_error hrefused⟩
  · rw [hok]
    exact .inr ⟨x, hx, hopen, rfl, Service.giveUp_of_ok hok⟩

/-! ## What is attempted -/

/-- An attempt that is over leaves its mark, or nothing. -/
theorem Sound.settle_cases {entry : Entry} {attempt : Attempt} (h : w.Sound)
    (ended : w.current = some (entry, attempt)) :
    w.service.settle entry attempt = (false, w.service) ∨
      ∃ x x', x ∈ w.log ∧ entry.Same x ∧ x.status.isTerminal = false ∧
        x.Outcome w.service.now attempt x' ∧
        w.service.settle entry attempt = (attempt.isProjected,
          { w.service.setLog (w.log.map (Log.put x')) with
            metrics :=
              if w.service.counted then w.service.metrics.recordAttempt x.eventType attempt x'
              else w.service.metrics }) := by
  have hhand : entry ∈ w.inHand := by
    rw [inHand, ended]
    exact List.mem_cons_self
  obtain ⟨x, hx, hsame⟩ := h.hand_mem entry hhand
  rw [Service.settle_congr hsame]
  cases hopen : x.status.isTerminal with
  | true => exact .inl (Service.settle_of_isTerminal attempt h.nodup hx hopen)
  | false =>
    obtain ⟨x', -, houtcome, hsettle⟩ := Service.settle_of_isOpen
      (h.outage ▸ Log.records_nil attempt) h.nodup hx hopen ((h.kept x hx).canRetry hopen)
    exact .inr ⟨x, x', hx, hsame, hopen, houtcome, hsettle⟩

/-- A failed attempt is put down to what is wrong with the type. -/
theorem reason_attemptWith {s : Service} {entry : Entry} {result : Except ProjectionFailure Unit}
    {message reason : String} (h : s.attemptWith entry result = .failed message reason) :
    reason = s.registry.reason entry.eventType := by
  unfold Service.attemptWith at h
  unfold Registry.reason
  cases hrouted : s.registry[entry.eventType]? with
  | none =>
    rw [hrouted] at h
    cases h
    rfl
  | some p =>
    rw [hrouted] at h
    rcases result with (_ | _) | _
    · cases h
      rfl
    · cases h
      rfl
    · cases h

/-! ## The books -/

/-- How the metrics and the log go together. -/
structure Books (byHand : List String) (w : Dispatch) : Prop where
  counted : w.service.counted = true
  reason {entry : Entry} {message reason : String} :
    w.current = some (entry, .failed message reason) →
      reason = w.service.registry.reason entry.eventType
  mirrors : w.service.metrics.Mirrors w.service.registry w.log
  /-- Of the types for which this is asked. -/
  givenUp (p : String → Bool) : byHand.countP p = w.log.countP fun e => p e.eventType ∧ e.isGivenUp

/-- Nothing has happened yet. -/
theorem IsStart.books (h : w.IsStart) (hcounted : w.service.counted = true)
    (hmetrics : w.service.metrics = {}) : Books [] w where
  counted := hcounted
  reason hcurrent := by
    rw [h.idle.current] at hcurrent
    cases hcurrent
  mirrors := by
    rw [h.empty, hmetrics]
    exact Metrics.mirrors_empty _
  givenUp p := by
    rw [h.empty]
    rfl

variable {byHand : List String}

/-- New entries are in neither book. -/
theorem Books.commit {entries : List Entry} {backend : Backend} (hb : Books byHand w)
    (areNew : AreNew w.log entries) (hlog : backend.stores.outbox = w.log ++ entries) :
    Books byHand { w with service := { w.service with backend } } := by
  have hnew : ∀ e ∈ entries, e.status = .pending ∧ e.retryCount = 0 := by
    intro e he
    obtain ⟨policy, aggregateId, kind, t, event, -, hnew⟩ := areNew.isNew e he
    exact ⟨hnew.status, hnew.retryCount⟩
  have hlog' : Dispatch.log { w with service := { w.service with backend } } = w.log ++ entries :=
    hlog
  constructor
  case counted => exact hb.counted
  case reason => exact hb.reason
  case mirrors =>
    rw [hlog']
    exact hb.mirrors.append hnew
  case givenUp =>
    intro p
    have hnone : entries.countP (fun e => p e.eventType ∧ e.isGivenUp) = 0 := by
      refine List.countP_eq_zero.mpr fun e he => ?_
      simp [Entry.isGivenUp, (hnew e he).1]
    rw [hlog', List.countP_append, hnone, Nat.add_zero]
    exact hb.givenUp p

/-- How many entries have been given up changes with the one entry that is changed. -/
theorem Books.countP_put {x x' : Entry} (hb : Books byHand w) (h : w.Sound) (hx : x ∈ w.log)
    (hid : x'.id = x.id) (hopen : x.status.isTerminal = false) (p : String → Bool) :
    (w.log.map (Log.put x')).countP (fun e => p e.eventType ∧ e.isGivenUp) =
      byHand.countP p + if p x'.eventType ∧ x'.isGivenUp then 1 else 0 := by
  have hcount := Log.countP_map_put h.nodup hx hid fun e => decide (p e.eventType ∧ e.isGivenUp)
  rw [Entry.isGivenUp_of_isOpen hopen] at hcount
  simp only [Bool.false_eq_true, and_false, decide_false, if_false, Nat.add_zero,
    decide_eq_true_eq] at hcount
  rw [hb.givenUp p, ← hcount]

/-- An entry that is given up still had attempts left, so the metrics do not count it. -/
theorem Books.giveUp (hb : Books byHand w) (h : w.Sound) (id : String) :
    Books (byHand ++ w.givesUp (.givenUp id)) { w with service := w.service.giveUp id } := by
  rcases h.giveUp_cases id with ⟨htypes, hsame⟩ | ⟨x, hx, hopen, htypes, hput⟩
  · rw [htypes, hsame, List.append_nil]
    exact hb
  · have hne := Entry.retryCount_ne_of_canRetry ((h.kept x hx).canRetry hopen)
    have hsame := Entry.same_abandoned x
    rw [htypes, hput]
    constructor
    case counted => exact hb.counted
    case reason => exact hb.reason
    case mirrors =>
      refine hb.mirrors.put h.nodup hx hsame ?_ rfl ?_
      · rw [Entry.isProcessed_of_isOpen hopen]
        rfl
      · rw [Entry.isSpent_of_isOpen hopen]
        simp [Entry.isSpent, Entry.abandoned, hne]
    case givenUp =>
      intro p
      have hgiven : x.abandoned.isGivenUp = true := by
        simp [Entry.isGivenUp, Entry.abandoned, hne]
      rw [List.countP_append, List.countP_singleton]
      refine Eq.symm ((hb.countP_put h hx hsame.id hopen p).trans ?_)
      rw [hgiven, hsame.eventType]
      simp

/-- An attempt that is recorded is recorded in both books, and one that is not in neither. -/
theorem Books.settle {entry : Entry} {attempt : Attempt} (hb : Books byHand w) (h : w.Sound)
    (ended : w.current = some (entry, attempt)) :
    Books byHand { w with service := (w.service.settle entry attempt).2, current := none } := by
  rcases h.settle_cases ended with hsame | ⟨x, x', hx, hsame, hopen, houtcome, hsettle⟩
  · rw [hsame]
    exact { hb with reason := nofun }
  · have hretry := (h.kept x hx).canRetry hopen
    rw [hsettle, hb.counted, if_pos rfl]
    constructor
    case counted => exact hb.counted
    case reason => nofun
    case mirrors =>
      refine hb.mirrors.recordAttempt h.nodup hx hopen hretry houtcome ?_
      rintro message reason rfl
      rw [hsame.eventType]
      exact hb.reason ended
    case givenUp =>
      intro p
      refine Eq.symm ((hb.countP_put h hx houtcome.same.id hopen p).trans ?_)
      rw [houtcome.isGivenUp_eq]
      simp

/-- Every step keeps the books. -/
theorem Books.step (hb : Books byHand w) (h : w.Sound) (hstep : w.Step event w') :
    Books (byHand ++ w.givesUp event) w' := by
  cases hstep with
  | commit areNew log =>
    show Books (byHand ++ []) _
    rw [List.append_nil]
    exact hb.commit areNew log
  | giveUp id => exact hb.giveUp h id
  | setClock t =>
    show Books (byHand ++ []) _
    rw [List.append_nil]
    exact ⟨hb.counted, hb.reason, hb.mirrors, hb.givenUp⟩
  | fetch idle found =>
    show Books (byHand ++ []) _
    rw [List.append_nil]
    exact ⟨hb.counted, hb.reason, hb.mirrors, hb.givenUp⟩
  | call next free result models scripts =>
    show Books (byHand ++ []) _
    rw [List.append_nil]
    refine ⟨hb.counted, fun hcurrent => ?_, hb.mirrors, hb.givenUp⟩
    rw [Option.some.injEq, Prod.mk.injEq] at hcurrent
    obtain ⟨rfl, hattempt⟩ := hcurrent
    exact reason_attemptWith hattempt
  | settle ended =>
    show Books (byHand ++ []) _
    rw [List.append_nil]
    exact hb.settle h ended

theorem Books.run {events : List Event} {types : List String} (hb : Books byHand w) (h : w.Sound)
    (hrun : Operated w events types w') : Books (byHand ++ types) w' := by
  induction hrun generalizing byHand with
  | nil w =>
    rw [List.append_nil]
    exact hb
  | cons step _ ih =>
    rw [← List.append_assoc]
    exact ih (hb.step h step) (h.step step)

end Dispatch

/-! ## Two entries of two types -/

namespace Service

/-- A service that counts its attempts. Its one projector takes events of these types. -/
def counting (a b : String) : Service where
  backend := .fresh
  registry :=
    let kettle := { name := "Kettle", eventTypes := [a, b], project := fun _ _ => .play 0 }
    ((∅ : Registry Call).insert a kettle).insert b kettle
  counted := true

/-- The service with an entry of each type. -/
def holding (a b : String) : Service :=
  { counting a b with
    backend := { Backend.fresh with
      stores := { outbox := [waitingEntry "1" a, waitingEntry "2" b] } } }

/-- The entries are of one time, so they are fetched as they stand in the log. -/
theorem findPending_holding (a b : String) :
    (holding a b).findPending (holding a b).batchSize = .ok (holding a b).log := by
  have hall : (holding a b).log.filter (·.isDue (holding a b).now) = (holding a b).log :=
    List.filter_eq_self.mpr fun e he => by
      simp only [log, holding, List.mem_cons, List.not_mem_nil, or_false] at he
      rcases he with rfl | rfl
      · rfl
      · rfl
  have hordered : (holding a b).log.Pairwise fun a b => a.occurredAt ≤ b.occurredAt :=
    List.pairwise_pair.mpr (Instant.le_refl Backend.fresh.clock)
  show Except.ok ((holding a b).log.pending (holding a b).now (holding a b).batchSize) = _
  rw [Log.pending_eq hordered, hall]
  rfl

theorem start_counting (a b : String) : Dispatch.IsStart ⟨counting a b, [], none⟩ :=
  ⟨⟨rfl, rfl⟩, rfl, rfl, Nat.zero_lt_succ 9⟩

theorem isNew_waitingEntry (id eventType : String) :
    Entry.IsNew {} "o1" "Order" Backend.fresh.clock (.ofFields eventType [])
      (waitingEntry id eventType) :=
  ⟨rfl, rfl, rfl, rfl, rfl, rfl, rfl, rfl, rfl, rfl, rfl⟩

theorem step_holding (a b : String) :
    Dispatch.Step ⟨counting a b, [], none⟩ (.committed (holding a b).log)
      ⟨holding a b, [], none⟩ := by
  refine .commit ⟨fun e he => ?_, by simp [log, holding, waitingEntry],
    fun _ _ old hold => absurd hold List.not_mem_nil⟩ rfl
  simp only [log, holding, List.mem_cons, List.not_mem_nil, or_false] at he
  rcases he with rfl | rfl
  · exact ⟨_, _, _, _, _, by decide, isNew_waitingEntry _ _⟩
  · exact ⟨_, _, _, _, _, by decide, isNew_waitingEntry _ _⟩

end Service

namespace Dispatch

/-! ## Agreement -/

/-- From an empty outbox on, whatever projectors do, whatever is given up by hand and whatever comes
between the steps of a pass, the metrics show what is in the log, of every type that they tell apart
from the others. -/
theorem metrics_agree {events : List Event} (hstart : w.IsStart)
    (hcounted : w.service.counted = true) (hmetrics : w.service.metrics = {})
    (hrun : Operated w events byHand w') (t : String) :
    w'.service.metrics.Pools w'.service.registry w'.log byHand t ∧
      (Metrics.Apart w'.service.registry w'.log t →
        w'.service.metrics.Shows w'.service.registry w'.log byHand t) := by
  have hbooks := (hstart.books hcounted hmetrics).run hstart.sound hrun
  rw [List.nil_append] at hbooks
  exact ⟨hbooks.mirrors.pools hbooks.givenUp t, hbooks.mirrors.shows hbooks.givenUp⟩

/-- The projector takes both events, but the second entry has been given up by then. So its mark is
refused, and it is not counted either. -/
theorem refused_mark_agrees : ∃ events byHand w',
    IsStart ⟨.counting "Tea" "Coffee", [], none⟩ ∧
      Operated ⟨.counting "Tea" "Coffee", [], none⟩ events byHand w' ∧
      (w'.service.metrics.Pools w'.service.registry w'.log byHand "Coffee" ∧
        w'.service.metrics.Shows w'.service.registry w'.log byHand "Coffee") ∧
      byHand = ["Coffee"] ∧ w'.log.map Entry.status = [.processed, .deadLettered] := by
  let s := Service.holding "Tea" "Coffee"
  have hrun := Operated.cons (Service.step_holding "Tea" "Coffee")
    (.cons (.fetch ⟨rfl, rfl⟩ (Service.findPending_holding _ _))
      (.cons (.call rfl rfl (.ok ()) s.models s.scripts) (.cons (.settle rfl)
        (.cons (.call rfl rfl (.ok ()) s.models s.scripts) (.cons (.giveUp "2")
          (.cons (.settle rfl) (.nil _)))))))
  obtain ⟨hpools, hshows⟩ :=
    metrics_agree (Service.start_counting _ _) rfl rfl hrun "Coffee"
  have hapart := hshows ⟨by decide +kernel, by decide +kernel⟩
  exact ⟨_, _, _, Service.start_counting _ _, hrun, ⟨hpools, hapart⟩, by decide +kernel,
    by decide +kernel⟩

/-- Both types have one fingerprint, so both entries are counted as the first. -/
theorem shared_not_shown : ¬ ∀ {w w' : Dispatch} {events : List Event} {byHand : List String},
    w.IsStart → w.service.counted = true → w.service.metrics = {} →
      Operated w events byHand w' → ∀ t : String,
        w'.service.metrics.Shows w'.service.registry w'.log byHand t := by
  intro h
  let s := Service.holding "8yn0iYCKYHlIj4-BwPqk" "GReLUrM4wMqfg9yzV3KQ"
  have hfound : s.findPending s.batchSize = .ok s.log := Service.findPending_holding _ _
  obtain ⟨events, -, -, -, hpass, -⟩ := run_pass hfound
  obtain ⟨byHand, hrun⟩ := (Run.cons (Service.step_holding _ _) hpass).operated
  have hshows := h (Service.start_counting _ _) rfl rfl hrun "GReLUrM4wMqfg9yzV3KQ"
  have hpassed : s.pass.2 = (Service.attemptAll s.log s).2 := by
    rw [Service.pass, hfound]
  have hlog : (s.pass.2.log.countP fun e =>
      e.eventType = "GReLUrM4wMqfg9yzV3KQ" ∧ e.status = .processed) = 1 := by
    rw [hpassed]
    decide +kernel
  have hvalues : s.pass.2.metrics.processed.values = [(["8yn0iYCKYHlIj4-BwPqk"], 2)] := by
    rw [hpassed]
    decide +kernel
  have hvalue : s.pass.2.metrics.value "outbox_entries_processed_total"
      [("event_type", "GReLUrM4wMqfg9yzV3KQ")] = 0 := by
    rw [Metrics.value, Metrics.shown_processed, Metrics.samples, Series.toList, hvalues,
      List.mergeSort_singleton]
    decide +kernel
  have hprocessed := hshows.processed
  rw [hvalue, show log ⟨s.pass.2, [], none⟩ = s.pass.2.log from rfl, hlog] at hprocessed
  cases hprocessed

end Dispatch

end TableService
