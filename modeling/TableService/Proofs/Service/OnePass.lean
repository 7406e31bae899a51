import TableService.Proofs.Command.AllOrNothing
import TableService.Proofs.Service.Attempt

/-!
# One pass over the log

A pass works on the entries that it has fetched, not on the log, and records each attempt under the
id of its entry. What it does to the log is known nevertheless, because ids are unique and nothing
comes between its steps: an entry is still in the log as it was fetched when its turn comes.

- `Service.Goes`: how an attempt goes, as the registry and the call of the projector have it.
- `Service.Attempts`: attempts one after the other, each in the state that the ones before it left.
- `Service.Attends`: what they do to the log. Each entry gets the outcome of its own attempt.
- `Service.attends_attemptAll`: whatever the calls come to, no entry is left out, by induction on
  the entries.
- `Service.pass_attends`: so a pass attempts what it finds, and returns how many entries have become
  processed.
-/

namespace TableService

namespace Service

variable {s s' : Service} {entry : Entry}

/-! ## Calls -/

/-- Nothing comes between the steps of a pass: the log is up, and no call of a projector gives an
entry up by hand. -/
structure Undisturbed (s : Service) : Prop where
  log : ∀ call ∈ ["outbox_find", "outbox_processed", "outbox_failed"], s.outage.reason? call = none
  calls : ∀ script ∈ s.scripts, ∀ call ∈ script, call.deadLetter = none

/-- What a call of a projector comes to. -/
def callResult (s : Service) (call : Call) : Except ProjectionFailure Unit :=
  ((s.startCall call).2.finishCall (s.startCall call).1.2).1

theorem Undisturbed.records (h : s.Undisturbed) (attempt : Attempt) :
    Log.Records s.outage attempt := by
  cases attempt with
  | projected => exact h.log _ (by simp)
  | failed message reason => exact h.log _ (by simp)

theorem Undisturbed.nextPart (h : s.Undisturbed) (script : Nat) :
    ∃ scripts, s.nextPart script = ((s.nextPart script).1, { s with scripts }) ∧
      (s.nextPart script).1.deadLetter = none ∧
      ∀ part ∈ scripts, ∀ call ∈ part, call.deadLetter = none := by
  unfold Service.nextPart
  split
  · rename_i call rest hscript
    have hmem : call :: rest ∈ s.scripts := List.mem_of_getElem? hscript
    refine ⟨_, rfl, h.calls _ hmem call List.mem_cons_self, ?_⟩
    intro part hpart other hother
    rcases List.mem_or_eq_of_mem_set hpart with hpart | rfl
    · exact h.calls part hpart other hother
    · exact h.calls _ hmem other (List.mem_cons_of_mem _ hother)
  · exact ⟨_, rfl, rfl, h.calls⟩

/-- A call changes read models and scripts, and nothing else. -/
theorem Undisturbed.call (h : s.Undisturbed) (call : Call) :
    ∃ models scripts, (s.startCall call).2.finishCall (s.startCall call).1.2 =
        (s.callResult call, { s with models, scripts }) ∧
      ({ s with models, scripts } : Service).Undisturbed := by
  unfold callResult
  cases call with
  | project p =>
    cases hp : p s.outage s.models with
    | ok models =>
      refine ⟨models, s.scripts, ?_, h.log, h.calls⟩
      simp only [startCall, finishCall, hp]
    | error failure =>
      refine ⟨s.models, s.scripts, ?_, h.log, h.calls⟩
      simp only [startCall, finishCall, hp]
  | play script =>
    obtain ⟨scripts, hnext, hcall, hscripts⟩ := h.nextPart script
    refine ⟨s.models, scripts, ?_, h.log, hscripts⟩
    simp only [startCall, finishCall]
    rw [hnext, hcall]
    rfl

/-! ## One attempt -/

/-- How an attempt goes. -/
inductive Goes (s : Service) (entry : Entry) : Attempt → Prop where
  | unrouted (unknown : s.registry[entry.eventType]? = none) :
      Goes s entry
        (.failed ("No projector registered for event type: " ++ entry.eventType) "no_projector")
  | projected {p : Projector Call} (routed : s.registry[entry.eventType]? = some p)
      (result : s.callResult (p.project entry.eventType entry.eventData) = .ok ()) :
      Goes s entry .projected
  | refused {p : Projector Call} {e : ProjectionError}
      (routed : s.registry[entry.eventType]? = some p)
      (result : s.callResult (p.project entry.eventType entry.eventData) = .error (.error e)) :
      Goes s entry (.failed e.message "projection_error")
  | crashed {p : Projector Call} {message : String}
      (routed : s.registry[entry.eventType]? = some p)
      (result : s.callResult (p.project entry.eventType entry.eventData) =
        .error (.panic message)) :
      Goes s entry
        (.failed ("Projector " ++ p.name ++ " panicked: " ++ message) "projection_error")

/-- An attempt is a call, if there is a projector, and the record of how it went. -/
theorem Undisturbed.attempt_eq (h : s.Undisturbed) (entry : Entry) :
    ∃ attempt models scripts, s.Goes entry attempt ∧
      s.attempt none entry = ({ s with models, scripts } : Service).settle entry attempt ∧
      ({ s with models, scripts } : Service).Undisturbed := by
  rw [attempt_none]
  unfold startAttempt
  cases hrouted : s.registry[entry.eventType]? with
  | none => exact ⟨_, s.models, s.scripts, .unrouted hrouted, rfl, h⟩
  | some p =>
    obtain ⟨models, scripts, hcall, hundisturbed⟩ :=
      h.call (p.project entry.eventType entry.eventData)
    refine ⟨.ofProjection p.name (s.callResult (p.project entry.eventType entry.eventData)),
      models, scripts, ?_, ?_, hundisturbed⟩
    · cases hresult : s.callResult (p.project entry.eventType entry.eventData) with
      | ok _ => exact .projected hrouted hresult
      | error failure =>
        cases failure with
        | error e => exact .refused hrouted hresult
        | panic message => exact .crashed hrouted hresult
    · simp only [endAttempt, finishAttempt, hcall]

/-- An entry that is due gets the outcome of the attempt. -/
theorem Undisturbed.attempt (h : s.Undisturbed) (hn : (s.log.map Entry.id).Nodup)
    (hentry : entry ∈ s.log) (hdue : entry.isDue s.now = true) :
    ∃ attempt entry', s.Goes entry attempt ∧ entry.Outcome s.now attempt entry' ∧
      (s.attempt none entry).1 = attempt.isProjected ∧
      (s.attempt none entry).2.log = s.log.map (Log.put entry') ∧
      (s.attempt none entry).2.now = s.now ∧ (s.attempt none entry).2.Undisturbed := by
  obtain ⟨attempt, models, scripts, hgoes, hattempt, hundisturbed⟩ := h.attempt_eq entry
  obtain ⟨entry', -, houtcome, hsettle⟩ := settle_of_isOpen (hundisturbed.records attempt) hn hentry
    (Entry.isOpen_of_isDue hdue) (Entry.canRetry_of_isDue hdue)
  rw [hattempt, hsettle]
  exact ⟨attempt, entry', hgoes, houtcome, rfl, rfl, rfl, hundisturbed.log, hundisturbed.calls⟩

/-! ## Attempts one after the other -/

/-- Attempts at entries, each in the state that the ones before it left. -/
inductive Attempts : Service → List (Entry × Attempt) → Service → Prop where
  | nil (s : Service) : Attempts s [] s
  | cons {s s' : Service} {entry : Entry} {attempt : Attempt} {more : List (Entry × Attempt)}
      (goes : s.Goes entry attempt) (rest : Attempts (s.attempt none entry).2 more s') :
      Attempts s ((entry, attempt) :: more) s'

/-- What attempts at some entries do to the log, if `f` says what each entry becomes. -/
structure Attends (s : Service) (entries : List Entry) (s' : Service)
    (attempts : List (Entry × Attempt)) (f : Entry → Entry) : Prop where
  made : Attempts s attempts s'
  /-- All of the entries, each once and in their order. -/
  inOrder : attempts.map Prod.fst = entries
  log : s'.log = s.log.map f
  outcome : ∀ x ∈ attempts, x.1.Outcome s.now x.2 (f x.1)
  others : ∀ e ∈ s.log, e ∉ entries → f e = e

theorem attends_nil (s : Service) : s.Attends [] s [] id where
  made := .nil s
  inOrder := rfl
  log := (List.map_id _).symm
  outcome _ hx := absurd hx List.not_mem_nil
  others _ _ _ := rfl

/-- An attempt comes first, and what it leaves of the log is what the others find. -/
theorem Attends.cons {entry' : Entry} {attempt : Attempt} {rest : List Entry}
    {attempts : List (Entry × Attempt)} {f : Entry → Entry} (hn : (s.log.map Entry.id).Nodup)
    (hentry : entry ∈ s.log) (hrest : ∀ e ∈ rest, e ∈ s.log ∧ e.id ≠ entry.id)
    (hgoes : s.Goes entry attempt) (houtcome : entry.Outcome s.now attempt entry')
    (hlog : (s.attempt none entry).2.log = s.log.map (Log.put entry'))
    (hnow : (s.attempt none entry).2.now = s.now)
    (h : (s.attempt none entry).2.Attends rest s' attempts f) :
    s.Attends (entry :: rest) s' ((entry, attempt) :: attempts) (f ∘ Log.put entry') := by
  have hid : entry'.id = entry.id := houtcome.same.id
  -- the entry has had its turn, and the others do not touch it
  have hsettled : f entry' = entry' := by
    refine h.others entry' ?_ fun hmem => (hrest entry' hmem).2 hid
    rw [hlog]
    exact List.mem_map.mpr ⟨entry, hentry, Log.put_of_eq hid.symm⟩
  constructor
  case made => exact .cons hgoes h.made
  case inOrder => rw [List.map_cons, h.inOrder]
  case log => rw [h.log, hlog, List.map_map]
  case outcome =>
    intro x hx
    rcases List.mem_cons.mp hx with rfl | hx
    · show entry.Outcome s.now attempt (f (Log.put entry' entry))
      rw [Log.put_of_eq hid.symm, hsettled]
      exact houtcome
    · have hmem : x.1 ∈ rest := h.inOrder ▸ List.mem_map_of_mem hx
      have hne : x.1.id ≠ entry'.id := hid ▸ (hrest x.1 hmem).2
      show x.1.Outcome s.now x.2 (f (Log.put entry' x.1))
      rw [Log.put_of_ne hne, ← hnow]
      exact h.outcome x hx
  case others =>
    intro e he hnot
    have hne : e.id ≠ entry'.id := by
      intro heq
      obtain rfl := Log.eq_of_id_eq hn he hentry (heq.trans hid)
      exact hnot List.mem_cons_self
    show f (Log.put entry' e) = e
    rw [Log.put_of_ne hne]
    refine h.others e ?_ fun hmem => hnot (List.mem_cons_of_mem _ hmem)
    rw [hlog]
    exact Log.mem_map_put_of_ne he hne

/-- The induction is on the entries. Those to come are in the log as they were fetched, since only
the first one is marked. -/
theorem attends_attemptAll {entries : List Entry} (h : s.Undisturbed)
    (hn : (s.log.map Entry.id).Nodup) (hids : (entries.map Entry.id).Nodup)
    (hentries : ∀ e ∈ entries, e ∈ s.log ∧ e.isDue s.now = true) :
    ∃ attempts f, s.Attends entries (attemptAll entries s).2 attempts f ∧
      (attemptAll entries s).1.processed = attempts.countP (·.2.isProjected) := by
  induction entries generalizing s with
  | nil => exact ⟨[], id, attends_nil s, rfl⟩
  | cons entry rest ih =>
    rw [List.map_cons, List.nodup_cons] at hids
    obtain ⟨hentry, hdue⟩ := hentries entry List.mem_cons_self
    have hne : ∀ e ∈ rest, e.id ≠ entry.id := by
      intro e he heq
      exact hids.1 (heq ▸ List.mem_map_of_mem he)
    obtain ⟨attempt, entry', hgoes, houtcome, hdone, hlog, hnow, hundisturbed⟩ :=
      h.attempt hn hentry hdue
    have hid : entry'.id = entry.id := houtcome.same.id
    have hn' : ((s.attempt none entry).2.log.map Entry.id).Nodup := by
      rw [hlog, Log.map_id_put]
      exact hn
    have hrest : ∀ e ∈ rest, e ∈ (s.attempt none entry).2.log ∧
        e.isDue (s.attempt none entry).2.now = true := by
      intro e he
      obtain ⟨hmem, hedue⟩ := hentries e (List.mem_cons_of_mem _ he)
      rw [hlog, hnow]
      refine ⟨Log.mem_map_put_of_ne hmem ?_, hedue⟩
      rw [hid]
      exact hne e he
    obtain ⟨attempts, f, hattends, hcount⟩ := ih hundisturbed hn' hids.2 hrest
    refine ⟨_, _, .cons hn hentry (fun e he => ?_) hgoes houtcome hlog hnow
      (attemptAll_cons entry rest s ▸ hattends), ?_⟩
    · exact ⟨(hentries e (List.mem_cons_of_mem _ he)).1, hne e he⟩
    · rw [processed_attemptAll_cons, hcount, hdone, List.countP_cons]
      cases attempt.isProjected with
      | true => rfl
      | false => rfl

/-! ## A pass -/

/-- The entries that have become processed are those whose attempts succeeded. Both are lists
without repetitions, and they have the same members. -/
theorem Attends.countP_processed {entries : List Entry} {attempts : List (Entry × Attempt)}
    {f : Entry → Entry} (h : s.Attends entries s' attempts f) (hn : (s.log.map Entry.id).Nodup)
    (hids : (entries.map Entry.id).Nodup)
    (hentries : ∀ e ∈ entries, e ∈ s.log ∧ e.isDue s.now = true) :
    (s.log.countP fun e => e.status ≠ .processed ∧ (f e).status = .processed) =
      attempts.countP (·.2.isProjected) := by
  have hmem : ∀ e, e ∈ s.log.filter (fun e => e.status ≠ .processed ∧ (f e).status = .processed) ↔
      e ∈ (attempts.filter (·.2.isProjected)).map Prod.fst := by
    intro e
    rw [List.mem_filter, decide_eq_true_eq, List.mem_map]
    constructor
    · rintro ⟨he, hbefore, hbehind⟩
      by_cases hattempted : e ∈ entries
      · rw [← h.inOrder] at hattempted
        obtain ⟨x, hx, rfl⟩ := List.mem_map.mp hattempted
        have hdone := (h.outcome x hx).status_eq_processed_iff.mp hbehind
        exact ⟨x, List.mem_filter.mpr ⟨hx, hdone⟩, rfl⟩
      · rw [h.others e he hattempted] at hbehind
        exact absurd hbehind hbefore
    · rintro ⟨x, hx, rfl⟩
      obtain ⟨hx, hdone⟩ := List.mem_filter.mp hx
      have hattempted : x.1 ∈ entries := h.inOrder ▸ List.mem_map_of_mem hx
      obtain ⟨he, hdue⟩ := hentries x.1 hattempted
      refine ⟨he, ?_, (h.outcome x hx).status_eq_processed_iff.mpr hdone⟩
      intro hbefore
      have hopen := Entry.isOpen_of_isDue hdue
      rw [hbefore] at hopen
      cases hopen
  have hattempts : ((attempts.filter (·.2.isProjected)).map Prod.fst).Nodup := by
    have hentriesNodup := List.Nodup.of_map _ hids
    rw [← h.inOrder] at hentriesNodup
    exact hentriesNodup.sublist (List.filter_sublist.map Prod.fst)
  have hperm := (List.perm_ext_iff_of_nodup ((List.Nodup.of_map _ hn).filter _) hattempts).mpr hmem
  have hlength := hperm.length_eq
  rw [List.length_map, ← List.countP_eq_length_filter, ← List.countP_eq_length_filter] at hlength
  exact hlength

/-- A pass attempts exactly the entries that it finds, and returns how many of them it has brought
to their end. -/
theorem pass_attends (h : s.Undisturbed) (hn : (s.log.map Entry.id).Nodup) :
    ∃ entries tally s' attempts f,
      s.findPending s.batchSize = .ok entries ∧ (entries.map Entry.id).Nodup ∧
      s.pass = (.ok tally, s') ∧ s.Attends entries s' attempts f ∧
      tally.processed =
        s.log.countP fun e => e.status ≠ .processed ∧ (f e).status = .processed := by
  have hfound : s.findPending s.batchSize = .ok (s.log.pending s.now s.batchSize) := by
    have hup : s.outage.reason? "outbox_find" = none := h.log _ (by simp)
    rw [findPending, Log.fetch, Log.reach, hup]
    rfl
  obtain ⟨hentries, hids⟩ := Log.pending_spec s.now s.batchSize hn
  obtain ⟨attempts, f, hattends, hcount⟩ := attends_attemptAll h hn hids hentries
  have hpass : s.pass = (.ok (attemptAll (s.log.pending s.now s.batchSize) s).1,
      (attemptAll (s.log.pending s.now s.batchSize) s).2) := by
    rw [pass, hfound]
  rw [← hattends.countP_processed hn hids hentries] at hcount
  exact ⟨_, _, _, attempts, f, hfound, hids, hpass, hattends, hcount⟩

/-! ## A pass with all outcomes -/

/-- An entry of this type that has not been attempted. -/
def waitingEntry (id eventType : String) : Entry where
  id
  eventType
  eventData := []
  aggregateId := "o1"
  aggregateType := "Order"
  occurredAt := Backend.fresh.clock
  status := .pending
  retryCount := 0
  policy := {}
  lastError := none
  processedAt := none
  nextRetryAt := none

/-- A service whose only projector succeeds, then is refused by storage, then crashes. The fourth
entry has no projector. -/
def mixed : Service where
  backend := { Backend.fresh with
    stores := { outbox := [waitingEntry "a" "Tea", waitingEntry "b" "Tea", waitingEntry "c" "Tea",
      waitingEntry "d" "Coffee"] } }
  registry := (∅ : Registry Call).insert "Tea"
    { name := "Kettle", eventTypes := ["Tea"], project := fun _ _ => .play 0 }
  scripts := [[{}, { ending := .failure "cold" }, { ending := .crash none }]]

theorem mixed_pass_attends : mixed.Undisturbed ∧ (mixed.log.map Entry.id).Nodup ∧
    (∃ entries tally s' attempts f,
      mixed.findPending mixed.batchSize = .ok entries ∧ (entries.map Entry.id).Nodup ∧
      mixed.pass = (.ok tally, s') ∧ mixed.Attends entries s' attempts f ∧
      tally.processed =
        mixed.log.countP fun e => e.status ≠ .processed ∧ (f e).status = .processed) ∧
    mixed.pass.2.log.map Entry.status = [.processed, .failed, .failed, .failed] := by
  have hundisturbed : mixed.Undisturbed := by
    constructor
    · intro call _
      rfl
    · decide
  have hnodup : (mixed.log.map Entry.id).Nodup := by decide
  -- the entries are all of one time, so they are fetched as they stand in the log
  have hfound : mixed.findPending mixed.batchSize = .ok mixed.log := by
    have hall : mixed.log.filter (·.isDue mixed.now) = mixed.log :=
      List.filter_eq_self.mpr (by decide +kernel)
    show Except.ok (mixed.log.pending mixed.now mixed.batchSize) = _
    rw [Log.pending_eq (by decide +kernel), hall]
    rfl
  have hpass : mixed.pass.2 = (attemptAll mixed.log mixed).2 := by
    rw [pass, hfound]
  refine ⟨hundisturbed, hnodup, pass_attends hundisturbed hnodup, ?_⟩
  rw [hpass]
  decide +kernel

end Service

end TableService
