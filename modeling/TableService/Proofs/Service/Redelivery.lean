import TableService.Proofs.Command.AllOrNothing
import TableService.Proofs.Service.Debt

/-!
# Redelivery is bounded

- `Dispatch.Accounts`: what has been settled and what is still owed keep to the policy of each
  entry.
- `Dispatch.Run.debt_le`: while nothing is committed, what is settled is taken off the debt.
- `Dispatch.redelivery`: so attempts are bounded, every pass lowers what is outstanding, and passes
  come to an end.
-/

namespace TableService

namespace Dispatch

variable {w w' : Dispatch} {event : Event} {x x' : Entry}

/-! ## What has been paid -/

/-- An entry in the log never owes more attempts than its policy allows. -/
theorem Sound.owed_le (h : w.Sound) (hx : x ∈ w.log) : w.owed x ≤ x.policy.maxRetries.toNat := by
  have hallows := UInt32.le_iff_toNat_le.mp (h.kept x hx).allows
  rw [UInt32.toNat_one] at hallows
  have hle := x.remaining_le
  unfold owed
  split
  · omega
  · exact hle

/-- An attempt that is over was one at an entry of the log. -/
theorem Sound.of_settled? {id : String} (h : w.Sound) (hstep : w.Step event w')
    (hid : event.settled? = some id) : ∃ x ∈ w.log, x.id = id := by
  cases hstep with
  | settle ended =>
    have hmem := h.hand_mem
    rw [inHand, ended] at hmem
    obtain ⟨x, hx, hsame⟩ := hmem _ List.mem_cons_self
    exact ⟨x, hx, hsame.id.trans (Option.some.inj hid)⟩
  | _ => cases hid

/-- What holds of the events so far and the state that they have led to. -/
structure Accounts (past : List Event) (w : Dispatch) : Prop where
  /-- What has been settled and what is still owed keep to the policy. -/
  paid : ∀ x ∈ w.log, (past.filterMap Event.settled?).count x.id + w.owed x ≤
    x.policy.maxRetries.toNat
  known : ∀ id ∈ past.filterMap Event.settled?, ∃ x ∈ w.log, x.id = id
  /-- What has been processed is over. -/
  closed : ∀ x ∈ w.log, x.id ∈ past.filterMap Event.processed? → x.status.isTerminal = true
  once : (past.filterMap Event.processed?).Nodup

variable {past events : List Event}

theorem filterMap_cons (f : Event → Option String) :
    (event :: events).filterMap f = (f event).toList ++ events.filterMap f := by
  cases h : f event with
  | none => rw [List.filterMap_cons_none h]; rfl
  | some id => rw [List.filterMap_cons_some h]; rfl

theorem filterMap_concat (f : Event → Option String) :
    (past ++ [event]).filterMap f = past.filterMap f ++ (f event).toList := by
  rw [List.filterMap_append, filterMap_cons, List.filterMap_nil, List.append_nil]

theorem count_toList (a : Option String) (id : String) :
    a.toList.count id = if a = some id then 1 else 0 := by
  cases a with
  | none => rfl
  | some b => simp [List.count_singleton]

theorem Accounts.step (h : Accounts past w) (hw : w.Sound) (hstep : w.Step event w') :
    Accounts (past ++ [event]) w' := by
  obtain ⟨f, new, heffect⟩ := hw.effect hstep
  have hw' := hw.step hstep
  constructor
  case paid =>
    intro x' hx'
    rw [filterMap_concat, List.count_append, count_toList]
    rcases heffect.mem_cases hx' with ⟨x, hx, rfl⟩ | hnew
    · have hpays := heffect.pays x hx
      have hpaid := h.paid x hx
      have howed := hpays.owed
      rw [hpays.same.id, hpays.same.policy]
      omega
    · -- nothing has been settled of a new entry
      have hpast : (past.filterMap Event.settled?).count x'.id = 0 := by
        refine List.count_eq_zero.mpr fun hid => ?_
        obtain ⟨x, hx, hsame⟩ := h.known _ hid
        exact heffect.areNew.fresh x' hnew x hx hsame.symm
      have hsettled : event.settled? ≠ some x'.id := by
        intro hid
        obtain ⟨x, hx, hsame⟩ := hw.of_settled? hstep hid
        exact heffect.areNew.fresh x' hnew x hx hsame.symm
      rw [hpast, if_neg hsettled]
      have howed := hw'.owed_le hx'
      omega
  case known =>
    intro id hid
    have hbefore : ∃ x ∈ w.log, x.id = id := by
      rw [filterMap_concat, List.mem_append, Option.mem_toList] at hid
      rcases hid with hid | hid
      · exact h.known id hid
      · exact hw.of_settled? hstep hid
    obtain ⟨x, hx, rfl⟩ := hbefore
    exact ⟨f x, heffect.mem hx, (heffect.pays x hx).same.id⟩
  case closed =>
    intro x' hx' hid
    rw [filterMap_concat, List.mem_append, Option.mem_toList] at hid
    rcases heffect.mem_cases hx' with ⟨x, hx, rfl⟩ | hnew
    · have hpays := heffect.pays x hx
      rw [hpays.same.id] at hid
      rcases hid with hid | hid
      · exact (hpays.closed (h.closed x hx hid)).1
      · exact hpays.processed hid
    · exfalso
      have hbefore : ∃ x ∈ w.log, x.id = x'.id := by
        rcases hid with hid | hid
        · refine h.known _ ?_
          obtain ⟨e, he, hprocessed⟩ := List.mem_filterMap.mp hid
          exact List.mem_filterMap.mpr ⟨e, he, Event.settled?_of_processed? hprocessed⟩
        · exact hw.of_settled? hstep (Event.settled?_of_processed? hid)
      obtain ⟨x, hx, hsame⟩ := hbefore
      exact heffect.areNew.fresh x' hnew x hx hsame.symm
  case once =>
    rw [filterMap_concat, List.nodup_append]
    refine ⟨h.once, by cases event.processed? <;> simp, fun id hid id' hid' heq => ?_⟩
    subst heq
    rw [Option.mem_toList] at hid'
    obtain ⟨x, hx, rfl⟩ := hw.of_settled? hstep (Event.settled?_of_processed? hid')
    exact ((heffect.pays x hx).closed (h.closed x hx hid)).2 hid'

theorem Accounts.run (h : Accounts past w) (hw : w.Sound) (hrun : Run w events w') :
    Accounts (past ++ events) w' := by
  induction hrun generalizing past with
  | nil => rwa [List.append_nil]
  | cons step _ ih =>
    rw [List.append_cons]
    exact ih (h.step hw step) (hw.step step)

/-! ## Calls, and what they settle -/

theorem Step.calls (hstep : w.Step event w') :
    (w.current.map fun c => c.1.id).toList ++ event.attempted?.toList =
      event.settled?.toList ++ (w'.current.map fun c => c.1.id).toList := by
  cases hstep with
  | call next free => rw [free]; rfl
  | settle ended => rw [ended]; rfl
  | _ => exact List.append_nil _

/-- Every call is settled before the next one. -/
theorem Run.calls (h : Run w events w') :
    (w.current.map fun c => c.1.id).toList ++ events.filterMap Event.attempted? =
      events.filterMap Event.settled? ++ (w'.current.map fun c => c.1.id).toList := by
  induction h with
  | nil => exact List.append_nil _
  | cons step _ ih =>
    rw [filterMap_cons, filterMap_cons, ← List.append_assoc, step.calls, List.append_assoc, ih,
      List.append_assoc]

theorem Step.waiting (hstep : w.Step event w') (hfetch : event.isFetch = false) :
    event.attempted?.toList ++ w'.waiting.map Entry.id = w.waiting.map Entry.id := by
  cases hstep with
  | fetch => cases hfetch
  | call next free => rw [next]; rfl
  | _ => rfl

/-- Until the next pass begins, what is attempted is what waits, in that order. -/
theorem Run.waiting (h : Run w events w') (hfetch : ∀ event ∈ events, event.isFetch = false) :
    events.filterMap Event.attempted? ++ w'.waiting.map Entry.id = w.waiting.map Entry.id := by
  induction h with
  | nil => rfl
  | cons step _ ih =>
    rw [filterMap_cons, List.append_assoc,
      ih fun event hevent => hfetch event (List.mem_cons_of_mem _ hevent)]
    exact step.waiting (hfetch _ List.mem_cons_self)

/-- No more attempts are made at an entry than its policy allows. -/
theorem Accounts.attempts_le (h : Accounts past w)
    (hcalls : past.filterMap Event.attempted? =
      past.filterMap Event.settled? ++ (w.current.map fun c => c.1.id).toList) (hx : x ∈ w.log) :
    (past.filterMap Event.attempted?).count x.id ≤ x.policy.maxRetries.toNat := by
  have hpaid := h.paid x hx
  rw [hcalls, List.count_append, count_toList]
  split
  · -- what is being attempted is in hand, so it still owes one attempt
    rename_i hcurrent
    have hhand : x.id ∈ w.inHand.map Entry.id := by
      obtain ⟨c, hc, hid⟩ := Option.map_eq_some_iff.mp hcurrent
      rw [inHand, hc, ← hid]
      exact List.mem_cons_self
    rw [owed, if_pos hhand] at hpaid
    omega
  · omega

/-- What is attempted is in the log. -/
theorem Accounts.attempted_mem {id : String} (h : Accounts past w) (hw : w.Sound)
    (hcalls : past.filterMap Event.attempted? =
      past.filterMap Event.settled? ++ (w.current.map fun c => c.1.id).toList)
    (hid : id ∈ past.filterMap Event.attempted?) : ∃ x ∈ w.log, x.id = id := by
  rw [hcalls, List.mem_append, Option.mem_toList] at hid
  rcases hid with hid | hid
  · exact h.known id hid
  · obtain ⟨c, hc, rfl⟩ := Option.map_eq_some_iff.mp hid
    have hmem := hw.hand_mem
    rw [inHand, hc] at hmem
    obtain ⟨x, hx, hsame⟩ := hmem _ List.mem_cons_self
    exact ⟨x, hx, hsame.id⟩

/-! ## What is taken off the debt -/

theorem sum_map_add_countP_le {l : List Entry} {p : Entry → Bool} {f g : Entry → Nat}
    (h : ∀ x ∈ l, f x + (if p x then 1 else 0) ≤ g x) :
    (l.map f).sum + l.countP p ≤ (l.map g).sum := by
  induction l with
  | nil => exact Nat.le_refl _
  | cons x rest ih =>
    have hx := h x List.mem_cons_self
    have hrest := ih fun y hy => h y (List.mem_cons_of_mem _ hy)
    rw [List.map_cons, List.map_cons, List.sum_cons, List.sum_cons, List.countP_cons]
    omega

/-- A step that commits nothing takes what it settles off the debt. -/
theorem Sound.debt_step (h : w.Sound) (hstep : w.Step event w') (hcommit : event.isCommit = false) :
    w'.debt + event.settled?.toList.length ≤ w.debt := by
  obtain ⟨f, new, heffect⟩ := h.effect hstep
  have hlog : w'.log = w.log.map f := by
    rw [heffect.log, heffect.committed hcommit, List.append_nil]
  have hsum : (w.log.map (w'.owed ∘ f)).sum +
      w.log.countP (fun x => decide (event.settled? = some x.id)) ≤ w.debt := by
    refine sum_map_add_countP_le fun x hx => ?_
    simpa using (heffect.pays x hx).owed
  have hhits : event.settled?.toList.length ≤
      w.log.countP (fun x => decide (event.settled? = some x.id)) := by
    cases hid : event.settled? with
    | none => exact Nat.zero_le _
    | some id =>
      obtain ⟨x, hx, rfl⟩ := h.of_settled? hstep hid
      exact List.countP_pos_iff.mpr ⟨x, hx, decide_eq_true rfl⟩
  rw [debt, hlog, List.map_map]
  omega

theorem Run.debt_le (hrun : Run w events w') (h : w.Sound)
    (hcommit : ∀ event ∈ events, event.isCommit = false) :
    w'.debt + (events.filterMap Event.settled?).length ≤ w.debt := by
  induction hrun with
  | nil => exact Nat.le_refl _
  | cons step _ ih =>
    have hfirst := h.debt_step step (hcommit _ List.mem_cons_self)
    have hrest := ih (h.step step) fun event hevent => hcommit event (List.mem_cons_of_mem _ hevent)
    rw [filterMap_cons, List.length_append]
    omega

/-- Nothing is outstanding exactly if every entry is over. -/
theorem Sound.outstanding_eq_zero_iff (h : w.Sound) :
    w.outstanding = 0 ↔ ∀ e ∈ w.log, e.status.isTerminal = true := by
  rw [outstanding, List.sum_eq_zero_iff_forall_eq_nat, List.forall_mem_map]
  refine forall₂_congr fun e he => ⟨fun hzero => ?_, Entry.remaining_of_isTerminal⟩
  cases hopen : e.status.isTerminal with
  | true => rfl
  | false =>
    have hleft := (h.kept e he).one_le_remaining hopen
    omega

/-! ## Passes -/

section

variable {p : Pass} {passes : List Pass}

/-- A pass begins when no other one is under way. -/
theorem Run.of_pass (h : Run w p.events w') :
    w.IsIdle ∧ p.before = w.service ∧ w.service.findPending w.service.batchSize = .ok p.entries ∧
      Run { w with waiting := p.entries } p.rest w' := by
  obtain ⟨before, entries, rest⟩ := p
  cases h with
  | cons step hrest =>
    cases step with
    | fetch idle found => exact ⟨idle, rfl, found, hrest⟩

theorem processed_le_settled (events : List Event) :
    processed events ≤ (events.filterMap Event.settled?).length := by
  induction events with
  | nil => exact Nat.le_refl _
  | cons event rest ih =>
    have hfirst : event.processed?.toList.length ≤ event.settled?.toList.length := by
      cases hid : event.processed? with
      | none => exact Nat.zero_le _
      | some id => rw [Event.settled?_of_processed? hid]
    rw [processed, filterMap_cons, filterMap_cons, List.length_append, List.length_append]
    exact Nat.add_le_add hfirst ih

/-- A whole pass takes one off what is outstanding for each entry that it fetches. -/
theorem Run.outstanding_le (hrun : Run w p.events w') (h : w.Sound) (hplain : IsPlain p.rest)
    (hidle : w'.IsIdle) : w'.outstanding + p.entries.length ≤ w.outstanding := by
  obtain ⟨hidle₀, -, found, hrest⟩ := hrun.of_pass
  have hstep := Step.fetch hidle₀ found
  have hfetched := h.debt_step hstep rfl
  have hdebt := hrest.debt_le (h.step hstep) fun event hevent => (hplain event hevent).2
  have hwaiting := hrest.waiting fun event hevent => (hplain event hevent).1
  have hcalls := hrest.calls
  rw [hidle.waiting, List.map_nil, List.append_nil] at hwaiting
  rw [hidle.current, hidle₀.current, hwaiting] at hcalls
  have hlength := congrArg List.length hcalls
  simp only [Option.map_none, Option.toList_none, List.nil_append, List.append_nil,
    List.length_map] at hlength
  rw [debt_of_isIdle hidle, ← hlength] at hdebt
  rw [debt_of_isIdle hidle₀] at hfetched
  omega

/-- If all that is open is due, then a whole pass lowers what is outstanding, unless that is
nothing. -/
theorem Run.outstanding_lt (hrun : Run w p.events w') (h : w.Sound) (hplain : IsPlain p.rest)
    (hidle : w'.IsIdle) (hdue : p.AllDue) :
    w'.outstanding = 0 ∨ w'.outstanding + 1 ≤ w.outstanding := by
  have hle := hrun.outstanding_le h hplain hidle
  obtain ⟨-, hbefore, found, -⟩ := hrun.of_pass
  by_cases hover : ∀ e ∈ w.log, e.status.isTerminal = true
  · have hzero := h.outstanding_eq_zero_iff.mpr hover
    exact .inl (by omega)
  · push Not at hover
    obtain ⟨e, he, hopen⟩ := hover
    have hfound : e.isDue w.service.now = true := by
      have hnow := hdue e (hbefore ▸ he) (Bool.eq_false_iff.mpr hopen)
      rwa [hbefore] at hnow
    -- so the pass fetches something
    have hmem : e ∈ Log.byTime (w.log.filter (·.isDue w.service.now)) :=
      (List.mergeSort_perm _ _).mem_iff.mpr (List.mem_filter.mpr ⟨he, hfound⟩)
    have hlength : 1 ≤ p.entries.length := by
      rw [(h.of_findPending found).2.2, List.length_take]
      exact Nat.le_min.mpr ⟨h.batch, List.length_pos_of_mem hmem⟩
    exact .inr (by omega)

/-- Between passes no pass is under way. -/
theorem Run.isIdle (h : Run w (passes.flatMap Pass.events) w') (hidle : w'.IsIdle) :
    w.IsIdle := by
  cases passes with
  | nil =>
    cases h with
    | nil => exact hidle
  | cons p passes =>
    rw [List.flatMap_cons] at h
    obtain ⟨v, hpass, -⟩ := h.split
    exact hpass.of_pass.1

/-- Altogether no more entries are processed by passes than attempts are outstanding. -/
theorem Run.returned_le (hrun : Run w (passes.flatMap Pass.events) w') (h : w.Sound)
    (hidle : w.IsIdle) (hplain : ∀ p ∈ passes, IsPlain p.rest) :
    (passes.map Pass.returned).sum ≤ w.outstanding := by
  have hcommit : ∀ event ∈ passes.flatMap Pass.events, event.isCommit = false := by
    intro event hevent
    obtain ⟨p, hp, hevent⟩ := List.mem_flatMap.mp hevent
    rcases List.mem_cons.mp hevent with rfl | hevent
    · rfl
    · exact (hplain p hp event hevent).2
  have hreturned : (passes.map Pass.returned).sum = processed (passes.flatMap Pass.events) := by
    clear hrun hplain hcommit
    induction passes with
    | nil => rfl
    | cons p passes ih =>
      rw [List.map_cons, List.sum_cons, ih, List.flatMap_cons, processed_append]
      rfl
  have hdebt := hrun.debt_le h hcommit
  have hsettled := processed_le_settled (passes.flatMap Pass.events)
  rw [debt_of_isIdle hidle] at hdebt
  omega

/-- As long as something is outstanding, every whole pass lowers it. -/
theorem Run.outstanding_add_length_le (hrun : Run w (passes.flatMap Pass.events) w')
    (h : w.Sound) (hidle : w'.IsIdle) (hplain : ∀ p ∈ passes, IsPlain p.rest)
    (hdue : ∀ p ∈ passes, p.AllDue) :
    w'.outstanding = 0 ∨ w'.outstanding + passes.length ≤ w.outstanding := by
  induction passes generalizing w with
  | nil =>
    cases hrun with
    | nil => exact .inr (Nat.le_refl _)
  | cons p passes ih =>
    rw [List.flatMap_cons] at hrun
    obtain ⟨v, hpass, hrest⟩ := hrun.split
    have hlater := ih hrest (h.run hpass) (fun q hq => hplain q (List.mem_cons_of_mem _ hq))
      fun q hq => hdue q (List.mem_cons_of_mem _ hq)
    have hfirst := hpass.outstanding_lt h (hplain p List.mem_cons_self) (hrest.isIdle hidle)
      (hdue p List.mem_cons_self)
    rw [List.length_cons]
    omega

end

/-! ## Redelivery -/

/-- A service at the start, with an empty outbox. -/
structure IsStart (w : Dispatch) : Prop where
  idle : w.IsIdle
  empty : w.log = []
  outage : w.service.outage = []
  batch : 0 < w.service.batchSize

theorem IsStart.sound (h : w.IsStart) : w.Sound where
  outage := h.outage
  batch := h.batch
  nodup := by
    rw [h.empty]
    exact List.nodup_nil
  kept e he := by
    rw [h.empty] at he
    exact absurd he List.not_mem_nil
  hand_nodup := by
    rw [inHand_of_isIdle h.idle]
    exact List.nodup_nil
  hand_mem e he := by
    rw [inHand_of_isIdle h.idle] at he
    exact absurd he List.not_mem_nil

theorem IsStart.accounts (h : w.IsStart) : Accounts [] w where
  paid x hx := by
    rw [h.empty] at hx
    exact absurd hx List.not_mem_nil
  known id hid := absurd hid List.not_mem_nil
  closed x _ hid := absurd hid List.not_mem_nil
  once := List.nodup_nil

/-- What holds of everything that has happened, and of passes that go on from there. -/
structure Redelivery (events : List Event) (w : Dispatch) : Prop where
  known : ∀ id ∈ events.filterMap Event.attempted?, ∃ x ∈ w.log, x.id = id
  /-- The attempts at an entry keep to its policy. -/
  bounded : ∀ x ∈ w.log,
    (events.filterMap Event.attempted?).count x.id ≤ x.policy.maxRetries.toNat
  processed : (events.filterMap Event.processed?).Nodup
  /-- A pass attempts what it has fetched, each entry at most once. -/
  once {first later : List Event} {p : Pass} : events = first ++ p.events ++ later →
    (∀ event ∈ p.rest, event.isFetch = false) →
      (p.entries.map Entry.id).Nodup ∧
        p.rest.filterMap Event.attempted? <+: p.entries.map Entry.id
  /-- No pass gets stuck. -/
  ends : ∃ more w', Run w more w' ∧ IsPlain more ∧ w'.IsIdle
  /-- A whole pass takes one off what is outstanding for each entry that it fetches. -/
  lowered {p : Pass} {w' : Dispatch} : Run w p.events w' → IsPlain p.rest → w'.IsIdle →
    w'.outstanding + p.entries.length ≤ w.outstanding
  /-- So only so many passes can return more than 0. -/
  returned {passes : List Pass} {w' : Dispatch} : w.IsIdle →
    Run w (passes.flatMap Pass.events) w' → (∀ p ∈ passes, IsPlain p.rest) →
      passes.countP (fun p => 0 < p.returned) ≤ w.outstanding
  /-- Passes to which all that is open is due come to the end of it. -/
  drained {passes : List Pass} {w' : Dispatch} : Run w (passes.flatMap Pass.events) w' →
    w'.IsIdle → (∀ p ∈ passes, IsPlain p.rest) → (∀ p ∈ passes, p.AllDue) →
      w.outstanding ≤ passes.length → ∀ x ∈ w'.log, x.status.isTerminal = true

theorem countP_returned_le (passes : List Pass) :
    passes.countP (fun p => 0 < p.returned) ≤ (passes.map Pass.returned).sum := by
  induction passes with
  | nil => exact Nat.le_refl _
  | cons p passes ih =>
    rw [List.countP_cons, List.map_cons, List.sum_cons]
    split
    · rename_i hpos
      have hpos := of_decide_eq_true hpos
      omega
    · omega

/-- From an empty outbox on, whatever projectors do and whatever comes between the steps of a pass,
attempts are bounded and passes come to an end. -/
theorem redelivery (hstart : w.IsStart) (hrun : Run w events w') : Redelivery events w' := by
  have hsound := hstart.sound.run hrun
  have haccounts : Accounts events w' := hstart.accounts.run hstart.sound hrun
  have hcalls := hrun.calls
  rw [hstart.idle.current] at hcalls
  refine ⟨fun id hid => haccounts.attempted_mem hsound hcalls hid,
    fun x hx => haccounts.attempts_le hcalls hx, haccounts.once, ?_, exists_run_idle w', ?_, ?_, ?_⟩
  · intro first later p hevents hfetch
    rw [hevents] at hrun
    obtain ⟨v, hbefore, -⟩ := hrun.split
    obtain ⟨u, hfirst, hpass⟩ := hbefore.split
    obtain ⟨-, -, found, hrest⟩ := hpass.of_pass
    have hnodup := ((hstart.sound.run hfirst).of_findPending found).2.1
    exact ⟨hnodup, _, hrest.waiting hfetch⟩
  · exact fun hpass hplain hidle => hpass.outstanding_le hsound hplain hidle
  · intro passes v hidle hpasses hplain
    exact (countP_returned_le passes).trans (hpasses.returned_le hsound hidle hplain)
  · intro passes v hpasses hidle hplain hdue hlength
    refine (hsound.run hpasses).outstanding_eq_zero_iff.mp ?_
    have hleft := hpasses.outstanding_add_length_le hsound hidle hplain hdue
    omega

end Dispatch

/-! ## An event without a projector -/

/-- A service without projectors, whose policy allows one attempt. Its passes are asked to fetch
nothing, and fetch one entry. -/
def Service.bare : Service :=
  Service.withBatchSize { backend := .fresh, policy := { maxRetries := 1 }, registry := ∅ } 0

/-- The service with a dish on the menu. -/
def Service.bareTea : Service := (Service.bare.execute .createTea).2

namespace Dispatch

/-- No projector takes the event, so the one attempt at it fails for good. -/
theorem bareTea_redelivery : ∃ events,
    Run ⟨.bare, [], none⟩ events ⟨Service.bareTea.pass.2, [], none⟩ ∧
      Redelivery events ⟨Service.bareTea.pass.2, [], none⟩ ∧
        Service.bareTea.pass.2.log.map Entry.status = [.deadLettered] := by
  have hbatch : 0 < Service.bare.batchSize := Service.batchSize_withBatchSize_pos _ 0
  have hsettled : Service.bare.backend.stores.Settled :=
    Stores.Reachable.settled ⟨_, Backend.reachable_of_empty rfl, rfl⟩
  have hexecute : Service.bare.execute .createTea = (.ok 1, .bareTea) := by
    have hok : (Service.bare.execute .createTea).1.toOption = some 1 := by decide +kernel
    cases hresult : (Service.bare.execute .createTea).1 with
    | ok count =>
      rw [hresult] at hok
      cases hok
      exact Prod.ext hresult rfl
    | error e =>
      rw [hresult] at hok
      cases hok
  obtain ⟨entries, hcommit⟩ :=
    step_execute (w := ⟨.bare, [], none⟩) hsettled (by decide) hexecute
  obtain ⟨events, -, -, -, hpass, -⟩ := run_pass (s := .bareTea) rfl
  have hrun := Run.cons hcommit hpass
  exact ⟨_, hrun, redelivery ⟨⟨rfl, rfl⟩, rfl, rfl, hbatch⟩ hrun, by decide +kernel⟩

end Dispatch

end TableService
