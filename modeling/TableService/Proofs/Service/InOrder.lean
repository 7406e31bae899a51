import TableService.Proofs.Service.Invariant

/-!
# Entries are delivered in order until an attempt fails

- `Flow.InOrder`: the entries about an aggregate are those that have been delivered, in that order,
  and behind them those that are pending. A pass that is under way attempts the first of them.
- `Flow.KeepsOrder`: so it is for every aggregate with clean entries.
- `Flow.Reached.keepsOrder`: whatever else happens.
-/

namespace TableService

/-- An attempt leaves an entry clean only if it succeeds at a pending one. -/
theorem Entry.Attempted.of_isClean {entry entry' : Entry} {done : Bool}
    (h : entry.Attempted done entry') (hclean : entry'.IsClean) (hsound : entry.Sound)
    (hopen : entry.status.isTerminal = false) : done = true ∧ entry.IsClean := by
  cases done with
  | false =>
    rcases h.failed rfl with hfailed | hdead
    · exact absurd hclean.1 (h.sound.failed hfailed).1
    · rcases hclean.2 with hp | hp
      · rw [hdead] at hp
        cases hp
      · rw [hdead] at hp
        cases hp
  | true =>
    have hcount : entry.retryCount = 0 := (h.processed rfl).2.symm.trans hclean.1
    refine ⟨rfl, hcount, .inl ?_⟩
    cases hstatus : entry.status with
    | pending => rfl
    | failed => exact absurd hcount (hsound.failed hstatus).1
    | processed =>
      rw [hstatus] at hopen
      cases hopen
    | deadLettered =>
      rw [hstatus] at hopen
      cases hopen

namespace Flow

/-! ## The order of one aggregate -/

section

variable (α : Type) [Aggregate α]

/-- The entries about an aggregate: `done` have been delivered in this order, `todo` are still
pending. -/
structure InOrder (w : Flow) (id : String) (done todo : List Entry) : Prop where
  split : Log.of α w.service.log id = done ++ todo
  processed : ∀ e ∈ done, e.status = .processed
  pending : ∀ e ∈ todo, e.status = .pending
  delivered : (Log.of α w.delivered id).map Entry.id = done.map Entry.id
  waiting : Log.of α w.waiting id <+: todo

/-- No attempt at an entry about the aggregate has failed, and none of them has been given up. -/
def IsClean (w : Flow) (id : String) : Prop :=
  ∀ e ∈ Log.of α w.service.log id, e.IsClean

/-- Every aggregate with clean entries has them in order. -/
def KeepsOrder (w : Flow) : Prop :=
  ∀ id, w.IsClean α id → ∃ done todo, w.InOrder α id done todo

end

variable {α : Type} [Aggregate α] {w : Flow} {id : String} {done todo : List Entry}

theorem keepsOrder_start {s : Service} (h : s.IsNew) : KeepsOrder α { service := s } := by
  intro id _
  have hlog : Log.of α s.log id = [] := by
    rw [Service.log, h.stores]
    rfl
  have hnone : ∀ (status : EntryStatus), ∀ e ∈ ([] : List Entry), e.status = status :=
    fun _ _ he => absurd he List.not_mem_nil
  exact ⟨[], [], hlog, hnone _, hnone _, rfl, List.prefix_rfl⟩

/-- New entries are pending, behind all others. -/
theorem InOrder.append {service : Service} {entries : List Entry} (h : w.InOrder α id done todo)
    (hlog : service.log = w.service.log ++ entries)
    (hpending : ∀ e ∈ entries, e.status = .pending) :
    InOrder α { w with service } id done (todo ++ Log.of α entries id) where
  split := by
    show Log.of α service.log id = _
    rw [hlog, Log.of_append, h.split, List.append_assoc]
  processed := h.processed
  pending e he := by
    rcases List.mem_append.mp he with he | he
    · exact h.pending e he
    · exact hpending e (Log.mem_of.mp he).1
  delivered := h.delivered
  waiting := h.waiting.trans (List.prefix_append _ _)

/-- The pending entries are those that are due. A pass fetches the first of them. -/
theorem InOrder.fetch {now : Instant} {limit : Nat} (h : w.InOrder α id done todo)
    (hlog : Log.Sound w.service.log now) : InOrder α
      { w with waiting := (w.service.log.filter (·.isDue now)).take limit } id done todo where
  split := h.split
  processed := h.processed
  pending := h.pending
  delivered := h.delivered
  waiting := by
    -- entries about the aggregate are due exactly if they are pending
    have hdone : done.filter (·.isDue now) = [] := by
      refine List.filter_eq_nil_iff.mpr ?_
      intro e he hdue
      have hopen := Entry.isOpen_of_isDue hdue
      rw [h.processed e he] at hopen
      cases hopen
    have htodo : todo.filter (·.isDue now) = todo := by
      refine List.filter_eq_self.mpr ?_
      intro e he
      have hmem : e ∈ Log.of α w.service.log id := by
        rw [h.split]
        exact List.mem_append_right _ he
      exact (hlog.kept e (Log.mem_of.mp hmem).1).isDue_of_pending (h.pending e he)
    have hdue : Log.of α (w.service.log.filter (·.isDue now)) id = todo := by
      calc Log.of α (w.service.log.filter (·.isDue now)) id
          = (Log.of α w.service.log id).filter (·.isDue now) := List.filter_comm ..
        _ = todo := by rw [h.split, List.filter_append, hdone, htodo, List.nil_append]
    rw [← hdue]
    exact (List.take_prefix _ _).filter _

/-! ## Attempts -/

/-- An attempt at an entry about something else. -/
theorem InOrder.attempt_other {service : Service} {entry entry' : Entry}
    {rest delivered : List Entry} (h : w.InOrder α id done todo)
    (hn : (w.service.log.map Entry.id).Nodup) (hmem : entry ∈ w.service.log)
    (hsame : entry.Same entry') (hnot : ¬ entry.isAbout α id)
    (hnext : w.waiting = entry :: rest) (hlog : service.log = w.service.log.map (Log.put entry'))
    (hdelivered : ∀ d ∈ delivered, d = entry) :
    InOrder α { service, waiting := rest, delivered := w.delivered ++ delivered } id done todo where
  split := by
    show Log.of α service.log id = _
    rw [hlog, Log.of_map_put_of_not hn hmem hsame hnot, h.split]
  processed := h.processed
  pending := h.pending
  delivered := by
    have hnone : Log.of α delivered id = [] := by
      refine Log.of_eq_nil ?_
      intro d hd
      rw [hdelivered d hd]
      exact hnot
    show (Log.of α (w.delivered ++ delivered) id).map _ = _
    rw [Log.of_append, hnone, List.append_nil, h.delivered]
  waiting := by
    have hwaiting := h.waiting
    rw [hnext, Log.of, List.filter_cons_of_neg hnot] at hwaiting
    exact hwaiting

/-- A successful attempt at the first pending entry. -/
theorem InOrder.attempt_own {service : Service} {entry entry' : Entry} {rest : List Entry}
    (h : w.InOrder α id done todo) (hn : (w.service.log.map Entry.id).Nodup)
    (hmem : entry ∈ w.service.log) (hsame : entry.Same entry')
    (hstatus : entry'.status = .processed) (habout : entry.isAbout α id)
    (hnext : w.waiting = entry :: rest) (hlog : service.log = w.service.log.map (Log.put entry')) :
    ∃ later, InOrder α { service, waiting := rest, delivered := w.delivered ++ [entry] } id
      (done ++ [entry']) later := by
  have hwaiting := h.waiting
  rw [hnext, Log.of, List.filter_cons_of_pos habout, List.cons_prefix_iff] at hwaiting
  obtain ⟨later, rfl, hrest⟩ := hwaiting
  have hown : ((done ++ entry :: later).map Entry.id).Nodup := by
    rw [← h.split]
    exact hn.sublist (List.filter_sublist.map _)
  refine ⟨later, ?_, ?_, ?_, ?_, hrest⟩
  · show Log.of α service.log id = _
    rw [hlog, Log.of_map_put hn hmem hsame, h.split, Log.map_put_middle hown hsame.id,
      List.append_assoc, List.singleton_append]
  · intro e he
    rcases List.mem_append.mp he with he | he
    · exact h.processed e he
    · rw [List.mem_singleton.mp he]
      exact hstatus
  · exact fun e he => h.pending e (List.mem_cons_of_mem _ he)
  · have hone : Log.of α [entry] id = [entry] := by
      refine Log.of_eq_self ?_
      intro x hx
      rw [List.mem_singleton.mp hx]
      exact habout
    show (Log.of α (w.delivered ++ [entry]) id).map _ = _
    rw [Log.of_append, hone, List.map_append, List.map_append, h.delivered, List.map_singleton,
      List.map_singleton, hsame.id]

/-- If entries are clean behind an attempt that has put `entry'`, they have been so before, but for
the entry of the attempt itself. -/
theorem isClean_of_put {log : Log} {entry entry' : Entry} (hn : (log.map Entry.id).Nodup)
    (hmem : entry ∈ log) (hsame : entry.Same entry')
    (hclean : ∀ e ∈ Log.of α (log.map (Log.put entry')) id, e.IsClean) :
    (entry.isAbout α id → entry'.IsClean) ∧
      ∀ e ∈ Log.of α log id, e = entry ∨ e.IsClean := by
  have hput : ∀ e ∈ Log.of α log id, (Log.put entry' e).IsClean := by
    intro e he
    refine hclean _ ?_
    rw [Log.of_map_put hn hmem hsame]
    exact List.mem_map_of_mem he
  constructor
  · intro habout
    have hentry := hput entry (Log.mem_of.mpr ⟨hmem, habout⟩)
    rw [Log.put_of_eq hsame.id.symm] at hentry
    exact hentry
  · intro e he
    by_cases hid : e.id = entry'.id
    · exact .inl (Log.eq_of_id_eq hn (Log.mem_of.mp he).1 hmem (hid.trans hsame.id))
    · right
      rw [← Log.put_of_ne hid]
      exact hput e he

theorem KeepsOrder.attempt {entry : Entry} {rest : List Entry} (h : w.KeepsOrder α)
    (hsound : w.Sound) (hnext : w.waiting = entry :: rest) (fault : Option ProjectionFailure) :
    (w.attempt fault entry rest).KeepsOrder α := by
  have hholds := hsound.holds hnext
  obtain ⟨done, entry', models, metrics, hattempted, hattempt, -, -⟩ :=
    hsound.attempt_spec fault hholds
  rw [Flow.attempt, hattempt]
  have hput : Service.log
      { w.service.setLog (w.service.log.map (Log.put entry')) with models, metrics } =
        w.service.log.map (Log.put entry') := rfl
  intro id hclean
  obtain ⟨hown, hbefore⟩ :=
    isClean_of_put hsound.log.nodup hholds.mem hattempted.same (hput ▸ hclean)
  by_cases habout : entry.isAbout α id
  · -- the entry is clean behind the attempt, so the attempt has succeeded
    obtain ⟨rfl, hentry⟩ := hattempted.of_isClean (hown habout) hholds.sound hholds.isOpen
    obtain ⟨front, back, horder⟩ := h id fun e he => by
      rcases hbefore e he with rfl | hclean
      · exact hentry
      · exact hclean
    obtain ⟨later, horder'⟩ := horder.attempt_own hsound.log.nodup hholds.mem hattempted.same
      (hattempted.processed rfl).1 habout hnext hput
    exact ⟨_, later, horder'⟩
  · -- the attempt leaves the entries about this aggregate alone
    obtain ⟨front, back, horder⟩ := h id fun e he => by
      rcases hbefore e he with rfl | hentry
      · exact absurd (Log.mem_of.mp he).2 habout
      · exact hentry
    refine ⟨front, back, horder.attempt_other hsound.log.nodup hholds.mem hattempted.same habout
      hnext hput ?_⟩
    intro d hd
    cases done with
    | true => exact List.mem_singleton.mp hd
    | false => cases hd

/-! ## All steps -/

theorem KeepsOrder.command {command : Command} (h : w.KeepsOrder α) (hsound : w.Sound)
    (htrimmed : Text.trim command.target = command.target) :
    KeepsOrder α { w with service := (w.service.execute command).2 } := by
  have hmoves :=
    Command.execute_moves w.service.policy hsound.settled hsound.distinct hsound.ids htrimmed
  obtain ⟨-, entries, hentries, hpending⟩ := hmoves.outbox hsound.log hsound.retries
  intro id hclean
  obtain ⟨done, todo, horder⟩ := h id fun e he => by
    refine hclean e ?_
    show e ∈ Log.of α (command.execute w.service.policy w.service.backend).2.stores.outbox id
    rw [hentries, Log.of_append]
    exact List.mem_append_left _ he
  exact ⟨done, _, horder.append hentries hpending⟩

theorem KeepsOrder.step {w' : Flow} (h : w.KeepsOrder α) (hsound : w.Sound) (hstep : w.Step w') :
    w'.KeepsOrder α := by
  cases hstep with
  | command trimmed => exact h.command hsound trimmed
  | setPolicy | setClock =>
    intro id hclean
    obtain ⟨done, todo, horder⟩ := h id hclean
    exact ⟨done, todo, horder.split, horder.processed, horder.pending, horder.delivered,
      horder.waiting⟩
  | fetch idle found =>
    intro id hclean
    obtain ⟨done, todo, horder⟩ := h id hclean
    rw [hsound.findPending_eq] at found
    rw [← Except.ok.inj found]
    exact ⟨done, todo, horder.fetch hsound.log⟩
  | attempt next fault => exact h.attempt hsound next fault

theorem Reached.keepsOrder (h : Reached w) : w.KeepsOrder α := by
  induction h with
  | start new => exact keepsOrder_start new
  | step before step ih => exact ih.step before.sound step

end Flow

end TableService
