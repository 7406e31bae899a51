import TableService.Proofs.Command.Careful

/-!
# Commands that run once more

- `Program.Retraces`: over later stores that agree with what a program has seen, and with the same
  ids and the same time, the program would have come to where it is.
- `Running.Pending`: so it is with a careful command that has not committed yet, and `Pending.turn`
  keeps it so.
- `Committer.again`, `Running.Pending.commit`: therefore a command whose commit succeeds comes to
  the same result and to the same stores if it runs alone over what is committed by then.
-/

namespace TableService

open UnitOfWork

/-! ## Commands that have committed -/

/-- A command that has committed: the ids and the time that it was given, and its count. -/
structure Committer where
  policy : RetryPolicy
  command : Command
  ids : List String
  time : Instant
  count : Nat

namespace Committer

/-- These stores, with the ids and the time that the command was given. -/
def backend (c : Committer) (s : Stores) : Backend :=
  ⟨s, c.time, { text := fun n => c.ids.getD n "" }⟩

/-- The command alone, once more. -/
def again (c : Committer) (s : Stores) : Except CommandError Nat × Backend :=
  c.command.execute c.policy (c.backend s)

/-- The commands alone, one after the other. Gives the result of each with the number of ids that it
takes, and the stores behind them all. -/
def oneByOne (s : Stores) : List Committer → List (Except CommandError Nat × Nat) × Stores
  | [] => ([], s)
  | c :: rest =>
    let (result, b) := c.again s
    let (results, s) := oneByOne b.stores rest
    ((result, b.ids.used) :: results, s)

theorem oneByOne_append (s : Stores) (done more : List Committer) :
    oneByOne s (done ++ more) =
      ((oneByOne s done).1 ++ (oneByOne (oneByOne s done).2 more).1,
        (oneByOne (oneByOne s done).2 more).2) := by
  induction done generalizing s with
  | nil => rfl
  | cons c rest ih =>
    simp only [List.cons_append, oneByOne, ih]

end Committer

/-! ## Commands that may still commit -/

/-- What is left of a program is `rest`. Over later stores that agree with what the program has
seen, and with the same ids and time, it would have come to the same. -/
def Program.Retraces {α : Type} (p : Program α) (s : Stores) (ids : List String)
    (times : List Instant) (u : UnitOfWork) (rest : Program α) : Prop :=
  ∀ (later : Stores) (t : Instant) (text : Nat → String), s.Advances later → u.Agrees later →
    (∀ n id, ids[n]? = some id → text n = id) → (∀ t' ∈ times, t' = t) →
      p.run ⟨later, t, ⟨text, 0⟩⟩ none = rest.run ⟨later, t, ⟨text, ids.length⟩⟩ u

namespace Program.Retraces

variable {α : Type} {p : Program α} {s s' : Stores} {ids : List String} {times : List Instant}
  {u : UnitOfWork} {rest : Program α}

theorem refl (p : Program α) (s : Stores) : p.Retraces s [] [] none p := fun _ _ _ _ _ _ _ => rfl

theorem advance (h : p.Retraces s ids times u rest) (hadvances : s.Advances s') :
    p.Retraces s' ids times u rest :=
  fun later t text hlater => h later t text (hadvances.trans hlater)

theorem now {next : Instant → Program α} (h : p.Retraces s ids times u (.ask .now next))
    (t : Instant) : p.Retraces s ids (times ++ [t]) u (next t) := by
  intro later t' text hadvances hagrees hids htimes
  rw [h later t' text hadvances hagrees hids
    fun t₀ ht₀ => htimes t₀ (List.mem_append_left _ ht₀)]
  rw [htimes t (List.mem_append_right _ (List.mem_singleton_self _))]
  rfl

theorem nextId {next : String → Program α} (h : p.Retraces s ids times u (.ask .nextId next))
    (id : String) : p.Retraces s (ids ++ [id]) times u (next id) := by
  intro later t text hadvances hagrees hids htimes
  have hnew : text ids.length = id := hids ids.length id (List.getElem?_concat_length ..)
  rw [h later t text hadvances hagrees (fun n old hold => hids n old ?_) htimes]
  · rw [List.length_append, ← hnew]
    rfl
  · have hlt : n < ids.length := (List.getElem?_eq_some_iff.mp hold).1
    rw [List.getElem?_append_left hlt]
    exact hold

theorem act {act : Act} {next : act.Reply → Program α}
    (h : p.Retraces s ids times u (.ask (.unit act) next)) (hsteady : act.isSteady = true)
    (hseen : u.Seen s) :
    p.Retraces s ids times (perform s u act).2.2 (next (perform s u act).1) := by
  intro later t text hadvances hagrees hids htimes
  obtain ⟨hsame, hold⟩ := perform_again hsteady hseen hadvances hagrees
  rw [h later t text hadvances hold hids htimes]
  simp only [Program.run, Request.answer, hsame]

end Program.Retraces

namespace Running

/-- The id that the command is given by its next turn, if it asks for one. -/
def takes (r : Running) (b : Backend) : List String :=
  match r.request? with
  | some .nextId => [b.ids.next.1]
  | _ => []

/-- The time that the command is given by its next turn, if it asks for it. -/
def reads (r : Running) (b : Backend) : List Instant :=
  match r.request? with
  | some .now => [b.clock]
  | _ => []

/-- A command that may still commit, over these stores and with the ids and the times that it has
been given. -/
structure Pending (r : Running) (s : Stores) (ids : List String) (times : List Instant) :
    Prop where
  careful : ∃ time : Option Instant, times = time.toList ∧ r.rest.Careful ids time r.unit
  own : r.unit.StagesUnder ids
  seen : r.unit.Seen s
  retraces : (r.command.handle r.policy).Retraces s ids times r.unit r.rest

variable {r : Running} {b : Backend} {s s' : Stores} {ids : List String} {times : List Instant}

theorem takes_of_unit {act : Act} (h : r.request? = some (.unit act)) (b : Backend) :
    r.takes b = [] ∧ r.reads b = [] := by
  rw [takes, reads, h]
  exact ⟨rfl, rfl⟩

theorem pending_start {policy : RetryPolicy} {command : Command}
    (hsingle : command.isSingle = true) (htrim : Text.trim command.target = command.target)
    (s : Stores) : (start policy command).Pending s [] [] where
  careful := ⟨none, rfl, command.handle_careful hsingle htrim⟩
  own := nofun
  seen := nofun
  retraces := .refl _ s

/-- Others may commit in the meantime. -/
theorem Pending.advance (h : r.Pending s ids times) (hadvances : s.Advances s') :
    r.Pending s' ids times where
  careful := h.careful
  own := h.own
  seen := h.seen.advance hadvances
  retraces := h.retraces.advance hadvances

theorem turn_same (r : Running) (b : Backend) :
    (r.turn b).2.policy = r.policy ∧ (r.turn b).2.command = r.command := by
  unfold turn
  split
  · exact ⟨rfl, rfl⟩
  · exact ⟨rfl, rfl⟩

theorem refused_turn (h : r.rest.Refused) : (r.turn b).2.rest.Refused := by
  obtain ⟨policy, command, rest, unit⟩ := r
  cases rest with
  | done result => exact h
  | ask request next => exact h.2 _

theorem not_commitsNow_of_refused (h : r.rest.Refused) : ¬ r.CommitsNow s := by
  rintro ⟨hrequest, -⟩
  obtain ⟨next, hrest⟩ := rest_of_request? hrequest
  rw [hrest] at h
  exact h.1 rfl

/-- A command that closes its unit asks for neither ids nor times. -/
theorem closes_turn {result : Except CommandError Nat} (h : r.rest.Closes result) :
    r.takes b = [] ∧ r.reads b = [] ∧ (r.turn b).2.rest.Closes result := by
  obtain ⟨policy, command, rest, unit⟩ := r
  cases rest with
  | done result => exact ⟨rfl, rfl, h⟩
  | ask request next =>
    obtain ⟨⟨act, rfl, -⟩, hrest⟩ := h
    exact ⟨rfl, rfl, hrest _⟩

/-- A turn of a command, which does not commit by it. -/
theorem Pending.turn (h : r.Pending b.stores ids times) (hs : b.stores.Settled)
    (hnow : ¬ r.CommitsNow b.stores) :
    (r.turn b).2.rest.Refused ∨
      (r.turn b).2.Pending (r.turn b).1.stores (ids ++ r.takes b) (times ++ r.reads b) := by
  obtain ⟨policy, command, rest, unit⟩ := r
  obtain ⟨⟨time, htimes, hcareful⟩, hown, hseen, hretraces⟩ := h
  subst htimes
  cases hcareful with
  | refused rest => exact .inl (refused_turn rest)
  | now rest =>
    refine .inr ⟨⟨some b.clock, rfl, ?_⟩, ?_, hseen, ?_⟩
    · rw [takes, request?, List.append_nil]
      exact rest b.clock
    · exact hown.mono (List.subset_append_left _ _)
    · rw [takes, request?, List.append_nil]
      exact hretraces.now b.clock
  | nextId rest =>
    refine .inr ⟨⟨time, List.append_nil _, rest _⟩, ?_, hseen, ?_⟩
    · exact hown.mono (List.subset_append_left _ _)
    · rw [reads, request?, List.append_nil]
      exact hretraces.nextId _
  | act steady own rest =>
    rename_i act next
    have hstores : (turn ⟨policy, command, .ask (.unit act) next, unit⟩ b).1.stores = b.stores :=
      perform_stores steady
    rw [hstores, takes, reads, request?, List.append_nil, List.append_nil]
    exact .inr ⟨⟨time, rfl, rest _ hs⟩, hown.perform steady own, hseen.perform steady,
      hretraces.act steady hseen⟩
  | commit covered accepted rest =>
    rename_i t o next a
    cases hc : o.conflict? b.stores with
    | none => exact absurd ⟨rfl, o, rfl, hc⟩ hnow
    | some e =>
      refine .inl ?_
      have hreply : (perform b.stores (some o) .commit).1 = .error e := by
        simp only [perform, hc]
      show (next (perform b.stores (some o) .commit).1).Refused
      rw [hreply]
      exact rest e

/-- A commit that succeeds. The command comes to the same if it runs alone over what is committed by
then. -/
theorem Pending.commit (h : r.Pending b.stores ids times) (hnow : r.CommitsNow b.stores)
    (hfree : ∀ id ∈ ids, ∀ old ∈ b.stores.outbox, old.id ≠ id) :
    ∃ t count, times = [t] ∧ (r.turn b).2.rest.Closes (.ok count) ∧
      ∃ left : Backend, left.stores = (r.turn b).1.stores ∧ left.ids.used = ids.length ∧
        (Committer.mk r.policy r.command ids t count).again b.stores = (.ok count, left) := by
  obtain ⟨policy, command, rest, unit⟩ := r
  obtain ⟨⟨time, htimes, hcareful⟩, hown, hseen, hretraces⟩ := h
  obtain ⟨hrequest, o, hunit, hc⟩ := hnow
  cases hcareful with
  | refused rest => exact absurd ⟨hrequest, o, hunit, hc⟩ (not_commitsNow_of_refused rest)
  | now | nextId => cases hrequest
  | act steady =>
    cases hrequest
    cases steady
  | @commit _ t o' next covered count accepted =>
    cases hunit
    have hcommit : perform b.stores (some o) .commit = (.ok (), o.merge b.stores, some {}) := by
      simp only [perform, hc]
    have hagrees : o.Agrees b.stores :=
      covered.agrees (fun e he => hfree e.id (hown o rfl e he)) hc
    have hids : ∀ n id, ids[n]? = some id → ids.getD n "" = id := by
      intro n id hid
      rw [List.getD_eq_getElem?_getD, hid]
      rfl
    have hrun := hretraces b.stores t (fun n => ids.getD n "") (.refl _) (agrees_some.mpr hagrees)
      hids (by simp [htimes])
    simp only [Program.run, Request.answer, hcommit] at hrun
    obtain ⟨hresult, hleft⟩ := accepted.run
      ⟨o.merge b.stores, t, ⟨fun n => ids.getD n "", ids.length⟩⟩ (some {})
    refine ⟨t, count, htimes, ?_, ⟨o.merge b.stores, t, ⟨fun n => ids.getD n "", ids.length⟩⟩, ?_,
      rfl, ?_⟩
    · show (next (perform b.stores (some o) .commit).1).Closes _
      rw [hcommit]
      exact accepted
    · show _ = (perform b.stores (some o) .commit).2.1
      rw [hcommit]
    · have hagain (c : Committer) : c.again b.stores =
          (((c.command.handle c.policy).run (c.backend b.stores) none).1,
            ((c.command.handle c.policy).run (c.backend b.stores) none).2.1) := rfl
      rw [hagain]
      exact Prod.ext ((congrArg Prod.fst hrun).trans hresult)
        ((congrArg (fun x => x.2.1) hrun).trans hleft)

end Running

end TableService
