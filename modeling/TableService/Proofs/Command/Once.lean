import TableService.Proofs.Command.Moments

/-!
# A command commits once

- `Program.Quiet`, `Program.CommitsOnce`: a program without a commit, and one that is accepted
  exactly if its only commit succeeds.
- `Command.handle_commitsOnce`: every command is such a program.
- `Traffic.successes`, `Traffic.committers`: the commits of a run that succeed, and whose they are.
- `Traffic.commitOnce`, `Traffic.mem_committers_iff`: no command commits twice, and one that has
  ended has committed exactly if it was accepted.
-/

namespace TableService

open UnitOfWork

namespace Program

variable {α β ε : Type}

/-- A program that asks for no commit, and ends with `Q`. -/
def Quiet (Q : α → Prop) : Program α → Prop
  | done a => Q a
  | ask r next => r ≠ .unit .commit ∧ ∀ reply, (next reply).Quiet Q

/-- A program that asks for one commit at most. It is accepted exactly if that commit succeeds. -/
inductive CommitsOnce : Program (Except ε α) → Prop where
  | refused (e : ε) : CommitsOnce (.done (.error e))
  | ask {r : Request} {next : r.Reply → Program (Except ε α)} (other : r ≠ .unit .commit)
      (rest : ∀ reply, (next reply).CommitsOnce) : CommitsOnce (.ask r next)
  | commit {next : Within Unit → Program (Except ε α)}
      (rest : ∀ reply, (next reply).Quiet fun result => result.isOk = reply.isOk) :
      CommitsOnce (.ask (.unit .commit) next)

theorem quiet_bind {Q : β → Prop} (p : Program α) (f : α → Program β) :
    (p >>= f).Quiet Q ↔ p.Quiet fun a => (f a).Quiet Q := by
  change (p.bind f).Quiet Q ↔ _
  induction p with
  | done a => rfl
  | ask r next ih => exact and_congr_right fun _ => forall_congr' ih

theorem Quiet.mono {Q R : α → Prop} {p : Program α} (h : p.Quiet Q) (hQ : ∀ a, Q a → R a) :
    p.Quiet R := by
  induction p with
  | done a => exact hQ a h
  | ask r next ih => exact ⟨h.1, fun reply => ih reply (h.2 reply)⟩

theorem quiet_request {r : Request} (h : r ≠ .unit .commit) :
    (request r).Quiet fun _ => True := ⟨h, fun _ => trivial⟩

/-- A program that is refused without a commit. -/
theorem Quiet.commitsOnce {p : Program (Except ε α)}
    (h : p.Quiet fun result => result.isOk = false) : p.CommitsOnce := by
  induction p with
  | done result =>
    cases result with
    | error e => exact .refused e
    | ok a => cases h
  | ask r next ih => exact .ask h.1 fun reply => ih reply (h.2 reply)

theorem Quiet.bind_commitsOnce {p : Program α} {f : α → Program (Except ε β)} {Q : α → Prop}
    (h : p.Quiet Q) (hf : ∀ a, Q a → (f a).CommitsOnce) : (p >>= f).CommitsOnce := by
  change (p.bind f).CommitsOnce
  induction p with
  | done a => exact hf a h
  | ask r next ih => exact .ask h.1 fun reply => ih reply (h.2 reply)

/-- Nothing that comes behind the commit changes whether the program is accepted. -/
theorem CommitsOnce.bind {p : Program (Except ε α)} {f : Except ε α → Program (Except ε β)}
    (h : p.CommitsOnce) (hf : ∀ result, (f result).Quiet fun r => r.isOk = result.isOk) :
    (p >>= f).CommitsOnce := by
  change (p.bind f).CommitsOnce
  induction h with
  | refused e => exact (hf (.error e)).commitsOnce
  | ask other _ ih => exact .ask other ih
  | commit rest =>
    refine .commit fun reply => (quiet_bind _ f).mpr ((rest reply).mono fun result hresult => ?_)
    rw [← hresult]
    exact hf result

end Program

namespace CommandM

open Program

variable {α β : Type}

/-- A part of a command that commits nothing. -/
structure Quiet (m : CommandM α) : Prop where
  program : m.run.Quiet fun _ => True

theorem quiet_pure (a : α) : Quiet (pure a) := ⟨trivial⟩

theorem quiet_throw (e : CommandError) : Quiet (throw e : CommandM α) := ⟨trivial⟩

theorem Quiet.bind {m : CommandM α} {f : α → CommandM β} (h : Quiet m)
    (hf : ∀ a, Quiet (f a)) : Quiet (m >>= f) where
  program := by
    rw [ExceptT.run_bind, quiet_bind]
    refine h.program.mono fun result _ => ?_
    cases result with
    | error e => trivial
    | ok a => exact (hf a).program

theorem quiet_throw_bind (e : CommandError) (f : α → CommandM β) :
    Quiet ((throw e : CommandM α) >>= f) := ⟨trivial⟩

theorem Quiet.commitsOnce_bind {m : CommandM α} {f : α → CommandM β} (h : Quiet m)
    (hf : ∀ a, (f a).run.CommitsOnce) : (m >>= f).run.CommitsOnce := by
  rw [ExceptT.run_bind]
  refine h.program.bind_commitsOnce fun result _ => ?_
  cases result with
  | error e => exact .refused e
  | ok a => exact hf a

theorem quiet_check {ε : Type} (refusal : ε → CommandError) (r : Except ε α) :
    Quiet (check refusal r) := ⟨trivial⟩

theorem quiet_lift {r : Request} (h : r ≠ .unit .commit) :
    Quiet (ExceptT.lift (request r)) := ⟨h, fun _ => trivial⟩

theorem quiet_ofUnit {p : Program (Within α)} (h : p.Quiet fun _ => True) : Quiet (ofUnit p) :=
  Quiet.bind ⟨(quiet_bind p _).mpr (h.mono fun _ _ => trivial)⟩ fun _ => quiet_check _ _

theorem quiet_requireOpen : Quiet requireOpen := by
  refine (quiet_lift (by simp)).bind fun isOpen => ?_
  cases isOpen with
  | true => exact quiet_pure ()
  | false => exact quiet_throw _

theorem quiet_findOrder (id : String) : Quiet (findOrder id) :=
  quiet_ofUnit (quiet_request (by simp))

theorem quiet_findMenuItem (id : String) : Quiet (findMenuItem id) :=
  quiet_ofUnit (quiet_request (by simp))

theorem quiet_saveOrder (order : Order) : Quiet (saveOrder order) :=
  quiet_ofUnit (quiet_request (by simp))

theorem quiet_saveMenuItem (item : MenuItem) : Quiet (saveMenuItem item) :=
  quiet_ofUnit (quiet_request (by simp))

theorem quiet_saveEntry (entry : Entry) : Quiet (saveEntry entry) :=
  (quiet_ofUnit (quiet_request (r := .unit (.saveEntry entry)) (by simp))).bind fun _ =>
    quiet_check _ _

/-! ## Staging and loading -/

theorem quiet_stageEntries (policy : RetryPolicy) (aggregateId kind : String)
    (occurredAt : Instant) (events : List DomainEvent) :
    Quiet (stageEntries policy aggregateId kind occurredAt events) := by
  induction events with
  | nil => exact quiet_pure ()
  | cons event rest ih =>
    refine (quiet_lift Request.noConfusion).bind fun id => ?_
    refine (quiet_check _ _).bind fun entry => (quiet_check _ _).bind fun entry' => ?_
    exact (quiet_saveEntry entry').bind fun _ => ih

theorem quiet_stageEvents [Aggregate α] (policy : RetryPolicy) (a : α) :
    Quiet (stageEvents policy a) := by
  refine (quiet_lift Request.noConfusion).bind fun occurredAt => quiet_requireOpen.bind fun _ => ?_
  exact (quiet_stageEntries ..).bind fun _ => quiet_pure _

theorem quiet_loadOrder (id : String) : Quiet (loadOrder id) := by
  refine (quiet_findOrder id).bind fun found => ?_
  cases found with
  | none => exact quiet_throw _
  | some order => exact quiet_pure order

theorem quiet_loadMenuItem (id : String) : Quiet (loadMenuItem id) := by
  refine (quiet_findMenuItem id).bind fun found => ?_
  cases found with
  | none => exact quiet_throw _
  | some item => exact quiet_pure item

theorem quiet_findMenuItems (ids : List String) : Quiet (findMenuItems ids) := by
  induction ids with
  | nil => exact quiet_pure []
  | cons id rest ih => exact (quiet_findMenuItem id).bind fun _ => ih.bind fun _ => quiet_pure _

theorem quiet_addLines (order : Order) (lines : List OrderLine) : Quiet (addLines order lines) := by
  induction lines generalizing order with
  | nil => exact quiet_pure order
  | cons line rest ih =>
    refine (quiet_lift Request.noConfusion).bind fun id => (quiet_check _ _).bind fun price => ?_
    exact (quiet_check _ _).bind fun quantity => (quiet_check _ _).bind ih

theorem quiet_place (id : String) (number : Int) (lines : List OrderLine) :
    Quiet (place id number lines) := by
  unfold place
  dsimp only
  split
  · exact quiet_throw_bind _ _
  · refine (quiet_findOrder id).bind fun found => ?_
    split
    · exact quiet_throw_bind _ _
    · refine (quiet_findMenuItems _).bind fun items => (quiet_check _ _).bind fun _ => ?_
      refine (quiet_check _ _).bind fun table => (quiet_check _ _).bind fun order => ?_
      exact quiet_addLines order lines

theorem quiet_createMenuItem (id name : String) (amount : Decimal) :
    Quiet (createMenuItem id name amount) := by
  refine (quiet_findMenuItem id).bind fun found => ?_
  cases found with
  | some item => exact quiet_throw_bind _ _
  | none => exact (quiet_check _ _).bind fun price => quiet_check _ _

/-! ## Commits -/

theorem commitsOnce_commit (count : Nat) :
    (do commit; return count : CommandM Nat).run.CommitsOnce := by
  refine .commit fun reply => ?_
  cases reply with
  | error e => rfl
  | ok _ => rfl

theorem commitsOnce_commitOrder (policy : RetryPolicy) (order : Order) :
    (commitOrder policy order).run.CommitsOnce :=
  (quiet_stageEvents policy order).commitsOnce_bind fun _ =>
    (quiet_saveOrder _).commitsOnce_bind fun _ => commitsOnce_commit _

theorem commitsOnce_commitMenuItem (policy : RetryPolicy) (item : MenuItem) :
    (commitMenuItem policy item).run.CommitsOnce :=
  (quiet_stageEvents policy item).commitsOnce_bind fun _ =>
    (quiet_saveMenuItem _).commitsOnce_bind fun _ => commitsOnce_commit _

end CommandM

open CommandM

theorem Command.work_commitsOnce (policy : RetryPolicy) (command : Command) :
    (command.work policy).run.CommitsOnce := by
  cases command with
  | createMenuItem id name amount =>
    exact (quiet_createMenuItem id name amount).commitsOnce_bind (commitsOnce_commitMenuItem policy)
  | markSoldOut id | markAvailable id =>
    exact (quiet_loadMenuItem id).commitsOnce_bind fun _ => commitsOnce_commitMenuItem policy _
  | placeOrder id number lines =>
    exact (quiet_place id number lines).commitsOnce_bind (commitsOnce_commitOrder policy)
  | markItemReady id itemId | cancelItem id itemId | completeOrder id | cancelOrder id =>
    exact (quiet_loadOrder id).commitsOnce_bind fun _ =>
      (quiet_check _ _).commitsOnce_bind (commitsOnce_commitOrder policy)

/-- Only behind work that failed can closing a unit be refused. -/
theorem Program.quiet_close (failed : Bool) :
    (Program.close failed).Quiet fun ended => failed = false → ended = .ok () := by
  have hexit : (do Program.request (.unit .exit); return .ok () : Program (Within Unit)).Quiet
      fun ended => failed = false → ended = .ok () :=
    (quiet_bind _ _).mpr ((quiet_request (by simp)).mono fun _ _ _ => rfl)
  cases failed with
  | false => exact hexit
  | true =>
    refine (quiet_bind (Program.request (.unit .isOpen)) _).mpr ((quiet_request (by simp)).mono ?_)
    intro isOpen _
    cases isOpen with
    | false => exact hexit
    | true =>
      refine (quiet_bind _ _).mpr ((quiet_request (by simp)).mono fun reply _ => ?_)
      cases reply with
      | error e => exact fun h => by cases h
      | ok _ => exact hexit

theorem Program.CommitsOnce.inScope {ε α : Type} (refusal : UnitOfWorkError → ε)
    {work : Program (Except ε α)} (h : work.CommitsOnce) :
    (Program.inScope refusal work).CommitsOnce := by
  refine (quiet_request (by simp)).bind_commitsOnce fun reply _ => ?_
  cases reply with
  | error e => exact .refused _
  | ok _ =>
    refine h.bind fun result => (quiet_bind _ _).mpr ((quiet_close _).mono fun ended hended => ?_)
    cases result with
    | error e => cases ended <;> rfl
    | ok a =>
      rw [hended rfl]
      rfl

/-- Every command is accepted exactly if its only commit succeeds. -/
theorem Command.handle_commitsOnce (policy : RetryPolicy) (command : Command) :
    (command.handle policy).CommitsOnce :=
  Program.CommitsOnce.inScope CommandError.unitOfWork (command.work_commitsOnce policy)

/-! ## Commits of a run -/

/-- How far a command has got, and whether it has committed. -/
inductive Running.Progress (r : Running) (committed : Prop) : Prop where
  | before (rest : r.rest.CommitsOnce) (not_yet : ¬ committed)
  | behind {accepted : Bool} (rest : r.rest.Quiet fun result => result.isOk = accepted)
      (committed_iff : committed ↔ accepted = true)

namespace Running

variable {r : Running} {b : Backend} {committed : Prop}

/-- The next request of the command is a commit that succeeds. -/
def CommitsNow (r : Running) (s : Stores) : Prop :=
  r.request? = some (.unit .commit) ∧ ∃ o, r.unit = some o ∧ o.conflict? s = none

theorem isOk_commit (b : Backend) (u : UnitOfWork) :
    ((Request.unit .commit).answer b u).1.isOk = true ↔
      ∃ o, u = some o ∧ o.conflict? b.stores = none := by
  change (perform b.stores u .commit).1.isOk = true ↔ _
  cases u with
  | none => exact ⟨fun h => (by cases h), fun ⟨_, h, _⟩ => (by cases h)⟩
  | some o =>
    cases hc : o.conflict? b.stores with
    | none =>
      simp only [perform, hc]
      exact ⟨fun _ => ⟨o, rfl, hc⟩, fun _ => rfl⟩
    | some e =>
      simp only [perform, hc]
      refine ⟨fun h => (by cases h), fun ⟨o', ho, hnone⟩ => ?_⟩
      rw [← Option.some.inj ho, hc] at hnone
      cases hnone

/-- A command commits at most once, and it is as far as before unless it has asked to commit. -/
theorem Progress.turn (h : r.Progress committed) :
    (r.CommitsNow b.stores → ¬ committed) ∧
      (r.turn b).2.Progress (committed ∨ r.CommitsNow b.stores) := by
  obtain ⟨policy, command, rest, unit⟩ := r
  cases h with
  | before rest not_yet =>
    refine ⟨fun _ => not_yet, ?_⟩
    cases rest with
    | refused e => exact .before (.refused e) (not_or.mpr ⟨not_yet, fun hnow => (by cases hnow.1)⟩)
    | ask other rest =>
      refine .before (rest _) (not_or.mpr ⟨not_yet, fun hnow => other ?_⟩)
      exact Option.some.inj hnow.1
    | commit rest =>
      refine .behind (rest _) (Iff.trans ?_ (isOk_commit b unit).symm)
      exact ⟨fun h => (h.resolve_left not_yet).2, fun h => .inr ⟨rfl, h⟩⟩
  | behind quiet committed_iff =>
    cases rest with
    | done result =>
      have hnow : ¬ CommitsNow ⟨policy, command, .done result, unit⟩ b.stores :=
        fun hnow => (by cases hnow.1)
      exact ⟨fun h => absurd h hnow, .behind quiet (by rw [or_iff_left hnow, committed_iff])⟩
    | ask request next =>
      have hnow : ¬ CommitsNow ⟨policy, command, .ask request next, unit⟩ b.stores :=
        fun hnow => quiet.1 (Option.some.inj hnow.1)
      exact ⟨fun h => absurd h hnow, .behind (quiet.2 _) (by rw [or_iff_left hnow, committed_iff])⟩

/-- A command that has ended was accepted exactly if it has committed. -/
theorem Progress.committed_iff {result : Except CommandError Nat} (h : r.Progress committed)
    (hresult : r.result? = some result) : committed ↔ result.isOk = true := by
  have hrest := rest_of_result? hresult
  cases h with
  | before rest not_yet =>
    rw [hrest] at rest
    cases rest with
    | refused e => exact ⟨fun h => absurd h not_yet, fun h => (by cases h)⟩
  | behind quiet committed_iff =>
    rw [hrest] at quiet
    rw [committed_iff, ← quiet]

end Running

namespace Traffic

variable {w : Traffic} {moves : List Move} {i k : Nat}

/-- The commits that succeed by the moves before `i`: the number of the move, and of the command. -/
def successes (w : Traffic) (moves : List Move) : Nat → List (Nat × Nat)
  | 0 => []
  | i + 1 => w.successes moves i ++
    match moves[i]? with
    | some (.turn k) => if (w.moment moves i).commits k then [(i, k)] else []
    | _ => []

theorem successes_turn (hmove : moves[i]? = some (.turn k)) : w.successes moves (i + 1) =
    w.successes moves i ++ if (w.moment moves i).commits k then [(i, k)] else [] := by
  rw [successes, hmove]

theorem successes_of_ne_turn (h : ∀ k, moves[i]? ≠ some (.turn k)) :
    w.successes moves (i + 1) = w.successes moves i := by
  rw [successes]
  split
  · rename_i k hmove
    exact absurd hmove (h k)
  · exact List.append_nil _

/-- The commands that have committed before the move `i`, in the order of their commits. -/
def committers (w : Traffic) (moves : List Move) (i : Nat) : List Nat :=
  (w.successes moves i).map Prod.snd

/-- No command has committed twice, and each is as far as its commit lets it be. -/
structure CommitOnce (w : Traffic) (moves : List Move) (i : Nat) : Prop where
  nodup : (w.committers moves i).Nodup
  lt : ∀ k ∈ w.committers moves i, k < (w.moment moves i).running.length
  progress {k : Nat} {r : Running} : (w.moment moves i).running[k]? = some r →
    r.Progress (k ∈ w.committers moves i)

theorem commits_iff {r : Running} (hr : w.running[k]? = some r) :
    w.commits k = true ↔ r.CommitsNow w.backend.stores := by
  rw [commits_eq_true_iff]
  constructor
  · rintro ⟨r', o, hr', hrequest, hunit, hc⟩
    obtain rfl := Option.some.inj (hr.symm.trans hr')
    exact ⟨hrequest, o, hunit, hc⟩
  · rintro ⟨hrequest, o, hunit, hc⟩
    exact ⟨r, o, hr, hrequest, hunit, hc⟩

/-- A move that lets no command go on. -/
theorem CommitOnce.of_same (h : w.CommitOnce moves i)
    (hsame : w.successes moves (i + 1) = w.successes moves i)
    (hrunning : (w.moment moves (i + 1)).running = (w.moment moves i).running) :
    w.CommitOnce moves (i + 1) := by
  have hcommitters : w.committers moves (i + 1) = w.committers moves i :=
    congrArg (List.map Prod.snd) hsame
  refine ⟨?_, ?_, ?_⟩
  · rw [hcommitters]
    exact h.nodup
  · rw [hcommitters, hrunning]
    exact h.lt
  · rw [hcommitters, hrunning]
    exact h.progress

theorem committers_turn (hmove : moves[i]? = some (.turn k)) : w.committers moves (i + 1) =
    w.committers moves i ++ if (w.moment moves i).commits k then [k] else [] := by
  rw [committers, committers, successes_turn hmove, List.map_append]
  split <;> rfl

theorem mem_committers_turn {other : Nat} (hmove : moves[i]? = some (.turn k)) :
    other ∈ w.committers moves (i + 1) ↔
      other ∈ w.committers moves i ∨ other = k ∧ (w.moment moves i).commits k = true := by
  rw [committers_turn hmove]
  split
  · rename_i hc
    simp [hc]
  · rename_i hc
    simp [hc]

theorem CommitOnce.turn {r : Running} (h : w.CommitOnce moves i)
    (hmove : moves[i]? = some (.turn k)) (hr : (w.moment moves i).running[k]? = some r) :
    w.CommitOnce moves (i + 1) := by
  obtain ⟨hnew, hprogress⟩ := (h.progress hr).turn (b := (w.moment moves i).backend)
  rw [← commits_iff hr] at hnew hprogress
  have hrunning : (w.moment moves (i + 1)).running =
      (w.moment moves i).running.set k (r.turn (w.moment moves i).backend).2 := by
    rw [moment_succ w hmove]
    simp only [Traffic.after, hr]
  have hk : k < (w.moment moves i).running.length := (List.getElem?_eq_some_iff.mp hr).1
  refine ⟨?_, fun other hother => ?_, fun {other r'} hr' => ?_⟩
  · rw [committers_turn hmove]
    split
    · rename_i hc
      refine List.nodup_append.mpr ⟨h.nodup, by simp, fun a ha b hb heq => hnew hc ?_⟩
      rw [← List.mem_singleton.mp hb, ← heq]
      exact ha
    · rw [List.append_nil]
      exact h.nodup
  · rw [hrunning, List.length_set]
    rcases (mem_committers_turn hmove).mp hother with hold | ⟨rfl, -⟩
    · exact h.lt other hold
    · exact hk
  · rw [hrunning] at hr'
    rw [mem_committers_turn hmove]
    by_cases hother : k = other
    · subst hother
      rw [List.getElem?_set_self hk, Option.some.injEq] at hr'
      rw [← hr', and_iff_right rfl]
      exact hprogress
    · rw [List.getElem?_set_ne hother] at hr'
      rw [or_iff_left fun hnow => hother hnow.1.symm]
      exact h.progress hr'

/-- A command that is accepted is new. -/
theorem CommitOnce.accept {policy : RetryPolicy} {command : Command} (h : w.CommitOnce moves i)
    (hmove : moves[i]? = some (.accept policy command)) : w.CommitOnce moves (i + 1) := by
  have hcommitters : w.committers moves (i + 1) = w.committers moves i := by
    refine congrArg (List.map Prod.snd) (successes_of_ne_turn fun k hk => ?_)
    rw [hmove] at hk
    cases hk
  have hrunning : (w.moment moves (i + 1)).running =
      (w.moment moves i).running ++ [.start policy command] := by
    rw [moment_succ w hmove]
    rfl
  refine ⟨?_, fun k hk => ?_, fun {k r} hr => ?_⟩
  · rw [hcommitters]
    exact h.nodup
  · rw [hcommitters] at hk
    rw [hrunning, List.length_append]
    exact Nat.lt_add_right _ (h.lt k hk)
  · rw [hrunning] at hr
    rw [hcommitters]
    rcases Nat.lt_or_ge k (w.moment moves i).running.length with hlt | hge
    · rw [List.getElem?_append_left hlt] at hr
      exact h.progress hr
    · rw [List.getElem?_append_right hge] at hr
      rw [List.mem_singleton.mp (List.mem_of_getElem? hr)]
      refine .before (command.handle_commitsOnce policy) fun hk => ?_
      exact Nat.not_lt_of_le hge (h.lt k hk)

theorem commitOnce (start : Backend) (moves : List Move) (i : Nat) :
    CommitOnce ⟨start, []⟩ moves i := by
  induction i with
  | zero =>
    refine ⟨List.nodup_nil, by simp [committers, successes], fun hr => ?_⟩
    simp [moment] at hr
  | succ i ih =>
    cases hmove : moves[i]? with
    | none =>
      have hi := List.getElem?_eq_none_iff.mp hmove
      refine ih.of_same (successes_of_ne_turn fun k => by simp [hmove]) ?_
      rw [moment_of_length_le _ hi, moment_of_length_le _ (Nat.le_succ_of_le hi)]
    | some move =>
      cases move with
      | accept policy command => exact ih.accept hmove
      | setClock t =>
        refine ih.of_same (successes_of_ne_turn fun k => by simp [hmove]) ?_
        rw [moment_succ _ hmove]
        rfl
      | turn k =>
        cases hr : (moment ⟨start, []⟩ moves i).running[k]? with
        | some r => exact ih.turn hmove hr
        | none =>
          refine ih.of_same ?_ ?_
          · rw [successes_turn hmove, commits, hr]
            exact List.append_nil _
          · rw [moment_succ _ hmove]
            simp only [Traffic.after, hr]

/-- A command that has ended was accepted exactly if it is among those that have committed. -/
theorem mem_committers_iff {start : Backend} {r : Running} {result : Except CommandError Nat}
    (hr : (run ⟨start, []⟩ moves).running[k]? = some r) (hresult : r.result? = some result) :
    k ∈ committers ⟨start, []⟩ moves moves.length ↔ result.isOk = true := by
  rw [← moment_of_length_le _ (Nat.le_refl moves.length)] at hr
  exact ((commitOnce start moves _).progress hr).committed_iff hresult

end Traffic

end TableService
