import TableService.Proofs.Command.Conduct

/-!
# Commands that take turns

- `Traffic`: the shared backend and the commands under way. A run is a list of moves: a command is
  accepted, the clock is set, or one command makes its next request.
- `Traffic.Lawful`: the invariant. What is committed and staged is by the law, and what is left of
  each command keeps the law.
- `Backend.Reachable`: what the backend can be after commands were at work on empty stores.
- `Backend.Reachable.settled`: then every committed aggregate is settled.
- `Backend.Reachable.execute`: commands that run alone are a case of commands that take turns.
-/

namespace TableService

variable {law : Law}

/-! ## A command under way -/

/-- A command under way: what is left of it, and its unit of work. -/
structure Running where
  policy : RetryPolicy
  command : Command
  rest : Program (Except CommandError Nat)
  unit : UnitOfWork := none

namespace Running

/-- A command that has made no request yet. -/
def start (policy : RetryPolicy) (command : Command) : Running where
  policy
  command
  rest := command.handle policy

/-- The next request of a command. One that has ended makes no request. -/
def turn (r : Running) (b : Backend) : Backend × Running :=
  match r.rest with
  | .done _ => (b, r)
  | .ask request next =>
    let (reply, b, unit) := request.answer b r.unit
    (b, { r with rest := next reply, unit })

/-- What is staged by a command is by the law, and what is left of the command keeps the law. -/
structure Lawful (law : Law) (r : Running) : Prop where
  rest : r.rest.Lawful law fun _ => True
  overlay (o : Overlay) : r.unit = some o → o.Lawful law

theorem lawful_start (hk : law.Kept) (policy : RetryPolicy) (command : Command) :
    (start policy command).Lawful law where
  rest := command.handle_lawful hk policy
  overlay _ h := by cases h

theorem Lawful.turn {r : Running} {b : Backend} (h : r.Lawful law) (hb : b.stores.Lawful law) :
    (r.turn b).1.stores.Lawful law ∧ (r.turn b).2.Lawful law := by
  obtain ⟨policy, command, rest, unit⟩ := r
  obtain ⟨hrest, hunit⟩ := h
  cases rest with
  | done a => exact ⟨hb, hrest, hunit⟩
  | ask request next =>
    cases request with
    | unit act =>
      obtain ⟨hs, ho, hreply⟩ := perform_lawful hb hunit hrest.1
      exact ⟨hs, hrest.2 _ hreply, ho⟩
    | now => exact ⟨hb, hrest.2 _ trivial, hunit⟩
    | nextId => exact ⟨hb, hrest.2 _ trivial, hunit⟩

end Running

/-! ## Any number of commands -/

/-- All commands that have been accepted, over the backend that they share. -/
structure Traffic where
  backend : Backend
  running : List Running := []

namespace Traffic

/-- What may happen next. Requests of different commands come in any order. -/
inductive Move where
  | accept (policy : RetryPolicy) (command : Command)
  | setClock (t : Instant)
  /-- The command with this number makes its next request. -/
  | turn (k : Nat)

/-- What a move does. A number that no command has does nothing. -/
def after (w : Traffic) : Move → Traffic
  | .accept policy command => { w with running := w.running ++ [.start policy command] }
  | .setClock t => { w with backend := { w.backend with clock := t } }
  | .turn k =>
    match w.running[k]? with
    | none => w
    | some r => { backend := (r.turn w.backend).1, running := w.running.set k (r.turn w.backend).2 }

/-- What the moves do, one after the other. -/
def run (w : Traffic) (moves : List Move) : Traffic :=
  moves.foldl after w

@[simp] theorem run_nil (w : Traffic) : w.run [] = w := rfl

@[simp] theorem run_cons (w : Traffic) (move : Move) (moves : List Move) :
    w.run (move :: moves) = (w.after move).run moves := rfl

theorem run_append (w : Traffic) (moves more : List Move) :
    w.run (moves ++ more) = (w.run moves).run more := List.foldl_append

/-- The invariant of commands that take turns. -/
structure Lawful (law : Law) (w : Traffic) : Prop where
  stores : w.backend.stores.Lawful law
  running : ∀ r ∈ w.running, r.Lawful law

theorem Lawful.after {w : Traffic} (h : w.Lawful law) (hk : law.Kept) (move : Move) :
    (w.after move).Lawful law := by
  cases move with
  | accept policy command =>
    refine ⟨h.stores, ?_⟩
    intro r hr
    rcases List.mem_append.mp hr with hr | hr
    · exact h.running r hr
    · rw [List.mem_singleton.mp hr]
      exact Running.lawful_start hk policy command
  | setClock t => exact ⟨h.stores, h.running⟩
  | turn k =>
    simp only [Traffic.after]
    split
    · exact h
    · rename_i r hr
      obtain ⟨hs, hr'⟩ := (h.running r (List.mem_of_getElem? hr)).turn h.stores
      refine ⟨hs, ?_⟩
      intro other hother
      rcases List.mem_or_eq_of_mem_set hother with hmem | rfl
      · exact h.running other hmem
      · exact hr'

theorem Lawful.run {w : Traffic} (h : w.Lawful law) (hk : law.Kept) (moves : List Move) :
    (w.run moves).Lawful law := by
  induction moves generalizing w with
  | nil => exact h
  | cons move rest ih => exact ih (h.after hk move)

/-- A command that makes all its requests in a row does what it does when it runs alone. -/
theorem exists_run_alone {w : Traffic} {k : Nat} {r : Running} (h : w.running[k]? = some r) :
    ∃ moves, (w.run moves).backend = (r.rest.run w.backend r.unit).2.1 := by
  obtain ⟨policy, command, rest, unit⟩ := r
  induction rest generalizing w unit with
  | done a => exact ⟨[], rfl⟩
  | ask request next ih =>
    -- one turn makes the first request, and the rest of the program is still in its place
    have hk : k < w.running.length := (List.getElem?_eq_some_iff.mp h).1
    have hnext : (w.after (.turn k)).running[k]? = some ⟨policy, command,
        next (request.answer w.backend unit).1, (request.answer w.backend unit).2.2⟩ := by
      simp only [Traffic.after, h, List.getElem?_set_self hk]
      rfl
    obtain ⟨moves, hmoves⟩ := ih _ _ hnext
    refine ⟨.turn k :: moves, ?_⟩
    rw [run_cons, hmoves]
    simp only [Traffic.after, h]
    rfl

end Traffic

/-! ## What can come of it -/

/-- What the backend can be after any number of commands were at work on empty stores, in any turns,
with any clock and any ids. -/
def Backend.Reachable (b : Backend) : Prop :=
  ∃ start : Backend, start.stores = {} ∧ ∃ moves, (Traffic.run ⟨start, []⟩ moves).backend = b

/-- The same of the stores alone. -/
def Stores.Reachable (s : Stores) : Prop :=
  ∃ b : Backend, b.Reachable ∧ b.stores = s

/-- Whatever holds of every aggregate that a command leaves behind holds of what is committed. -/
theorem Stores.Reachable.lawful {s : Stores} (h : s.Reachable) (hk : law.Kept) : s.Lawful law := by
  obtain ⟨b, ⟨start, hempty, moves, rfl⟩, rfl⟩ := h
  have hstart : Traffic.Lawful law ⟨start, []⟩ := by
    constructor
    · rw [hempty]
      exact Stores.lawful_empty
    · intro r hr
      cases hr
  exact (hstart.run hk moves).stores

theorem Stores.Reachable.settled {s : Stores} (h : s.Reachable) : s.Settled :=
  h.lawful Law.settled_kept

theorem Backend.reachable_of_empty {b : Backend} (h : b.stores = {}) : b.Reachable :=
  ⟨b, h, [], rfl⟩

/-- Commands that run alone, one after the other, are a case of commands that take turns. -/
theorem Backend.Reachable.execute {b : Backend} (h : b.Reachable) (policy : RetryPolicy)
    (command : Command) : (command.execute policy b).2.Reachable := by
  obtain ⟨start, hempty, moves, rfl⟩ := h
  have haccepted : ((Traffic.run ⟨start, []⟩ moves).after (.accept policy command)).running[
      (Traffic.run ⟨start, []⟩ moves).running.length]? = some (.start policy command) := by
    simp [Traffic.after]
  obtain ⟨turns, hturns⟩ := Traffic.exists_run_alone haccepted
  refine ⟨start, hempty, moves ++ .accept policy command :: turns, ?_⟩
  rw [Traffic.run_append, Traffic.run_cons, hturns]
  rfl

end TableService
