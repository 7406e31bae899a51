/-!
# A background worker in virtual time

- `lasting`: how long a wait lasts, which is thirty years at most.
- `Job`: work done in passes. A pass fetches tasks and does them one after the other; a task may
  take time between its start and its finish.
- `Worker`: a loop of passes beside a main line of steps, with a rest of one interval between two
  passes. Time moves only while the main line waits.
- `Worker.start`, `stop`, `sleep`: the steps of the main line.
- `Worker.finishPass`, `occupied`: what the main line waits for when it has work of the same kind.

A loop that has been started first runs when the main line waits. Stopping interrupts a rest but not
a pass. When the main line and the loop can go on at the same time, the main line is first.
-/

namespace TableService

/-- Thirty years of 365 days, in milliseconds. -/
abbrev longestWait : Nat := 946080000000

/-- A wait that is asked to be longer than the longest one ends when that does. -/
def lasting (ms : Nat) : Nat := min ms longestWait

theorem lasting_pos {ms : Nat} : 0 < lasting ms ↔ 0 < ms := by
  unfold lasting longestWait; omega

/-- Passes over a state `σ`. A task of type `τ` that has been started leaves a value of type `α`,
with which it is finished. -/
structure Job (σ τ α : Type) where
  interval : Nat
  interval_pos : 0 < interval
  /-- Whether the pass is going to fail, and its tasks. -/
  fetch : σ → (Bool × List τ) × σ
  /-- Starts a task, and asks for the wait before its finish. -/
  start : τ → σ → (Nat × α) × σ
  finish : α → σ → σ
  /-- What is noted when a pass is over. -/
  record : (failed : Bool) → σ → σ

namespace Job

variable {σ τ α : Type}

/-- Does tasks up to the first one that takes time. Gives the time it takes, what is left of it and
the tasks behind it. -/
def advance (job : Job σ τ α) : List τ → σ → Option (Nat × α × List τ) × σ
  | [], s => (none, s)
  | t :: rest, s =>
    let ((delay, a), s) := job.start t s
    if delay = 0 then job.advance rest (job.finish a s) else (some (lasting delay, a, rest), s)

/-- Does all tasks. Gives the time they take. -/
def drain (job : Job σ τ α) : List τ → σ → Nat × σ
  | [], s => (0, s)
  | t :: rest, s =>
    let ((delay, a), s) := job.start t s
    let (more, s) := job.drain rest (job.finish a s)
    (lasting delay + more, s)

theorem pos_of_advance {job : Job σ τ α} {tasks : List τ} {s s' : σ} {delay : Nat} {a : α}
    {rest : List τ} (h : job.advance tasks s = (some (delay, a, rest), s')) : 0 < delay := by
  induction tasks generalizing s with
  | nil => simp [advance] at h
  | cons t more ih =>
    simp only [advance] at h
    split at h
    · exact ih h
    · next hd =>
      simp only [Prod.mk.injEq, Option.some.injEq] at h
      have := lasting_pos.2 (Nat.pos_of_ne_zero hd)
      omega

end Job

/-- Where the loop stands. -/
inductive Phase (τ α : Type) where
  | stopped
  /-- Started, but the loop has not run yet. -/
  | starting
  /-- The next pass can begin, and stopping does not prevent it. -/
  | called
  /-- In a task of a pass until `due`, with `rest` still to do. -/
  | passing (due : Nat) (failed : Bool) (current : α) (rest : List τ)
  /-- Between two passes until `due`. -/
  | resting (due : Nat)

/-- The loop and its state, with the time of the main line and the numbers of passes that have begun
and ended. -/
structure Worker (σ τ α : Type) where
  state : σ
  now : Nat := 0
  phase : Phase τ α := .stopped
  begun : Nat := 0
  ended : Nat := 0

namespace Worker

variable {σ τ α : Type}

/-- Whether the loop has been started and not been stopped since. -/
def isRunning (w : Worker σ τ α) : Bool :=
  match w.phase with
  | .stopped => false
  | _ => true

/-- When the loop goes on. -/
def due? (w : Worker σ τ α) : Option Nat :=
  match w.phase with
  | .stopped => none
  | .starting | .called => some w.now
  | .passing due .. | .resting due => some (max w.now due)

/-- A pass is over at time `t`. -/
def conclude (w : Worker σ τ α) (job : Job σ τ α) (t : Nat) (failed : Bool) : Worker σ τ α :=
  { w with
    now := t, phase := .resting (t + lasting job.interval), ended := w.ended + 1
    state := job.record failed w.state }

/-- Goes on with the tasks of a pass at time `t`. -/
def proceed (w : Worker σ τ α) (job : Job σ τ α) (t : Nat) (failed : Bool) (tasks : List τ) :
    Worker σ τ α :=
  match job.advance tasks w.state with
  | (none, state) => { w with state }.conclude job t failed
  | (some (delay, current, rest), state) =>
    { w with now := t, phase := .passing (t + delay) failed current rest, state }

/-- Lets the loop go on at time `t`. -/
def tick (w : Worker σ τ α) (job : Job σ τ α) (t : Nat) : Worker σ τ α :=
  match w.phase with
  | .stopped => w
  | .passing _ failed current rest =>
    { w with state := job.finish current w.state }.proceed job t failed rest
  | .starting | .called | .resting _ =>
    let ((failed, tasks), state) := job.fetch w.state
    { w with begun := w.begun + 1, state }.proceed job t failed tasks

/-- After the loop has gone on, it is next due at a later time. -/
theorem lt_due_proceed {w : Worker σ τ α} {job : Job σ τ α} {t u : Nat} {failed : Bool}
    {tasks : List τ} (h : (w.proceed job t failed tasks).due? = some u) : t < u := by
  have hi := lasting_pos.2 job.interval_pos
  unfold proceed at h
  split at h
  · simp [conclude, due?] at h; omega
  · next hadv =>
    have := Job.pos_of_advance hadv
    simp [due?] at h; omega

theorem lt_due_tick {w : Worker σ τ α} {job : Job σ τ α} {t u : Nat} (hw : w.due?.isSome)
    (h : (w.tick job t).due? = some u) : t < u := by
  unfold tick at h
  split at h
  · next hp => simp [due?, hp] at hw
  all_goals exact lt_due_proceed h

/-- The main line waits until `deadline`, and the loop goes on whenever it is due before. -/
def waitUntil (w : Worker σ τ α) (job : Job σ τ α) (deadline : Nat) : Worker σ τ α :=
  match _h : w.due? with
  | none => { w with now := max w.now deadline }
  | some t =>
    if t < deadline then (w.tick job t).waitUntil job deadline
    else { w with now := max w.now deadline }
termination_by deadline - w.due?.getD deadline
decreasing_by
  cases hd : (w.tick job t).due? with
  | none => simp [_h]; omega
  | some u =>
    have := lt_due_tick (by simp [_h]) hd
    simp [_h]; omega

/-- The main line waits for the end of a pass that is under way or called. -/
def finishPass (w : Worker σ τ α) (job : Job σ τ α) : Worker σ τ α :=
  match w.phase with
  | .called =>
    let ((failed, tasks), state) := job.fetch w.state
    let (time, state) := job.drain tasks state
    { w with begun := w.begun + 1, state }.conclude job (w.now + time) failed
  | .passing due failed current rest =>
    let (time, state) := job.drain rest (job.finish current w.state)
    { w with state }.conclude job (max w.now due + time) failed
  | _ => w

/-! ## Steps of the main line -/

/-- Starts the loop. A loop that runs already is left alone. -/
def start (w : Worker σ τ α) : Worker σ τ α :=
  match w.phase with
  | .stopped => { w with phase := .starting }
  | _ => w

/-- Waits for a pass that is under way, and stops the loop behind it. -/
def stop (w : Worker σ τ α) (job : Job σ τ α) : Worker σ τ α :=
  { w.finishPass job with phase := .stopped }

/-- The main line has done a pass of its own, which took some time. A loop that became due meanwhile
has the next turn. -/
def occupied (w : Worker σ τ α) (time : Nat) : Worker σ τ α :=
  let now := w.now + time
  let phase :=
    match w.phase with
    | .starting => if 0 < time then .called else .starting
    | .resting due => if due < now then .called else .resting due
    | phase => phase
  { w with now, phase }

/-- The main line waits, and the loop goes on meanwhile. -/
def sleep (w : Worker σ τ α) (job : Job σ τ α) (delay : Nat) : Worker σ τ α :=
  w.waitUntil job (w.now + lasting delay)

end Worker

end TableService
