import Mathlib.Logic.Relation
import TableService.Worker.Basic

/-!
# A worker at every instant

What the main line does with a worker is a list of steps. Between two steps the worker is only what
the last one has made of it, but inside a sleep, and while a stop waits for a pass, the loop goes
on.

- `Worker.Step`, `Worker.run`: what the main line does.
- `Worker.Elapses`: what happens while the main line waits: time passes, or the loop has a turn
  because it is due.
- `Worker.elapse_sleep`, `Worker.elapse_finishPass`: a sleep is made of these, and so is the wait
  for the end of a pass.
- `Worker.Occurs`: the worker at some instant of a run.
- `Worker.Kept.occurs`: what each of these keeps holds at every instant.

An instant inside one turn of the loop is none of these: a task that takes no time is started and
finished at once.
-/

namespace TableService

variable {σ τ α : Type} {job : Job σ τ α}

/-! ## Passes that are waited for -/

theorem Job.drain_of_advance_eq_none {tasks : List τ} {s s' : σ}
    (h : job.advance tasks s = (none, s')) : job.drain tasks s = (0, s') := by
  induction tasks generalizing s with
  | nil =>
    cases h
    rfl
  | cons t rest ih =>
    simp only [advance] at h
    split at h
    · rename_i hzero
      simp only [drain, hzero, ih h]
      rfl
    · cases h

/-- What is left of the time behind the first task that takes any. -/
theorem Job.drain_of_advance_eq_some {tasks rest : List τ} {s s' : σ} {delay : Nat} {a : α}
    (h : job.advance tasks s = (some (delay, a, rest), s')) :
    job.drain tasks s =
      (delay + (job.drain rest (job.finish a s')).1, (job.drain rest (job.finish a s')).2) := by
  induction tasks generalizing s with
  | nil => cases h
  | cons t more ih =>
    simp only [advance] at h
    split at h
    · rename_i hzero
      simp only [drain, hzero, ih h, lasting, Nat.zero_min, Nat.zero_add]
    · cases h
      rfl

/-- A task that takes time is followed by fewer tasks. -/
theorem Job.length_lt_of_advance {tasks rest : List τ} {s s' : σ} {delay : Nat} {a : α}
    (h : job.advance tasks s = (some (delay, a, rest), s')) : rest.length < tasks.length := by
  induction tasks generalizing s with
  | nil => cases h
  | cons t more ih =>
    simp only [advance] at h
    split at h
    · exact Nat.lt_succ_of_lt (ih h)
    · cases h
      exact Nat.lt_succ_self _

namespace Worker

variable {w : Worker σ τ α}

/-! ## What happens while the main line waits -/

/-- Time passes, as long as the loop is not due, or the loop goes on. -/
inductive Elapses (job : Job σ τ α) (w : Worker σ τ α) : Worker σ τ α → Prop where
  | time {t : Nat} (later : w.now ≤ t) (free : ∀ u, w.due? = some u → t ≤ u) :
      Elapses job w { w with now := t }
  | turn {t : Nat} (due : w.due? = some t) : Elapses job w (w.tick job t)

/-- Any number of these. -/
abbrev Elapse (job : Job σ τ α) : Worker σ τ α → Worker σ τ α → Prop :=
  Relation.ReflTransGen (Elapses job)

theorem now_le_due {t : Nat} (h : w.due? = some t) : w.now ≤ t := by
  unfold due? at h
  split at h
  · cases h
  · cases h
    exact Nat.le_refl _
  · cases h
    exact Nat.le_refl _
  · cases h
    exact Nat.le_max_left ..
  · cases h
    exact Nat.le_max_left ..

/-- The induction is on the turns of the loop until the deadline. -/
theorem elapse_waitUntil (w : Worker σ τ α) (deadline : Nat) :
    Elapse job w (w.waitUntil job deadline) := by
  fun_induction waitUntil w job deadline with
  | case1 w hdue =>
    refine .single (.time (Nat.le_max_left ..) fun u hu => ?_)
    rw [hdue] at hu
    cases hu
  | case2 w t hdue hlt ih => exact .head (.turn hdue) ih
  | case3 w t hdue hge =>
    refine .single (.time (Nat.le_max_left ..) fun u hu => ?_)
    rw [hdue] at hu
    cases hu
    have hnow := now_le_due hdue
    omega

theorem elapse_sleep (w : Worker σ τ α) (delay : Nat) : Elapse job w (w.sleep job delay) :=
  elapse_waitUntil w _

/-- All tasks of a pass are waited for, whether the loop has started them or not. -/
theorem finishPass_proceed (w : Worker σ τ α) (t : Nat) (failed : Bool) (tasks : List τ) :
    (w.proceed job t failed tasks).finishPass job =
      { w with state := (job.drain tasks w.state).2 }.conclude job
        (t + (job.drain tasks w.state).1) failed := by
  unfold proceed
  split
  · rename_i s heq
    rw [Job.drain_of_advance_eq_none heq]
    rfl
  · rename_i delay current rest s heq
    rw [Job.drain_of_advance_eq_some heq]
    have htime : max t (t + delay) = t + delay := by omega
    simp only [finishPass, conclude, htime, Nat.add_assoc]

/-- What is waited for is what the loop does in its turns. The induction is on the tasks. -/
theorem elapse_finishPass_proceed (w : Worker σ τ α) (t : Nat) (failed : Bool) (tasks : List τ) :
    Elapse job (w.proceed job t failed tasks) ((w.proceed job t failed tasks).finishPass job) := by
  induction hn : tasks.length using Nat.strongRecOn generalizing w t tasks with
  | ind n ih =>
    cases hadvance : job.advance tasks w.state with
    | mk next s =>
      rcases next with _ | ⟨delay, current, rest⟩
      · have hrests :
            (w.proceed job t failed tasks).finishPass job = w.proceed job t failed tasks := by
          simp only [proceed, hadvance]
          rfl
        rw [hrests]
      · have hlength := Job.length_lt_of_advance hadvance
        have hpasses : w.proceed job t failed tasks =
            { w with now := t, phase := .passing (t + delay) failed current rest, state := s } := by
          simp only [proceed, hadvance]
        have hfinish : (w.proceed job t failed tasks).finishPass job =
            (({ w with
                now := t, phase := .passing (t + delay) failed current rest
                state := job.finish current s } : Worker σ τ α).proceed job
              (max t (t + delay)) failed rest).finishPass job := by
          have htime : max t (t + delay) = t + delay := by omega
          rw [finishPass_proceed, finishPass_proceed, Job.drain_of_advance_eq_some hadvance, htime,
            Nat.add_assoc]
          rfl
        rw [hfinish, hpasses]
        refine .head (.turn rfl) ?_
        exact ih rest.length (by omega) _ _ _ rfl

/-- A stop waits for nothing but turns of the loop. -/
theorem elapse_finishPass (w : Worker σ τ α) : Elapse job w (w.finishPass job) := by
  cases hphase : w.phase with
  | stopped | starting | resting _ =>
    have hrests : w.finishPass job = w := by simp only [finishPass, hphase]
    rw [hrests]
  | called =>
    have hdue : w.due? = some w.now := by simp only [due?, hphase]
    refine .head (.turn hdue) ?_
    have hfinish : w.finishPass job = (w.tick job w.now).finishPass job := by
      simp only [tick, hphase, finishPass_proceed]
      simp only [finishPass, hphase]
    rw [hfinish]
    simp only [tick, hphase]
    exact elapse_finishPass_proceed ..
  | passing due failed current rest =>
    have hdue : w.due? = some (max w.now due) := by simp only [due?, hphase]
    refine .head (.turn hdue) ?_
    have hfinish : w.finishPass job = (w.tick job (max w.now due)).finishPass job := by
      simp only [tick, hphase, finishPass_proceed]
      simp only [finishPass, hphase]
    rw [hfinish]
    simp only [tick, hphase]
    exact elapse_finishPass_proceed ..

/-- How many passes have begun and are not over. -/
def underWay (w : Worker σ τ α) : Nat :=
  match w.phase with
  | .passing .. => 1
  | _ => 0

theorem underWay_finishPass (w : Worker σ τ α) : (w.finishPass job).underWay = 0 := by
  cases hphase : w.phase with
  | called | passing _ _ _ _ =>
    simp only [finishPass, hphase]
    rfl
  | stopped | starting | resting _ => simp only [finishPass, underWay, hphase]

/-! ## Steps of the main line -/

/-- What the main line may do. -/
inductive Step where
  | start
  | stop
  | sleep (delay : Nat)
deriving DecidableEq

/-- The worker behind a step. -/
def after (job : Job σ τ α) (w : Worker σ τ α) : Step → Worker σ τ α
  | .start => w.start
  | .stop => w.stop job
  | .sleep delay => w.sleep job delay

/-- The worker after one step after another. -/
def run (job : Job σ τ α) (w : Worker σ τ α) (steps : List Step) : Worker σ τ α :=
  steps.foldl (after job) w

@[simp] theorem run_nil (w : Worker σ τ α) : run job w [] = w := rfl

@[simp] theorem run_cons (w : Worker σ τ α) (step : Step) (steps : List Step) :
    run job w (step :: steps) = run job (after job w step) steps := rfl

theorem run_append (w : Worker σ τ α) (steps more : List Step) :
    run job w (steps ++ more) = run job (run job w steps) more :=
  List.foldl_append

/-- The worker at an instant of a step: inside a sleep, while a stop waits, or behind the step. -/
inductive During (job : Job σ τ α) (w : Worker σ τ α) : Step → Worker σ τ α → Prop where
  | started : During job w .start w.start
  | asleep {v : Worker σ τ α} {delay : Nat} (before : Elapse job w v)
      (behind : Elapse job v (w.sleep job delay)) :
      During job w (.sleep delay) v
  | finishing {v : Worker σ τ α} (before : Elapse job w v)
      (behind : Elapse job v (w.finishPass job)) : During job w .stop v
  | stopped : During job w .stop (w.stop job)

theorem During.after (w : Worker σ τ α) (step : Step) : During job w step (w.after job step) := by
  cases step with
  | start => exact .started
  | stop => exact .stopped
  | sleep delay => exact .asleep (elapse_sleep w delay) .refl

/-- The worker at an instant of a run. -/
inductive Occurs (job : Job σ τ α) : Worker σ τ α → List Step → Worker σ τ α → Prop where
  | begin {w : Worker σ τ α} {steps : List Step} : Occurs job w steps w
  | here {w v : Worker σ τ α} {step : Step} {rest : List Step} (during : During job w step v) :
      Occurs job w (step :: rest) v
  | later {w v : Worker σ τ α} {step : Step} {rest : List Step}
      (occurs : Occurs job (w.after job step) rest v) : Occurs job w (step :: rest) v

/-- What a worker is after a run, it is at its last instant. -/
theorem Occurs.run (w : Worker σ τ α) (steps : List Step) :
    Occurs job w steps (run job w steps) := by
  induction steps generalizing w with
  | nil => exact .begin
  | cons step rest ih => exact .later (ih _)

/-! ## What holds at every instant -/

/-- A fact that no step takes away, nor anything that happens while the main line waits. -/
structure Kept (job : Job σ τ α) (P : Worker σ τ α → Prop) : Prop where
  start {w : Worker σ τ α} : P w → P w.start
  elapses {w v : Worker σ τ α} : P w → Elapses job w v → P v
  /-- The loop leaves only while no pass is under way. -/
  leaves {w : Worker σ τ α} : P w → w.underWay = 0 → P { w with phase := .stopped }

namespace Kept

variable {P : Worker σ τ α → Prop} {v : Worker σ τ α}

theorem elapse (h : Kept job P) (hw : P w) (he : Elapse job w v) : P v := by
  induction he with
  | refl => exact hw
  | tail _ hlast ih => exact h.elapses ih hlast

theorem during (h : Kept job P) (hw : P w) {step : Step} (hd : During job w step v) : P v := by
  cases hd with
  | started => exact h.start hw
  | asleep before _ => exact h.elapse hw before
  | finishing before _ => exact h.elapse hw before
  | stopped => exact h.leaves (h.elapse hw (elapse_finishPass w)) (underWay_finishPass w)

theorem occurs (h : Kept job P) (hw : P w) {steps : List Step} (ho : Occurs job w steps v) :
    P v := by
  induction ho with
  | begin => exact hw
  | here hd => exact h.during hw hd
  | later _ ih => exact ih (h.during hw (.after ..))

theorem run (h : Kept job P) (hw : P w) (steps : List Step) : P (run job w steps) :=
  h.occurs hw (.run w steps)

end Kept

end Worker

end TableService
