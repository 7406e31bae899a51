import Mathlib.Order.Monotone.Basic
import TableService.Proofs.Worker.Blind
import TableService.Proofs.Worker.Lifecycle

/-!
# When the passes of a worker take place

- `Timetable`: from one start to the next stop it is settled when each pass begins and when it is
  over. The first one begins at once, and each of the others one rest behind the one before it.
- `Worker.OnTime`: a worker in one of its phases, with the times that the timetable gives.
- `Worker.OnTime.elapses`: nothing that happens while the main line waits is off these times.
- `Worker.Keeps`: the passes that have begun, and those that are over, are those whose time has
  come.
- `Worker.schedule_blind`: a worker keeps its timetable at every instant, and how its passes end
  makes no difference to that.
-/

namespace TableService

/-- When the main line has started a worker, how long each pass takes from then on, and how long the
worker is asked to rest behind a pass. -/
structure Timetable where
  first : Nat
  delay : Nat → Nat
  interval : Nat
  interval_pos : 0 < interval

namespace Timetable

variable (T : Timetable)

/-- When the pass with this number begins. -/
def begins : Nat → Nat
  | 0 => T.first
  | n + 1 => begins n + lasting (T.delay n) + lasting T.interval

/-- When the pass with this number is over. -/
def ends (n : Nat) : Nat := T.begins n + lasting (T.delay n)

/-- Passes that take as long as the timetable says. -/
def job : Job (Nat → Nat) Nat Unit := timedJob T.interval T.interval_pos

theorem begins_succ (n : Nat) : T.begins (n + 1) = T.ends n + lasting T.interval := rfl

theorem begins_le_ends (n : Nat) : T.begins n ≤ T.ends n := Nat.le_add_right ..

theorem ends_le_begins (n : Nat) : T.ends n ≤ T.begins (n + 1) := Nat.le_add_right ..

theorem begins_mono : Monotone T.begins :=
  monotone_nat_of_le_succ fun n => (T.begins_le_ends n).trans (T.ends_le_begins n)

theorem ends_mono : Monotone T.ends :=
  monotone_nat_of_le_succ fun n => (T.ends_le_begins n).trans (T.begins_le_ends (n + 1))

end Timetable

/-- The first `n` of these times have come, and no other has gone by. -/
def TimesUp (times : Nat → Nat) (now n : Nat) : Prop :=
  ∀ k, (k < n → times k ≤ now) ∧ (n ≤ k → now ≤ times k)

theorem timesUp_zero {times : Nat → Nat} {now : Nat} (hmono : Monotone times)
    (hnext : now ≤ times 0) : TimesUp times now 0 := by
  intro k
  exact ⟨nofun, fun hk => hnext.trans (hmono hk)⟩

theorem timesUp_succ {times : Nat → Nat} {now n : Nat} (hmono : Monotone times)
    (hlast : times n ≤ now) (hnext : now ≤ times (n + 1)) : TimesUp times now (n + 1) := by
  intro k
  exact ⟨fun hk => (hmono (Nat.le_of_lt_succ hk)).trans hlast, fun hk => hnext.trans (hmono hk)⟩

namespace Worker

variable {T : Timetable} {done : Nat}

/-! ## On time -/

/-- A worker that had begun `done` passes when it was started. -/
inductive OnTime (T : Timetable) (done : Nat) (w : Worker (Nat → Nat) Nat Unit) : Prop where
  | starting (phase : w.phase = .starting) (now : w.now = T.begins 0) (begun : w.begun = done)
      (ended : w.ended = done) (delays : ∀ k, w.state k = T.delay k)
  | passing (n : Nat) (phase : w.phase = .passing (T.ends n) false () [])
      (since : T.begins n ≤ w.now) (before : w.now ≤ T.ends n) (begun : w.begun = done + n + 1)
      (ended : w.ended = done + n) (delays : ∀ k, w.state k = T.delay (n + 1 + k))
  | resting (n : Nat) (phase : w.phase = .resting (T.begins (n + 1))) (since : T.ends n ≤ w.now)
      (before : w.now ≤ T.begins (n + 1)) (begun : w.begun = done + n + 1)
      (ended : w.ended = done + n + 1) (delays : ∀ k, w.state k = T.delay (n + 1 + k))

variable {w v : Worker (Nat → Nat) Nat Unit}

/-- A pass that begins at its time is over at once or under way until its time. -/
theorem onTime_begin {n : Nat} (begun : w.begun = done + n) (ended : w.ended = done + n)
    (delays : ∀ k, w.state k = T.delay (n + k)) :
    (({ w with begun := w.begun + 1, state := fun k => w.state (k + 1) } :
      Worker (Nat → Nat) Nat Unit).proceed T.job (T.begins n) false [w.state 0]).OnTime T done := by
  have hdelay : w.state 0 = T.delay n := delays 0
  have hdelays (k : Nat) : w.state (k + 1) = T.delay (n + 1 + k) := by
    rw [delays, Nat.add_assoc, Nat.add_comm 1 k]
  by_cases hzero : T.delay n = 0
  · -- a pass that takes no time is over within the turn in which it begins
    have hends : T.ends n = T.begins n := by rw [Timetable.ends, hzero]; rfl
    simp only [proceed, Job.advance, Timetable.job, timedJob, hdelay, hzero, if_true]
    refine .resting n ?_ ?_ ?_ ?_ ?_ hdelays
    · show Phase.resting (T.begins n + lasting T.interval) = _
      rw [T.begins_succ, hends]
    · exact hends.le
    · exact hends ▸ T.ends_le_begins n
    · show w.begun + 1 = _
      rw [begun]
    · show w.ended + 1 = _
      rw [ended]
  · simp only [proceed, Job.advance, Timetable.job, timedJob, hdelay, hzero, if_false]
    refine .passing n rfl (le_refl _) (T.begins_le_ends n) ?_ ended hdelays
    show w.begun + 1 = _
    rw [begun]

/-- The turn of the loop when it is due. -/
theorem OnTime.turn (h : w.OnTime T done) {t : Nat} (hdue : w.due? = some t) :
    (w.tick T.job t).OnTime T done := by
  cases h with
  | starting hphase hnow hbegun hended hdelays =>
    simp only [due?, hphase, Option.some.injEq] at hdue
    obtain rfl : t = T.begins 0 := hdue.symm.trans hnow
    simp only [tick, hphase]
    refine onTime_begin hbegun hended fun k => ?_
    rw [hdelays, Nat.zero_add]
  | passing n hphase _ hbefore hbegun hended hdelays =>
    simp only [due?, hphase, Option.some.injEq, Nat.max_eq_right hbefore] at hdue
    subst hdue
    simp only [tick, hphase]
    refine .resting n rfl (le_refl _) (T.ends_le_begins n) hbegun ?_ hdelays
    show w.ended + 1 = _
    rw [hended]
  | resting n hphase _ hbefore hbegun hended hdelays =>
    simp only [due?, hphase, Option.some.injEq, Nat.max_eq_right hbefore] at hdue
    subst hdue
    simp only [tick, hphase]
    refine onTime_begin ?_ ?_ hdelays
    · rw [hbegun, Nat.add_assoc]
    · rw [hended, Nat.add_assoc]

/-- Nothing that is due is passed by. -/
theorem OnTime.elapses (h : w.OnTime T done) (he : Elapses T.job w v) : v.OnTime T done := by
  cases he with
  | turn hdue => exact h.turn hdue
  | @time t later free =>
    cases h with
    | starting hphase hnow hbegun hended hdelays =>
      have hstays : t ≤ w.now := free w.now (by simp only [due?, hphase])
      exact .starting hphase (hnow ▸ Nat.le_antisymm hstays later) hbegun hended hdelays
    | passing n hphase hsince hbefore hbegun hended hdelays =>
      have hdue : w.due? = some (T.ends n) := by simp only [due?, hphase, Nat.max_eq_right hbefore]
      exact .passing n hphase (hsince.trans later) (free _ hdue) hbegun hended hdelays
    | resting n hphase hsince hbefore hbegun hended hdelays =>
      have hdue : w.due? = some (T.begins (n + 1)) := by
        simp only [due?, hphase, Nat.max_eq_right hbefore]
      exact .resting n hphase (hsince.trans later) (free _ hdue) hbegun hended hdelays

theorem OnTime.isRunning (h : w.OnTime T done) : w.isRunning = true := by
  cases h with
  | starting hphase | passing _ hphase | resting _ hphase => simp only [Worker.isRunning, hphase]

/-- A stop returns when the pass that is under way is over, and otherwise at once. -/
theorem OnTime.now_stop (h : w.OnTime T done) :
    (w.stop T.job).now = if w.ended < w.begun then T.ends (w.ended - done) else w.now := by
  cases h with
  | starting hphase _ hbegun hended _ =>
    rw [hbegun, hended, if_neg (Nat.lt_irrefl _)]
    simp only [stop, finishPass, hphase]
  | passing n hphase _ hbefore hbegun hended _ =>
    rw [if_pos (by omega), hended, Nat.add_sub_cancel_left]
    simp only [stop, finishPass, hphase]
    exact Nat.max_eq_right hbefore
  | resting n hphase _ _ hbegun hended _ =>
    rw [hbegun, hended, if_neg (Nat.lt_irrefl _)]
    simp only [stop, finishPass, hphase]

/-- The passes that have begun since the start, and those that are over, are those whose time has
come. -/
def Keeps {σ τ α : Type} (T : Timetable) (done : Nat) (w : Worker σ τ α) : Prop :=
  ∃ n m, w.begun = done + n ∧ w.ended = done + m ∧ TimesUp T.begins w.now n ∧ TimesUp T.ends w.now m

theorem OnTime.keeps (h : w.OnTime T done) : w.Keeps T done := by
  cases h with
  | starting _ hnow hbegun hended _ =>
    refine ⟨0, 0, hbegun, hended, timesUp_zero T.begins_mono hnow.le, ?_⟩
    exact timesUp_zero T.ends_mono (hnow.le.trans (T.begins_le_ends 0))
  | passing n _ hsince hbefore hbegun hended _ =>
    refine ⟨n + 1, n, hbegun, hended, ?_, ?_⟩
    · exact timesUp_succ T.begins_mono hsince (hbefore.trans (T.ends_le_begins n))
    · -- the pass that is over last, if any, is the one before the pass under way
      cases n with
      | zero => exact timesUp_zero T.ends_mono hbefore
      | succ n => exact timesUp_succ T.ends_mono ((T.ends_le_begins n).trans hsince) hbefore
  | resting n _ hsince hbefore hbegun hended _ =>
    refine ⟨n + 1, n + 1, hbegun, hended, ?_, ?_⟩
    · exact timesUp_succ T.begins_mono ((T.begins_le_ends n).trans hsince) hbefore
    · exact timesUp_succ T.ends_mono hsince (hbefore.trans (T.begins_le_ends (n + 1)))

/-! ## From a start to the next stop -/

variable {script : List ScriptedPass} {metrics : Option Metrics} {interval : Nat}
  {pos : 0 < interval} {u u' : Worker Script Nat Unit}

/-- The timetable of a worker over a script that is started now. -/
def timetable (u : Worker Script Nat Unit) (script : List ScriptedPass) (interval : Nat)
    (pos : 0 < interval) : Timetable where
  first := u.now
  delay k := delayAt script (u.begun + k)
  interval
  interval_pos := pos

theorem onTime_start (hstopped : u.isRunning = false) (hbalanced : u.Balanced)
    (hplays : Plays script metrics u) :
    u.start.blinded.OnTime (u.timetable script interval pos) u.begun := by
  have hphase := isRunning_eq_false_iff.mp hstopped
  have hbalance := hbalanced.balance
  simp only [underWay, hphase, Nat.add_zero] at hbalance
  have hstart : u.start = { u with phase := .starting } := by simp only [start, hphase]
  rw [hstart]
  refine .starting rfl rfl rfl hbalance.symm fun k => ?_
  show delayAt u.state.passes k = delayAt script (u.begun + k)
  rw [hplays.passes, delayAt_drop]

/-- The induction is on what elapses. -/
theorem onTime_of_elapse (h : u.blinded.OnTime T done)
    (he : Elapse (scriptedJob T.interval T.interval_pos) u u') : u'.blinded.OnTime T done := by
  induction he with
  | refl => exact h
  | tail _ hlast ih => exact ih.elapses (elapses_blinded hlast)

theorem onTime_of_during (h : u.blinded.OnTime T done) {step : Step} (hstep : step ≠ .stop)
    (hd : During (scriptedJob T.interval T.interval_pos) u step u') :
    u'.blinded.OnTime T done := by
  cases hd with
  | started =>
    -- the worker runs already
    rw [start_of_isRunning (by rw [← isRunning_blinded, h.isRunning])]
    exact h
  | asleep hbefore _ => exact onTime_of_elapse h hbefore
  | finishing _ _ => exact absurd rfl hstep
  | stopped => exact absurd rfl hstep

theorem onTime_of_occurs (h : u.blinded.OnTime T done) {steps : List Step} (hsteps : .stop ∉ steps)
    (ho : Occurs (scriptedJob T.interval T.interval_pos) u steps u') :
    u'.blinded.OnTime T done := by
  induction ho with
  | begin => exact h
  | here hd =>
    exact onTime_of_during h (fun heq => hsteps (heq ▸ List.mem_cons_self)) hd
  | later _ ih =>
    refine ih (onTime_of_during h ?_ (.after ..)) ?_
    · exact fun heq => hsteps (heq ▸ List.mem_cons_self)
    · exact fun hmem => hsteps (List.mem_cons_of_mem _ hmem)

/-- What is known of a worker that is started now, with a script behind it and a timetable ahead, up
to a stop behind these steps. -/
structure Timely (u : Worker Script Nat Unit) (script : List ScriptedPass) (interval : Nat)
    (pos : 0 < interval) (steps : List Step) : Prop where
  /-- At every instant before the stop. -/
  keeps : ∀ v, Occurs (scriptedJob interval pos) u.start steps v →
    v.Keeps (u.timetable script interval pos) u.begun
  /-- During a pass the stop returns when that pass is over, and otherwise at once. -/
  now_stop : (run (scriptedJob interval pos) u.start (steps ++ [.stop])).now =
    if (run (scriptedJob interval pos) u.start steps).ended <
        (run (scriptedJob interval pos) u.start steps).begun then
      (u.timetable script interval pos).ends
        ((run (scriptedJob interval pos) u.start steps).ended - u.begun)
    else (run (scriptedJob interval pos) u.start steps).now
  /-- No pass begins while the stop waits. -/
  begun_stop : (run (scriptedJob interval pos) u.start (steps ++ [.stop])).begun =
    (run (scriptedJob interval pos) u.start steps).begun
  /-- When it returns, all are over. -/
  ended_stop : (run (scriptedJob interval pos) u.start (steps ++ [.stop])).ended =
    (run (scriptedJob interval pos) u.start steps).begun

theorem timely_of_not_isRunning (hstopped : u.isRunning = false) (hbalanced : u.Balanced)
    (hplays : Plays script metrics u) {steps : List Step} (hsteps : .stop ∉ steps) :
    u.Timely script interval pos steps := by
  have hstart : u.start.blinded.OnTime (u.timetable script interval pos) u.begun :=
    onTime_start hstopped hbalanced hplays
  have hlast := onTime_of_occurs hstart hsteps (.run u.start steps)
  have hbalance : (run (scriptedJob interval pos) u.start steps).Balanced :=
    (kept_balanced _).run ((kept_balanced (scriptedJob interval pos)).start hbalanced) steps
  have hbegun : (run (scriptedJob interval pos) u.start (steps ++ [.stop])).begun =
      (run (scriptedJob interval pos) u.start steps).begun := by
    rw [run_append]
    exact begun_finishPass hbalance.uncalled
  constructor
  case keeps => exact fun v ho => (onTime_of_occurs hstart hsteps ho).keeps
  case now_stop =>
    rw [run_append]
    exact (congrArg Worker.now (blinded_after _ .stop)).trans hlast.now_stop
  case begun_stop => exact hbegun
  case ended_stop =>
    rw [← hbegun, run_append]
    exact hbalance.begun_stop.symm

/-! ## Whatever the passes come to -/

/-- A worker over these passes, behind these steps. -/
def behind (interval : Nat) (pos : 0 < interval) (passes : List ScriptedPass)
    (metrics : Option Metrics) (steps : List Step) : Worker Script Nat Unit :=
  run (scriptedJob interval pos) (ofScript passes metrics) steps

/-- Two workers whose passes take the same time keep the same times, whatever the passes come to and
whether they are counted or not, and these are the times of a timetable. -/
theorem schedule_blind (interval : Nat) (pos : 0 < interval) {passes passes' : List ScriptedPass}
    (hsame : ∀ k, delayAt passes k = delayAt passes' k) (metrics metrics' : Option Metrics) :
    (∀ steps, SameTimes (behind interval pos passes metrics steps)
      (behind interval pos passes' metrics' steps)) ∧
    ∀ before steps, (behind interval pos passes metrics before).isRunning = false →
      .stop ∉ steps →
      (behind interval pos passes metrics before).Timely passes interval pos steps := by
  constructor
  · intro steps
    have hblinded : (ofScript passes metrics).blinded = (ofScript passes' metrics').blinded :=
      congrArg (fun delays => { state := delays : Worker (Nat → Nat) Nat Unit }) (funext hsame)
    exact sameTimes_run hblinded steps
  · intro before steps hstopped hsteps
    obtain ⟨hbalanced, hplays⟩ :=
      (kept_plays pos passes metrics).run (plays_ofScript passes metrics) before
    exact timely_of_not_isRunning hstopped hbalanced hplays hsteps

/-- A pass that takes a while and crashes, and one that finds nothing to do. -/
def crashing : List ScriptedPass := [⟨5, .crashed "boom"⟩, ⟨0, .processed 0⟩]

/-- A pass that takes as long and does its work. -/
def working : List ScriptedPass := [⟨5, .processed 3⟩]

/-- A start during whose first pass the worker is stopped, and a second start. -/
theorem crashing_schedule_blind :
    (∀ k, delayAt crashing k = delayAt working k) ∧
      (behind 10 (by decide) crashing (some {}) [.start, .sleep 3, .stop]).isRunning = false ∧
      .stop ∉ [Step.sleep 2, .sleep 20] ∧
      SameTimes (behind 10 (by decide) crashing (some {}) [.start, .sleep 3, .stop, .sleep 2])
        (behind 10 (by decide) working none [.start, .sleep 3, .stop, .sleep 2]) ∧
      (behind 10 (by decide) crashing (some {}) [.start, .sleep 3, .stop]).Timely
        crashing 10 (by decide) [.sleep 2, .sleep 20] := by
  have hsame : ∀ k, delayAt crashing k = delayAt working k := by
    intro k
    match k with
    | 0 => rfl
    | 1 => rfl
    | _ + 2 => rfl
  have hsteps : .stop ∉ [Step.sleep 2, .sleep 20] := by decide
  have hblind := schedule_blind 10 (by decide) hsame (some {}) none
  exact ⟨hsame, rfl, hsteps, hblind.1 _, hblind.2 _ _ rfl hsteps⟩

/-- A worker that is asked to rest for ten milliseconds more than thirty years. -/
def overlong : Worker Script Nat Unit :=
  behind 946080000010 (by decide) [] none [.start, .sleep 5, .sleep 946080000000]

/-- It does not rest as long as that: its passes take no time, and the second one has begun before
the time that was asked for has gone by. -/
theorem longest_rest_is_cut :
    overlong.now = 946080000005 ∧ overlong.begun = 2 ∧ overlong.ended = 2 ∧
      ¬ TimesUp (fun n => n * 946080000010) overlong.now overlong.begun := by
  have hnow : overlong.now = 946080000005 := by cbv
  have hbegun : overlong.begun = 2 := by cbv
  have hended : overlong.ended = 2 := by cbv
  refine ⟨hnow, hbegun, hended, ?_⟩
  rw [hnow, hbegun]
  intro h
  have hsecond : 1 * 946080000010 ≤ 946080000005 := (h 1).1 (by decide)
  omega

end Worker

end TableService
