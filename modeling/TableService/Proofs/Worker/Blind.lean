import TableService.Proofs.Worker.Instants
import TableService.Worker.Scripted

/-!
# A worker that does not see how passes end

The loop goes by the clock. How a pass ends is noted in the metrics, and nothing else comes of it.

- `delayAt`: how long a script says that a pass takes.
- `timedJob`: passes of which nothing is known but that.
- `Worker.blinded`: a worker over a script with only that in view.
- `Worker.blinded_run`: a worker over a script does what it does with only that in view.
- `Worker.sameTimes_run`: so two workers that look the same keep the same times.
-/

namespace TableService

/-- How long the pass with this number takes. Behind the end of a script a pass takes no time. -/
def delayAt (script : List ScriptedPass) (k : Nat) : Nat :=
  (script[k]?.map (·.delay)).getD 0

theorem delayAt_drop (script : List ScriptedPass) (n k : Nat) :
    delayAt (script.drop n) k = delayAt script (n + k) := by
  rw [delayAt, List.getElem?_drop]
  rfl

/-- Passes with given delays, which never fail. -/
def timedJob (interval : Nat) (pos : 0 < interval) : Job (Nat → Nat) Nat Unit where
  interval
  interval_pos := pos
  fetch delays := ((false, [delays 0]), fun k => delays (k + 1))
  start delay delays := ((delay, ()), delays)
  finish _ delays := delays
  record _ delays := delays

/-- Whether the pass under way is going to fail is out of view. -/
def Phase.blinded {τ α : Type} : Phase τ α → Phase τ α
  | .passing due _ current rest => .passing due false current rest
  | phase => phase

namespace Worker

variable {interval : Nat} {pos : 0 < interval} {w v : Worker Script Nat Unit}

/-- Of the passes to come only the delays are in view. -/
def blinded (w : Worker Script Nat Unit) : Worker (Nat → Nat) Nat Unit where
  state := delayAt w.state.passes
  now := w.now
  phase := w.phase.blinded
  begun := w.begun
  ended := w.ended

theorem phase_blinded (w : Worker Script Nat Unit) : w.blinded.phase = w.phase.blinded := rfl

theorem due?_blinded (w : Worker Script Nat Unit) : w.blinded.due? = w.due? := by
  unfold due? blinded Phase.blinded
  cases w.phase <;> rfl

theorem isRunning_blinded (w : Worker Script Nat Unit) : w.blinded.isRunning = w.isRunning := by
  unfold isRunning blinded Phase.blinded
  cases w.phase <;> rfl

/-! ## Turns of the loop -/

/-- Tasks take the time they take, whatever is known of the passes to come. -/
theorem advance_timed (tasks : List Nat) (s : Script) (delays : Nat → Nat) :
    ∃ next, (scriptedJob interval pos).advance tasks s = (next, s) ∧
      (timedJob interval pos).advance tasks delays = (next, delays) := by
  induction tasks with
  | nil => exact ⟨none, rfl, rfl⟩
  | cons delay rest ih =>
    by_cases hzero : delay = 0
    · simp only [Job.advance, scriptedJob, timedJob, hzero, if_true]
      exact ih
    · simp only [Job.advance, scriptedJob, timedJob, hzero, if_false]
      exact ⟨_, rfl, rfl⟩

theorem drain_timed (tasks : List Nat) (s : Script) (delays : Nat → Nat) :
    ∃ time, (scriptedJob interval pos).drain tasks s = (time, s) ∧
      (timedJob interval pos).drain tasks delays = (time, delays) := by
  induction tasks with
  | nil => exact ⟨0, rfl, rfl⟩
  | cons delay rest ih =>
    obtain ⟨time, hs, hdelays⟩ := ih
    refine ⟨lasting delay + time, ?_, ?_⟩
    · show (lasting delay + (Job.drain _ rest s).1, (Job.drain _ rest s).2) = _
      rw [hs]
    · show (lasting delay + (Job.drain _ rest delays).1, (Job.drain _ rest delays).2) = _
      rw [hdelays]

theorem blinded_proceed (w : Worker Script Nat Unit) (t : Nat) (failed : Bool) (tasks : List Nat) :
    (w.proceed (scriptedJob interval pos) t failed tasks).blinded =
      w.blinded.proceed (timedJob interval pos) t false tasks := by
  obtain ⟨next, hs, hdelays⟩ :=
    @advance_timed interval pos tasks w.state (delayAt w.state.passes)
  show _ = ({ w.blinded with state := delayAt w.state.passes } : Worker _ Nat Unit).proceed _ t _ _
  simp only [proceed, hs, hdelays]
  rcases next with _ | ⟨delay, current, rest⟩ <;> rfl

/-- Behind the end of a script there is no task, which takes as long as one without delay. -/
theorem blinded_begin (w : Worker Script Nat Unit) (t : Nat) :
    (({ w with
        begun := w.begun + 1
        state := ((scriptedJob interval pos).fetch w.state).2 } : Worker Script Nat Unit).proceed
          (scriptedJob interval pos) t ((scriptedJob interval pos).fetch w.state).1.1
          ((scriptedJob interval pos).fetch w.state).1.2).blinded =
      ({ w.blinded with
          begun := w.begun + 1
          state := fun k => w.blinded.state (k + 1) } : Worker (Nat → Nat) Nat Unit).proceed
        (timedJob interval pos) t false [w.blinded.state 0] := by
  rw [blinded_proceed]
  obtain ⟨⟨passes, metrics⟩, now, phase, begun, ended⟩ := w
  cases passes with
  | nil => rfl
  | cons p rest => rfl

/-- So the loop does in view what it does out of view. -/
theorem blinded_tick (w : Worker Script Nat Unit) (t : Nat) :
    (w.tick (scriptedJob interval pos) t).blinded =
      w.blinded.tick (timedJob interval pos) t := by
  cases hphase : w.phase with
  | stopped => simp only [tick, phase_blinded, hphase, Phase.blinded]
  | passing due failed current rest =>
    simp only [tick, phase_blinded, hphase, Phase.blinded]
    exact blinded_proceed _ t failed rest
  | starting | called | resting _ =>
    simp only [tick, phase_blinded, hphase, Phase.blinded]
    exact blinded_begin w t

/-! ## Waiting -/

theorem waitUntil_of_due {σ τ α : Type} {job : Job σ τ α} {w : Worker σ τ α} {t deadline : Nat}
    (hdue : w.due? = some t) (hlt : t < deadline) :
    w.waitUntil job deadline = (w.tick job t).waitUntil job deadline := by
  rw [waitUntil]
  split
  · rename_i hnone
    rw [hnone] at hdue
    cases hdue
  · rename_i u hsome
    obtain rfl : u = t := Option.some.inj (hsome.symm.trans hdue)
    rw [if_pos hlt]

theorem waitUntil_of_free {σ τ α : Type} {job : Job σ τ α} {w : Worker σ τ α} {deadline : Nat}
    (hfree : ∀ t, w.due? = some t → deadline ≤ t) :
    w.waitUntil job deadline = { w with now := max w.now deadline } := by
  rw [waitUntil]
  split
  · rfl
  · rename_i t hsome
    rw [if_neg (Nat.not_lt.mpr (hfree t hsome))]

theorem blinded_waitUntil (w : Worker Script Nat Unit) (deadline : Nat) :
    (w.waitUntil (scriptedJob interval pos) deadline).blinded =
      w.blinded.waitUntil (timedJob interval pos) deadline := by
  fun_induction waitUntil w (scriptedJob interval pos) deadline with
  | case1 w hdue =>
    rw [← due?_blinded] at hdue
    rw [waitUntil_of_free fun t ht => by rw [hdue] at ht; cases ht]
    rfl
  | case2 w t hdue hlt ih =>
    rw [← due?_blinded] at hdue
    rw [ih, waitUntil_of_due hdue hlt, blinded_tick]
  | case3 w t hdue hge =>
    rw [← due?_blinded] at hdue
    rw [waitUntil_of_free fun u hu => by rw [hdue] at hu; cases hu; omega]
    rfl

theorem blinded_finishPass (w : Worker Script Nat Unit) :
    (w.finishPass (scriptedJob interval pos)).blinded =
      w.blinded.finishPass (timedJob interval pos) := by
  cases hphase : w.phase with
  | stopped | starting | resting _ =>
    simp only [finishPass, phase_blinded, hphase, Phase.blinded]
  | called =>
    -- a pass that has been called is fetched first, so the script is looked at here too
    simp only [finishPass, phase_blinded, hphase, Phase.blinded]
    obtain ⟨⟨passes, metrics⟩, now, phase, begun, ended⟩ := w
    cases passes with
    | nil => rfl
    | cons p rest => rfl
  | passing due failed current rest =>
    obtain ⟨time, hs, hdelays⟩ :=
      @drain_timed interval pos rest w.state (delayAt w.state.passes)
    have hfinish : (scriptedJob interval pos).finish current w.state = w.state := rfl
    have hblind : (timedJob interval pos).finish current w.blinded.state =
      delayAt w.state.passes := rfl
    simp only [finishPass, phase_blinded, hphase, Phase.blinded, hfinish, hblind, hs, hdelays]
    rfl

/-! ## Steps -/

theorem blinded_start (w : Worker Script Nat Unit) : w.start.blinded = w.blinded.start := by
  unfold start
  cases hphase : w.phase <;> simp only [blinded, hphase, Phase.blinded]

theorem blinded_after (w : Worker Script Nat Unit) (step : Step) :
    (w.after (scriptedJob interval pos) step).blinded =
      w.blinded.after (timedJob interval pos) step := by
  cases step with
  | start => exact blinded_start w
  | stop =>
    show ({ w.finishPass (scriptedJob interval pos) with phase := .stopped } :
      Worker Script Nat Unit).blinded = w.blinded.stop (timedJob interval pos)
    rw [stop, ← blinded_finishPass]
    rfl
  | sleep delay => exact blinded_waitUntil w _

theorem blinded_run (w : Worker Script Nat Unit) (steps : List Step) :
    (run (scriptedJob interval pos) w steps).blinded =
      run (timedJob interval pos) w.blinded steps := by
  induction steps generalizing w with
  | nil => rfl
  | cons step rest ih => rw [run_cons, run_cons, ih, blinded_after]

/-- What can be seen of a worker from outside. -/
structure SameTimes (w w' : Worker Script Nat Unit) : Prop where
  now : w.now = w'.now
  isRunning : w.isRunning = w'.isRunning
  begun : w.begun = w'.begun
  ended : w.ended = w'.ended

theorem sameTimes_of_blinded {w w' : Worker Script Nat Unit} (h : w.blinded = w'.blinded) :
    SameTimes w w' where
  now := by
    show w.blinded.now = w'.blinded.now
    rw [h]
  isRunning := by rw [← isRunning_blinded, h, isRunning_blinded]
  begun := by
    show w.blinded.begun = w'.blinded.begun
    rw [h]
  ended := by
    show w.blinded.ended = w'.blinded.ended
    rw [h]

/-- Workers that look the same go on to look the same. -/
theorem sameTimes_run {w w' : Worker Script Nat Unit} (h : w.blinded = w'.blinded)
    (steps : List Step) :
    SameTimes (run (scriptedJob interval pos) w steps) (run (scriptedJob interval pos) w' steps) :=
  sameTimes_of_blinded (by rw [blinded_run, blinded_run, h])

theorem elapses_blinded (h : Elapses (scriptedJob interval pos) w v) :
    Elapses (timedJob interval pos) w.blinded v.blinded := by
  cases h with
  | @time t later free =>
    refine .time later fun u hu => ?_
    rw [due?_blinded] at hu
    exact free u hu
  | turn due =>
    rw [blinded_tick]
    refine .turn ?_
    rw [due?_blinded, due]

end Worker

end TableService
