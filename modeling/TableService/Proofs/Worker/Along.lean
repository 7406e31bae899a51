import TableService.Worker.Basic

/-!
# Where the work of a worker leads to

- `Job.Along`: every part of a job takes a state only to states that a relation allows. Nothing is
  known of the order in which the parts are done.
- `Worker.along_finishPass`, `Worker.along_stop`, `Worker.along_sleep`: so does the worker, however
  long it is left alone and in whatever phase it is.
-/

namespace TableService

variable {σ τ α : Type} {R : σ → σ → Prop} {job : Job σ τ α}

/-- What each part of a job does to the state is allowed, and so is any number of these. -/
structure Job.Along (R : σ → σ → Prop) (job : Job σ τ α) : Prop where
  refl (s : σ) : R s s
  trans {a b c : σ} : R a b → R b c → R a c
  fetch (s : σ) : R s (job.fetch s).2
  start (t : τ) (s : σ) : R s (job.start t s).2
  finish (a : α) (s : σ) : R s (job.finish a s)
  record (failed : Bool) (s : σ) : R s (job.record failed s)

namespace Job.Along

theorem advance (h : job.Along R) (tasks : List τ) (s : σ) : R s (job.advance tasks s).2 := by
  induction tasks generalizing s with
  | nil => exact h.refl s
  | cons t rest ih =>
    simp only [Job.advance]
    split
    · exact h.trans (h.start t s) (h.trans (h.finish _ _) (ih _))
    · exact h.start t s

theorem drain (h : job.Along R) (tasks : List τ) (s : σ) : R s (job.drain tasks s).2 := by
  induction tasks generalizing s with
  | nil => exact h.refl s
  | cons t rest ih => exact h.trans (h.start t s) (h.trans (h.finish _ _) (ih _))

end Job.Along

namespace Worker

theorem along_proceed {s : σ} {w : Worker σ τ α} (h : job.Along R) (hw : R s w.state) (t : Nat)
    (failed : Bool) (tasks : List τ) : R s (w.proceed job t failed tasks).state := by
  have hadvance := h.trans hw (h.advance tasks w.state)
  unfold proceed
  split
  · rename_i state heq
    rw [heq] at hadvance
    exact h.trans hadvance (h.record failed state)
  · rename_i heq
    rw [heq] at hadvance
    exact hadvance

/-- The loop goes on once. -/
theorem along_tick (h : job.Along R) (w : Worker σ τ α) (t : Nat) :
    R w.state (w.tick job t).state := by
  unfold tick
  cases w.phase with
  | stopped => exact h.refl w.state
  | passing due failed current rest =>
    exact along_proceed h (h.finish current w.state) t failed rest
  | starting => exact along_proceed h (h.fetch w.state) t _ _
  | called => exact along_proceed h (h.fetch w.state) t _ _
  | resting due => exact along_proceed h (h.fetch w.state) t _ _

/-- The induction is on the turns of the loop until the deadline. -/
theorem along_waitUntil (h : job.Along R) (w : Worker σ τ α) (deadline : Nat) :
    R w.state (w.waitUntil job deadline).state := by
  fun_induction Worker.waitUntil w job deadline with
  | case1 w _ => exact h.refl w.state
  | case2 w t _ _ ih => exact h.trans (along_tick h w t) ih
  | case3 w t _ _ => exact h.refl w.state

theorem along_sleep (h : job.Along R) (w : Worker σ τ α) (delay : Nat) :
    R w.state (w.sleep job delay).state :=
  along_waitUntil h w _

theorem along_finishPass (h : job.Along R) (w : Worker σ τ α) :
    R w.state (w.finishPass job).state := by
  unfold finishPass
  split
  · exact h.trans (h.fetch w.state) (h.trans (h.drain _ _) (h.record _ _))
  · rename_i current rest _
    exact h.trans (h.finish current w.state) (h.trans (h.drain rest _) (h.record _ _))
  · exact h.refl w.state

theorem along_stop (h : job.Along R) (w : Worker σ τ α) : R w.state (w.stop job).state :=
  along_finishPass h w

theorem state_start (w : Worker σ τ α) : w.start.state = w.state := by
  unfold start
  split
  · rfl
  · rfl

end Worker

end TableService
