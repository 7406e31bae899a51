/-!
# Changes in place

A change of a state `σ` in place is of the type `ExceptT ε (StateM σ) α`. It may be refused, and
what it has done until then stays done.

- `InPlace.run_bind`, `InPlace.run_ofExcept`: a change is taken apart step by step.
- `InPlace.Atomic`: a change that is refused has done nothing.
-/

namespace TableService.InPlace

variable {ε σ α β : Type} {s s' : σ}

/-- Without an answer there is no next step. -/
theorem run_bind (m : ExceptT ε (StateM σ) α) (next : α → ExceptT ε (StateM σ) β) (s : σ) :
    (m >>= next).run.run s =
      match m.run.run s with
      | (.ok a, s) => (next a).run.run s
      | (.error e, s) => (.error e, s) := by
  rw [ExceptT.run_bind, StateT.run_bind]
  show _ = match m.run.run s with
    | (.ok a, s) => (next a).run.run s
    | (.error e, s) => (.error e, s)
  rcases m.run.run s with ⟨_ | a, s'⟩ <;> rfl

theorem run_ofExcept (r : Except ε α) (s : σ) :
    (MonadExcept.ofExcept r : ExceptT ε (StateM σ) α).run.run s = (r, s) := by
  cases r <;> rfl

/-- If the change is refused, the state is as it was. -/
def Atomic (m : ExceptT ε (StateM σ) α) (s : σ) : Prop :=
  ∀ e s', m.run.run s = (.error e, s') → s' = s

theorem Atomic.of_ok {m : ExceptT ε (StateM σ) α} {a : α}
    (h : m.run.run s = (.ok a, s')) : Atomic m s := by
  intro e s'' herror
  rw [h] at herror
  cases herror

theorem Atomic.throw (e : ε) : Atomic (throw e : ExceptT ε (StateM σ) α) s := by
  intro e' s' herror
  cases herror
  rfl

/-- To ask something first does no harm. -/
theorem Atomic.bind {m : ExceptT ε (StateM σ) α} {next : α → ExceptT ε (StateM σ) β}
    {r : Except ε α} (hm : m.run.run s = (r, s))
    (h : ∀ a, r = .ok a → Atomic (next a) s) : Atomic (m >>= next) s := by
  intro e s' herror
  rw [run_bind, hm] at herror
  cases r with
  | error e' =>
    cases herror
    rfl
  | ok a => exact h a rfl e s' herror

/-- Nor does it to let go of the answer. -/
theorem Atomic.bind_pure {m : ExceptT ε (StateM σ) α} {f : α → β} (h : Atomic m s) :
    Atomic (m >>= fun a => pure (f a)) s := by
  intro e s' herror
  rw [run_bind] at herror
  rcases hrun : m.run.run s with ⟨e' | a, s''⟩
  · rw [hrun] at herror
    cases herror
    exact h _ _ hrun
  · rw [hrun] at herror
    cases herror

/-- A change that is refused at once, or not at all. -/
theorem Atomic.of_ite {m : ExceptT ε (StateM σ) α} {c : Prop} [Decidable c] {e : ε} {a : α}
    (h : m.run.run s = if c then (.error e, s) else (.ok a, s')) : Atomic m s := by
  intro e' s'' herror
  rw [h] at herror
  split at herror
  · cases herror
    rfl
  · cases herror

end TableService.InPlace
