import TableService.Proofs.InPlace
import TableService.ReadModel.Projector

/-!
# Steps of a change in place

- `ProjectionM.exec`: what steps come to, and the read models as they leave them.
- `ProjectionM.exec_bind` and one lemma for each kind of step take a handler apart.
- `Projection.ofSteps_eq`: the projection is read off what its steps come to.
-/

namespace TableService

namespace ProjectionM

variable {α β : Type} {m : ReadModels}

/-- Behind a failure the read models are as before. -/
def behind (m : ReadModels) :
    Except ProjectionFailure ReadModels → Except ProjectionFailure Unit × ReadModels
  | .ok m' => (.ok (), m')
  | .error e => (.error e, m)

/-- What comes of the steps, and the read models behind them. -/
def exec (p : ProjectionM α) (m : ReadModels) : Except ProjectionFailure α × ReadModels :=
  p.run.run m

@[simp] theorem exec_pure (a : α) (m : ReadModels) : (pure a : ProjectionM α).exec m = (.ok a, m) :=
  rfl

@[simp] theorem exec_bind (p : ProjectionM α) (f : α → ProjectionM β) (m : ReadModels) :
    (p >>= f).exec m =
      match p.exec m with
      | (.ok a, m) => (f a).exec m
      | (.error e, m) => (.error e, m) := by
  rw [exec, exec, InPlace.run_bind]
  rcases p.run.run m with ⟨_ | a, m'⟩ <;> rfl

@[simp] theorem exec_ofExcept (r : Except ProjectionFailure α) (m : ReadModels) :
    (MonadExcept.ofExcept r : ProjectionM α).exec m = (r, m) :=
  InPlace.run_ofExcept r m

@[simp] theorem exec_check (r : Except ProjectionError α) (m : ReadModels) :
    (check r).exec m = (r.mapError .error, m) :=
  exec_ofExcept _ m

@[simp] theorem exec_findMenuItem (out : Outage) (id : String) (m : ReadModels) :
    (findMenuItem out id).exec m = ((m.findMenuItem out id).mapError .error, m) :=
  exec_check _ m

@[simp] theorem exec_findOrder (out : Outage) (id : String) (m : ReadModels) :
    (findOrder out id).exec m = ((m.findOrder out id).mapError .error, m) :=
  exec_check _ m

theorem exec_save (save : ReadModels → Except ProjectionError ReadModels) (m : ReadModels) :
    (get >>= fun r => check (save r) >>= set : ProjectionM Unit).exec m =
      behind m ((save m).mapError .error) := by
  rw [exec_bind]
  show (check (save m) >>= set : ProjectionM Unit).exec m = _
  rw [exec_bind, exec_check]
  cases save m <;> rfl

@[simp] theorem exec_saveMenuItem (out : Outage) (item : MenuItemModel) (m : ReadModels) :
    (saveMenuItem out item).exec m = behind m ((m.saveMenuItem out item).mapError .error) :=
  exec_save (·.saveMenuItem out item) m

@[simp] theorem exec_saveOrder (out : Outage) (order : OrderModel) (m : ReadModels) :
    (saveOrder out order).exec m = behind m ((m.saveOrder out order).mapError .error) :=
  exec_save (·.saveOrder out order) m

end ProjectionM

open ProjectionM

theorem Projection.ofSteps_eq (steps : Steps) (out : Outage) (m : ReadModels) :
    Projection.ofSteps steps out m =
      match (steps out).exec m with
      | (.ok (), m) => .ok m
      | (.error e, _) => .error e := rfl

end TableService
