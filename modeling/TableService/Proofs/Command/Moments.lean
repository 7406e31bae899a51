import TableService.Proofs.Command.Deed
import TableService.Proofs.Command.Traffic

/-!
# Moments of a run

- `Traffic.moment`: commands that take turns, as they are before the move with a number.
- `Traffic.course`: a run as one of its commands sees it.
- `Traffic.underWay`: at each moment, what is left of a command still does what the command does.
- `Traffic.deed_of_commits`: every commit that succeeds is a deed of its command.
-/

namespace TableService

open UnitOfWork

namespace Running

/-- The request that a command makes next. -/
def request? (r : Running) : Option Request :=
  match r.rest with
  | .done _ => none
  | .ask request _ => some request

/-- How a command has ended. -/
def result? (r : Running) : Option (Except CommandError Nat) :=
  match r.rest with
  | .done result => some result
  | .ask _ _ => none

theorem rest_of_request? {r : Running} {request : Request} (h : r.request? = some request) :
    ∃ next, r.rest = .ask request next := by
  unfold request? at h
  split at h
  · cases h
  · rename_i request' next hrest
    cases h
    exact ⟨next, hrest⟩

theorem rest_of_result? {r : Running} {result : Except CommandError Nat}
    (h : r.result? = some result) : r.rest = .done result := by
  unfold result? at h
  split at h
  · rename_i result' hrest
    cases h
    exact hrest
  · cases h

theorem turn_of_request? {r : Running} {b : Backend} {request : Request}
    (h : r.request? = some request) : (r.turn b).1 = (request.answer b r.unit).2.1 := by
  obtain ⟨next, hrest⟩ := rest_of_request? h
  simp only [turn, hrest]

theorem turn_of_result? {r : Running} {b : Backend} {result : Except CommandError Nat}
    (h : r.result? = some result) : r.turn b = (b, r) := by
  simp only [turn, rest_of_result? h]

/-- A command has ended, or makes a request. -/
theorem result?_or_request? (r : Running) :
    (∃ result, r.result? = some result) ∨ ∃ request, r.request? = some request := by
  unfold result? request?
  cases r.rest with
  | done result => exact .inl ⟨result, rfl⟩
  | ask request next => exact .inr ⟨request, rfl⟩

end Running

namespace Traffic

/-! ## One move -/

theorem running_after {w : Traffic} {move : Move} {k : Nat} {r : Running}
    (h : (w.after move).running[k]? = some r) :
    w.running[k]? = some r ∨
    (∃ policy command, move = .accept policy command ∧ r = .start policy command) ∨
    ∃ r', move = .turn k ∧ w.running[k]? = some r' ∧ r = (r'.turn w.backend).2 := by
  cases move with
  | accept policy command =>
    rcases Nat.lt_or_ge k w.running.length with hk | hk
    · rw [Traffic.after, List.getElem?_append_left hk] at h
      exact .inl h
    · rw [Traffic.after, List.getElem?_append_right hk] at h
      have hmem := List.mem_of_getElem? h
      exact .inr (.inl ⟨policy, command, rfl, List.mem_singleton.mp hmem⟩)
  | setClock t => exact .inl h
  | turn other =>
    simp only [Traffic.after] at h
    split at h
    · exact .inl h
    · rename_i r' hr'
      by_cases hk : other = k
      · subst hk
        have hlt : other < w.running.length := (List.getElem?_eq_some_iff.mp hr').1
        rw [List.getElem?_set_self hlt, Option.some.injEq] at h
        exact .inr (.inr ⟨r', rfl, hr', h.symm⟩)
      · rw [List.getElem?_set_ne hk] at h
        exact .inl h

/-- It is a command's turn to commit if the next move is its own, and the commit would succeed. -/
def commits (w : Traffic) (k : Nat) : Bool :=
  match w.running[k]? with
  | none => false
  | some r =>
    match r.request?, r.unit with
    | some (.unit .commit), some o => (o.conflict? w.backend.stores).isNone
    | _, _ => false

theorem commits_eq_true_iff {w : Traffic} {k : Nat} : w.commits k = true ↔
    ∃ r o, w.running[k]? = some r ∧ r.request? = some (.unit .commit) ∧ r.unit = some o ∧
      o.conflict? w.backend.stores = none := by
  unfold commits
  split
  · rename_i hnone
    simp [hnone]
  · rename_i r hr
    split
    · rename_i o hrequest hunit
      simp [hr, hrequest, hunit]
    · rename_i hno
      simp only [Bool.false_eq_true, hr, Option.some.injEq, false_iff, not_exists, not_and]
      rintro r' o rfl hrequest hunit
      exact absurd hunit (hno o hrequest)

/-- The stores change by a successful commit, and by nothing else. -/
theorem stores_after (w : Traffic) (move : Move) :
    (w.after move).backend.stores = w.backend.stores ∨
      ∃ k, move = .turn k ∧ w.commits k = true := by
  cases move with
  | accept policy command => exact .inl rfl
  | setClock t => exact .inl rfl
  | turn k =>
    simp only [Traffic.after]
    split
    · exact .inl rfl
    · rename_i r hr
      rcases r.result?_or_request? with ⟨result, hresult⟩ | ⟨request, hrequest⟩
      · rw [Running.turn_of_result? hresult]
        exact .inl rfl
      · rw [Running.turn_of_request? hrequest]
        cases request with
        | now => exact .inl rfl
        | nextId => exact .inl rfl
        | unit act =>
          rcases stores_perform w.backend.stores r.unit act with h | ⟨rfl, o, ho, hc, -⟩
          · exact .inl h
          · exact .inr ⟨k, rfl, commits_eq_true_iff.mpr ⟨r, o, hr, hrequest, ho, hc⟩⟩

theorem advances_after (w : Traffic) (move : Move) :
    w.backend.Advances (w.after move).backend := by
  cases move with
  | accept policy command => exact .of_eq rfl rfl
  | setClock t => exact .of_eq rfl rfl
  | turn k =>
    simp only [Traffic.after]
    split
    · exact .of_eq rfl rfl
    · rename_i r hr
      rcases r.result?_or_request? with ⟨result, hresult⟩ | ⟨request, hrequest⟩
      · rw [Running.turn_of_result? hresult]
        exact .of_eq rfl rfl
      · rw [Running.turn_of_request? hrequest]
        exact request.advances_answer _ _

theorem advances_run (w : Traffic) (moves : List Move) :
    w.backend.Advances (w.run moves).backend := by
  induction moves generalizing w with
  | nil => exact .of_eq rfl rfl
  | cons move rest ih => exact (w.advances_after move).trans (ih (w.after move))

/-! ## Moments -/

/-- What has come of it before the move with the number `i`. -/
def moment (w : Traffic) (moves : List Move) (i : Nat) : Traffic :=
  w.run (moves.take i)

theorem moment_succ (w : Traffic) {moves : List Move} {i : Nat} {move : Move}
    (h : moves[i]? = some move) : w.moment moves (i + 1) = (w.moment moves i).after move := by
  rw [moment, List.take_add_one, h, run_append]
  rfl

theorem moment_of_length_le (w : Traffic) {moves : List Move} {i : Nat} (h : moves.length ≤ i) :
    w.moment moves i = w.run moves := by
  rw [moment, List.take_of_length_le h]

theorem advances_moment (w : Traffic) (moves : List Move) (i : Nat) :
    (w.moment moves i).backend.Advances (w.moment moves (i + 1)).backend := by
  cases h : moves[i]? with
  | some move =>
    rw [w.moment_succ h]
    exact advances_after _ move
  | none =>
    have hi := List.getElem?_eq_none_iff.mp h
    rw [w.moment_of_length_le hi, w.moment_of_length_le (Nat.le_succ_of_le hi)]
    exact .of_eq rfl rfl

variable {start : Backend}

theorem settled_moment (hempty : start.stores = {}) (moves : List Move) (i : Nat) :
    (moment ⟨start, []⟩ moves i).backend.stores.Settled :=
  Stores.Reachable.settled ⟨_, ⟨start, hempty, moves.take i, rfl⟩, rfl⟩

/-- A run from empty stores as the command with the number `k` sees it. -/
def course (hempty : start.stores = {}) (moves : List Move) (k : Nat) : Course where
  backend i := (moment ⟨start, []⟩ moves i).backend
  turn i u request := moves[i]? = some (.turn k) ∧ ∃ r,
    (moment ⟨start, []⟩ moves i).running[k]? = some r ∧ r.unit = u ∧ r.request? = some request
  answered := by
    rintro i u request ⟨hmove, r, hr, rfl, hrequest⟩
    rw [moment_succ _ hmove, ← Running.turn_of_request? hrequest]
    simp only [Traffic.after, hr]
  advances_succ := advances_moment _ moves
  settled := settled_moment hempty moves

/-- The command with the number `k` was accepted by the move before `since`, and what is left of it
still does what the command does. -/
structure UnderWay (hempty : start.stores = {}) (moves : List Move) (i k : Nat) (r : Running)
    (since : Nat) : Prop where
  since_le : since ≤ i
  accepted : ∃ first, since = first + 1 ∧ moves[first]? = some (.accept r.policy r.command)
  among : r.rest.Among (course hempty moves k)
    ((course hempty moves k).Deed r.policy r.command since)
    (fun result j _ => ∀ count, result = .ok count → (course hempty moves k).Done
      ((course hempty moves k).Deed r.policy r.command since) since j) i r.unit

theorem UnderWay.succ {hempty : start.stores = {}} {moves : List Move} {i k since : Nat}
    {r : Running} (h : UnderWay hempty moves i k r since) :
    UnderWay hempty moves (i + 1) k r since where
  since_le := Nat.le_succ_of_le h.since_le
  accepted := h.accepted
  among := by
    refine h.among.later fun result u hdone count hok => ?_
    obtain ⟨m, o, hm, hmi, hcommits⟩ := hdone count hok
    exact ⟨m, o, hm, Nat.lt_succ_of_lt hmi, hcommits⟩

theorem UnderWay.turn {hempty : start.stores = {}} {moves : List Move} {i k since : Nat}
    {r : Running} (h : UnderWay hempty moves i k r since) (hmove : moves[i]? = some (.turn k))
    (hr : (moment ⟨start, []⟩ moves i).running[k]? = some r) :
    UnderWay hempty moves (i + 1) k (r.turn (moment ⟨start, []⟩ moves i).backend).2 since := by
  rcases r.result?_or_request? with ⟨result, hresult⟩ | ⟨request, hrequest⟩
  · rw [Running.turn_of_result? hresult]
    exact h.succ
  · have hturn : (course hempty moves k).turn i r.unit request :=
      ⟨hmove, r, hr, rfl, hrequest⟩
    obtain ⟨next, hrest⟩ := Running.rest_of_request? hrequest
    obtain ⟨policy, command, rest, unit⟩ := r
    cases hrest
    exact ⟨Nat.le_succ_of_le h.since_le, h.accepted, (h.among i (Nat.le_refl i) hturn).2⟩

/-- At each moment, what is left of a command still does what the command does. -/
theorem underWay (hempty : start.stores = {}) (moves : List Move) {i k : Nat} {r : Running}
    (hr : (moment ⟨start, []⟩ moves i).running[k]? = some r) :
    ∃ since, UnderWay hempty moves i k r since := by
  induction i generalizing r with
  | zero => simp [moment] at hr
  | succ i ih =>
    cases hmove : moves[i]? with
    | none =>
      have hi := List.getElem?_eq_none_iff.mp hmove
      rw [moment_of_length_le _ (Nat.le_succ_of_le hi), ← moment_of_length_le _ hi] at hr
      obtain ⟨since, h⟩ := ih hr
      exact ⟨since, h.succ⟩
    | some move =>
      rw [moment_succ _ hmove] at hr
      rcases running_after hr with hr | ⟨policy, command, rfl, rfl⟩ | ⟨r', rfl, hr', rfl⟩
      · obtain ⟨since, h⟩ := ih hr
        exact ⟨since, h.succ⟩
      · exact ⟨i + 1, Nat.le_refl _, ⟨i, rfl, hmove⟩, command.handle_among _ policy _⟩
      · obtain ⟨since, h⟩ := ih hr'
        exact ⟨since, h.turn hmove hr'⟩

/-- Every commit that succeeds is a deed of its command. -/
theorem deed_of_commits (hempty : start.stores = {}) {moves : List Move} {i k : Nat}
    (hmove : moves[i]? = some (.turn k))
    (hcommits : (moment ⟨start, []⟩ moves i).commits k = true) :
    ∃ r since, (moment ⟨start, []⟩ moves i).running[k]? = some r ∧
      UnderWay hempty moves i k r since ∧
        (course hempty moves k).Deed r.policy r.command since i := by
  obtain ⟨r, o, hr, hrequest, hunit, hc⟩ := commits_eq_true_iff.mp hcommits
  obtain ⟨since, h⟩ := underWay hempty moves hr
  have hturn : (course hempty moves k).turn i (some o) (.unit .commit) :=
    ⟨hmove, r, hr, hunit, hrequest⟩
  obtain ⟨next, hrest⟩ := Running.rest_of_request? hrequest
  have hamong := h.among
  rw [hrest, hunit] at hamong
  exact ⟨r, since, hr, h, (hamong i (Nat.le_refl i) hturn).1 o rfl rfl ⟨hturn, hc⟩⟩

end Traffic

end TableService
