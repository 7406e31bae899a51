import TableService.Proofs.Command.AllOrNothing
import TableService.Proofs.Command.Retrace

/-!
# Commands in the order of their commits

- `Traffic.given`, `Traffic.readings`: the ids and the times that a command has been given.
- `Traffic.issued`: no id is given to two commands.
- `Traffic.Serial`: the commands that have committed so far leave the same stores one by one, and
  all others are pending or refused.
- `Traffic.serializable`: commands that touch one aggregate each, in whatever turns, leave the
  stores that they leave one by one in the order of their commits.
-/

namespace TableService

open UnitOfWork

/-- No id that is handed out from now on is handed out twice, or belongs to an entry in the log. -/
structure Backend.HasFreshIds (b : Backend) : Prop where
  injective {m n : Nat} : b.ids.used ≤ m → b.ids.used ≤ n → b.ids.text m = b.ids.text n → m = n
  free : ∀ e ∈ b.stores.outbox, ∀ n, b.ids.used ≤ n → e.id ≠ b.ids.text n

namespace Traffic

variable {w : Traffic} {moves : List Move} {i k : Nat} {r : Running}

/-! ## One move, seen by one command -/

theorem running_succ (h : moves[i]? ≠ some (.turn k))
    (hr : (w.moment moves i).running[k]? = some r) :
    (w.moment moves (i + 1)).running[k]? = some r := by
  cases hmove : moves[i]? with
  | none =>
    have hi := List.getElem?_eq_none_iff.mp hmove
    rwa [moment_of_length_le _ (Nat.le_succ_of_le hi), ← moment_of_length_le _ hi]
  | some move =>
    rw [moment_succ w hmove]
    cases move with
    | accept policy command =>
      have hk : k < (w.moment moves i).running.length := (List.getElem?_eq_some_iff.mp hr).1
      exact (List.getElem?_append_left hk).trans hr
    | setClock t => exact hr
    | turn other =>
      have hne : other ≠ k := fun heq => h (by rw [hmove, heq])
      simp only [Traffic.after]
      split
      · exact hr
      · exact (List.getElem?_set_ne hne).trans hr

theorem moment_turn (hmove : moves[i]? = some (.turn k))
    (hr : (w.moment moves i).running[k]? = some r) :
    (w.moment moves (i + 1)).backend = (r.turn (w.moment moves i).backend).1 ∧
      (w.moment moves (i + 1)).running[k]? = some (r.turn (w.moment moves i).backend).2 := by
  have hk : k < (w.moment moves i).running.length := (List.getElem?_eq_some_iff.mp hr).1
  have hafter : (w.moment moves i).after (.turn k) =
      ⟨(r.turn (w.moment moves i).backend).1,
        (w.moment moves i).running.set k (r.turn (w.moment moves i).backend).2⟩ := by
    simp only [Traffic.after, hr]
  rw [moment_succ w hmove, hafter]
  exact ⟨rfl, List.getElem?_set_self hk⟩

/-- A command that is there after a move was there before it, or has just been accepted. -/
theorem running_succ_cases (hr : (w.moment moves (i + 1)).running[k]? = some r) :
    (moves[i]? ≠ some (.turn k) ∧ (w.moment moves i).running[k]? = some r) ∨
    (∃ r', moves[i]? = some (.turn k) ∧ (w.moment moves i).running[k]? = some r' ∧
      r = (r'.turn (w.moment moves i).backend).2) ∨
    ∃ policy command, moves[i]? = some (.accept policy command) ∧
      (w.moment moves i).running[k]? = none ∧ r = .start policy command := by
  cases hold : (w.moment moves i).running[k]? with
  | some r' =>
    by_cases hmove : moves[i]? = some (.turn k)
    · rw [(moment_turn hmove hold).2] at hr
      exact .inr (.inl ⟨r', hmove, rfl, (Option.some.inj hr).symm⟩)
    · rw [running_succ hmove hold] at hr
      exact .inl ⟨hmove, hr⟩
  | none =>
    cases hmove : moves[i]? with
    | none =>
      have hi := List.getElem?_eq_none_iff.mp hmove
      rw [moment_of_length_le _ (Nat.le_succ_of_le hi), ← moment_of_length_le _ hi, hold] at hr
      cases hr
    | some move =>
      rw [moment_succ w hmove] at hr
      rcases running_after hr with hr | ⟨policy, command, rfl, rfl⟩ | ⟨r', -, hr', -⟩
      · rw [hold] at hr
        cases hr
      · exact .inr (.inr ⟨policy, command, rfl, rfl, rfl⟩)
      · rw [hold] at hr'
        cases hr'

/-- The stores move forward, and with them the log. -/
theorem stores_advance (w : Traffic) (moves : List Move) (i : Nat) :
    (w.moment moves i).backend.stores.Advances (w.moment moves (i + 1)).backend.stores := by
  cases hmove : moves[i]? with
  | none =>
    have hi := List.getElem?_eq_none_iff.mp hmove
    rw [moment_of_length_le _ (Nat.le_succ_of_le hi), moment_of_length_le _ hi]
    exact .refl _
  | some move =>
    rcases stores_after (w.moment moves i) move with hsame | ⟨k, rfl, hcommits⟩
    · rw [moment_succ w hmove, hsame]
      exact .refl _
    · obtain ⟨r, o, hr, hrequest, hunit, hc⟩ := commits_eq_true_iff.mp hcommits
      rw [(moment_turn hmove hr).1, Running.turn_of_request? hrequest, hunit]
      simp only [Request.answer, perform, hc]
      exact o.advances_merge _

/-! ## What a command has been given -/

/-- What a command has got by its turns before the move `i`, as `get` tells it of each turn. -/
def collect {β : Type} (w : Traffic) (get : Running → Backend → List β) (moves : List Move)
    (k : Nat) : Nat → List β
  | 0 => []
  | i + 1 => w.collect get moves k i ++
    match moves[i]?, (w.moment moves i).running[k]? with
    | some (.turn other), some r => if other = k then get r (w.moment moves i).backend else []
    | _, _ => []

/-- The ids that a command has been given before the move `i`. -/
def given (w : Traffic) (moves : List Move) (k i : Nat) : List String :=
  w.collect Running.takes moves k i

/-- The times that a command has been given before the move `i`. -/
def readings (w : Traffic) (moves : List Move) (k i : Nat) : List Instant :=
  w.collect Running.reads moves k i

section

variable {β : Type} {get : Running → Backend → List β}

theorem collect_turn (hmove : moves[i]? = some (.turn k))
    (hr : (w.moment moves i).running[k]? = some r) :
    w.collect get moves k (i + 1) =
      w.collect get moves k i ++ get r (w.moment moves i).backend := by
  rw [collect, hmove, hr]
  simp only [if_true]

theorem collect_of_ne (h : moves[i]? ≠ some (.turn k)) :
    w.collect get moves k (i + 1) = w.collect get moves k i := by
  rw [collect]
  split
  · rename_i other r hmove hr
    rw [if_neg fun heq => h (by rw [hmove, heq]), List.append_nil]
  · exact List.append_nil _

theorem collect_of_none (hr : (w.moment moves i).running[k]? = none) :
    w.collect get moves k (i + 1) = w.collect get moves k i := by
  rw [collect, hr]
  split
  · rename_i hsome
    cases hsome
  · exact List.append_nil _

theorem collect_subset : w.collect get moves k i ⊆ w.collect get moves k (i + 1) := by
  rw [collect]
  exact List.subset_append_left _ _

/-- A command that is not there yet has got nothing. -/
theorem collect_eq_nil (h : (w.moment moves i).running[k]? = none) :
    w.collect get moves k i = [] := by
  induction i with
  | zero => rfl
  | succ i ih =>
    cases hold : (w.moment moves i).running[k]? with
    | none => rw [collect_of_none hold, ih hold]
    | some r =>
      exfalso
      by_cases hmove : moves[i]? = some (.turn k)
      · rw [(moment_turn hmove hold).2] at h
        cases h
      · rw [running_succ hmove hold] at h
        cases h

end

/-! ## Ids -/

/-- The ids that commands have been given come of the source, and each is given once. -/
structure Issued (start : Backend) (moves : List Move) (i : Nat) : Prop where
  drawn {k : Nat} {id : String} : id ∈ given ⟨start, []⟩ moves k i →
    ∃ n, start.ids.used ≤ n ∧ n < (moment ⟨start, []⟩ moves i).backend.ids.used ∧
      id = start.ids.text n
  apart {k k' : Nat} {id : String} : id ∈ given ⟨start, []⟩ moves k i →
    id ∈ given ⟨start, []⟩ moves k' i → k = k'

variable {start : Backend}

theorem advances_start (start : Backend) (moves : List Move) (i : Nat) :
    start.Advances (moment ⟨start, []⟩ moves i).backend :=
  advances_run ⟨start, []⟩ (moves.take i)

theorem mem_given_succ {id : String} (h : id ∈ given ⟨start, []⟩ moves k (i + 1)) :
    id ∈ given ⟨start, []⟩ moves k i ∨ moves[i]? = some (.turn k) ∧
      id = start.ids.text (moment ⟨start, []⟩ moves i).backend.ids.used ∧
        (moment ⟨start, []⟩ moves (i + 1)).backend.ids.used =
          (moment ⟨start, []⟩ moves i).backend.ids.used + 1 := by
  by_cases hmove : moves[i]? = some (.turn k)
  · cases hr : (moment ⟨start, []⟩ moves i).running[k]? with
    | none =>
      rw [given, collect_of_none hr] at h
      exact .inl h
    | some r =>
      rw [given, collect_turn hmove hr] at h
      rcases List.mem_append.mp h with h | h
      · exact .inl h
      · unfold Running.takes at h
        split at h
        · rename_i hrequest
          rw [List.mem_singleton.mp h, (moment_turn hmove hr).1, Running.turn_of_request? hrequest,
            ← (advances_start start moves i).text]
          exact .inr ⟨hmove, rfl, rfl⟩
        · cases h
  · rw [given, collect_of_ne hmove] at h
    exact .inl h

theorem Issued.succ (h : Issued start moves i) (hfresh : start.HasFreshIds) :
    Issued start moves (i + 1) := by
  have hused := (advances_moment ⟨start, []⟩ moves i).used
  have hfirst := (advances_start start moves i).used
  -- the id that comes next has not been given before
  have hnew {k : Nat} {id : String} (hold : id ∈ given ⟨start, []⟩ moves k i) :
      id ≠ start.ids.text (moment ⟨start, []⟩ moves i).backend.ids.used := by
    rintro rfl
    obtain ⟨n, hn, hlt, heq⟩ := h.drawn hold
    exact Nat.ne_of_gt hlt (hfresh.injective hfirst hn heq)
  constructor
  · intro k id hid
    rcases mem_given_succ hid with hold | ⟨-, heq, hmore⟩
    · obtain ⟨n, hn, hlt, heq⟩ := h.drawn hold
      exact ⟨n, hn, by omega, heq⟩
    · exact ⟨_, hfirst, by omega, heq⟩
  · intro k k' id hid hid'
    rcases mem_given_succ hid with hold | ⟨hmove, heq, -⟩
    · rcases mem_given_succ hid' with hold' | ⟨-, heq', -⟩
      · exact h.apart hold hold'
      · exact absurd heq' (hnew hold)
    · rcases mem_given_succ hid' with hold' | ⟨hmove', -, -⟩
      · exact absurd heq (hnew hold')
      · rw [hmove] at hmove'
        cases hmove'
        rfl

theorem issued (hfresh : start.HasFreshIds) (moves : List Move) (i : Nat) :
    Issued start moves i := by
  induction i with
  | zero => exact ⟨fun h => absurd h List.not_mem_nil, fun h => absurd h List.not_mem_nil⟩
  | succ i ih => exact ih.succ hfresh

/-! ## Commits in their order -/

/-- The command with the number `k` has committed, with this to its name. -/
structure Behind (w : Traffic) (moves : List Move) (i k : Nat) (c : Committer) : Prop where
  running : ∃ r, (w.moment moves i).running[k]? = some r ∧ r.policy = c.policy ∧
    r.command = c.command ∧ r.rest.Closes (.ok c.count)
  ids : w.given moves k i = c.ids
  time : w.readings moves k i = [c.time]

/-- What has been committed so far is what comes of the commands one by one. -/
structure Serial (start : Backend) (moves : List Move) (i : Nat) (done : List Committer) :
    Prop where
  behind : List.Forall₂ (Behind ⟨start, []⟩ moves i) (committers ⟨start, []⟩ moves i) done
  pending {k : Nat} {r : Running} : (moment ⟨start, []⟩ moves i).running[k]? = some r →
    k ∉ committers ⟨start, []⟩ moves i → r.rest.Refused ∨
      r.Pending (moment ⟨start, []⟩ moves i).backend.stores (given ⟨start, []⟩ moves k i)
        (readings ⟨start, []⟩ moves k i)
  oneByOne : Committer.oneByOne start.stores done =
    (done.map fun c => (.ok c.count, c.ids.length), (moment ⟨start, []⟩ moves i).backend.stores)
  logged : ∀ e ∈ (moment ⟨start, []⟩ moves i).backend.stores.outbox, e ∈ start.stores.outbox ∨
    ∃ k ∈ committers ⟨start, []⟩ moves i, e.id ∈ given ⟨start, []⟩ moves k i

/-- What has committed only closes its unit from then on. -/
theorem Behind.succ {c : Committer} (h : w.Behind moves i k c) : w.Behind moves (i + 1) k c := by
  obtain ⟨⟨r, hr, hpolicy, hcommand, hcloses⟩, hids, htime⟩ := h
  by_cases hmove : moves[i]? = some (.turn k)
  · obtain ⟨hsame, hsame'⟩ := r.turn_same (w.moment moves i).backend
    obtain ⟨htakes, hreads, hrest⟩ := Running.closes_turn (b := (w.moment moves i).backend) hcloses
    refine ⟨⟨_, (moment_turn hmove hr).2, hsame.trans hpolicy, hsame'.trans hcommand, hrest⟩,
      ?_, ?_⟩
    · rw [given, collect_turn hmove hr, htakes, List.append_nil]
      exact hids
    · rw [readings, collect_turn hmove hr, hreads, List.append_nil]
      exact htime
  · refine ⟨⟨r, running_succ hmove hr, hpolicy, hcommand, hcloses⟩, ?_, ?_⟩
    · rw [given, collect_of_ne hmove]
      exact hids
    · rw [readings, collect_of_ne hmove]
      exact htime

/-- A move commits for one command, or leaves the stores alone. -/
theorem commit_cases (w : Traffic) (moves : List Move) (i : Nat) :
    (∃ k r, moves[i]? = some (.turn k) ∧ (w.moment moves i).running[k]? = some r ∧
      r.CommitsNow (w.moment moves i).backend.stores ∧
        w.committers moves (i + 1) = w.committers moves i ++ [k]) ∨
    w.committers moves (i + 1) = w.committers moves i ∧
      (w.moment moves (i + 1)).backend.stores = (w.moment moves i).backend.stores := by
  by_cases hcommits : ∃ k, moves[i]? = some (.turn k) ∧ (w.moment moves i).commits k = true
  · obtain ⟨k, hmove, hc⟩ := hcommits
    obtain ⟨r, o, hr, -⟩ := commits_eq_true_iff.mp hc
    refine .inl ⟨k, r, hmove, hr, (commits_iff hr).mp hc, ?_⟩
    rw [committers_turn hmove, if_pos hc]
  · refine .inr ⟨?_, ?_⟩
    · by_cases hturn : ∃ k, moves[i]? = some (.turn k)
      · obtain ⟨k, hmove⟩ := hturn
        rw [committers_turn hmove, if_neg fun hc => hcommits ⟨k, hmove, hc⟩, List.append_nil]
      · exact congrArg (List.map Prod.snd) (successes_of_ne_turn fun k hk => hturn ⟨k, hk⟩)
    · cases hmove : moves[i]? with
      | none =>
        have hi := List.getElem?_eq_none_iff.mp hmove
        rw [moment_of_length_le _ (Nat.le_succ_of_le hi), moment_of_length_le _ hi]
      | some move =>
        rw [moment_succ w hmove]
        rcases stores_after (w.moment moves i) move with hsame | ⟨k, rfl, hc⟩
        · exact hsame
        · exact absurd ⟨k, hmove, hc⟩ hcommits

/-- All commands touch one aggregate, whose id is given as it is kept. -/
def AllSingle (moves : List Move) : Prop :=
  ∀ {policy : RetryPolicy} {command : Command}, .accept policy command ∈ moves →
    command.isSingle = true ∧ Text.trim command.target = command.target

variable {done : List Committer}

/-- What has not committed by a move goes on, is refused, or has just been accepted. -/
theorem Serial.pending_succ (h : Serial start moves i done) (hsingle : AllSingle moves)
    (hs : (moment ⟨start, []⟩ moves i).backend.stores.Settled)
    (hr : (moment ⟨start, []⟩ moves (i + 1)).running[k]? = some r)
    (hk : k ∉ committers ⟨start, []⟩ moves (i + 1)) :
    r.rest.Refused ∨
      r.Pending (moment ⟨start, []⟩ moves (i + 1)).backend.stores
        (given ⟨start, []⟩ moves k (i + 1)) (readings ⟨start, []⟩ moves k (i + 1)) := by
  have hadvance := stores_advance ⟨start, []⟩ moves i
  rcases running_succ_cases hr with ⟨hne, hold⟩ | ⟨r', hmove, hold, rfl⟩ |
    ⟨policy, command, hmove, hnone, rfl⟩
  · -- it is not its turn
    have hbefore : k ∉ committers ⟨start, []⟩ moves i := by
      rcases commit_cases ⟨start, []⟩ moves i with ⟨_, _, -, -, -, hlist⟩ | ⟨hlist, -⟩
      · rw [hlist] at hk
        exact fun hmem => hk (List.mem_append_left _ hmem)
      · rwa [← hlist]
    rw [given, readings, collect_of_ne hne, collect_of_ne hne]
    exact (h.pending hold hbefore).imp_right fun hpending => hpending.advance hadvance
  · rw [mem_committers_turn hmove, not_or] at hk
    have hnow : ¬ r'.CommitsNow (moment ⟨start, []⟩ moves i).backend.stores :=
      fun hnow => hk.2 ⟨rfl, (commits_iff hold).mpr hnow⟩
    rw [given, readings, collect_turn hmove hold, collect_turn hmove hold,
      (moment_turn hmove hold).1]
    rcases h.pending hold hk.1 with hrefused | hpending
    · exact .inl (Running.refused_turn hrefused)
    · exact hpending.turn hs hnow
  · obtain ⟨hone, htrim⟩ := hsingle (List.mem_of_getElem? hmove)
    rw [given, readings, collect_of_none hnone, collect_of_none hnone, collect_eq_nil hnone,
      collect_eq_nil hnone]
    exact .inr (Running.pending_start hone htrim _)

/-- The ids that a command has been given are free as long as it has not committed. -/
theorem Serial.free (h : Serial start moves i done) (hfresh : start.HasFreshIds)
    (hk : k ∉ committers ⟨start, []⟩ moves i) :
    ∀ id ∈ given ⟨start, []⟩ moves k i,
      ∀ old ∈ (moment ⟨start, []⟩ moves i).backend.stores.outbox, old.id ≠ id := by
  intro id hid old hold heq
  have hissued := issued hfresh moves i
  rcases h.logged old hold with hbefore | ⟨k', hk', hgiven⟩
  · obtain ⟨n, hn, -, hdrawn⟩ := hissued.drawn hid
    exact hfresh.free old hbefore n hn (heq.trans hdrawn)
  · rw [heq] at hgiven
    exact hk (hissued.apart hid hgiven ▸ hk')

theorem Serial.succ (h : Serial start moves i done) (hsingle : AllSingle moves)
    (hfresh : start.HasFreshIds) (hs : (moment ⟨start, []⟩ moves i).backend.stores.Settled) :
    ∃ done', Serial start moves (i + 1) done' := by
  have hbehind := h.behind.imp fun _ _ hb => hb.succ
  rcases commit_cases ⟨start, []⟩ moves i with ⟨k, r, hmove, hr, hnow, hlist⟩ | ⟨hlist, hstores⟩
  · have hk : k ∉ committers ⟨start, []⟩ moves i := by
      have hnodup := (commitOnce start moves (i + 1)).nodup
      rw [hlist] at hnodup
      exact fun hmem => (List.nodup_append.mp hnodup).2.2 k hmem k (List.mem_singleton_self _) rfl
    have hpending : r.Pending (moment ⟨start, []⟩ moves i).backend.stores
        (given ⟨start, []⟩ moves k i) (readings ⟨start, []⟩ moves k i) :=
      (h.pending hr hk).resolve_left fun hrefused => Running.not_commitsNow_of_refused hrefused hnow
    obtain ⟨t, count, htimes, hcloses, left, hleft, hused, hagain⟩ :=
      hpending.commit hnow (h.free hfresh hk)
    obtain ⟨hbackend, hturn⟩ := moment_turn hmove hr
    rw [← hbackend] at hleft
    obtain ⟨htakes, hreads⟩ := Running.takes_of_unit hnow.1 (moment ⟨start, []⟩ moves i).backend
    have hbehindNew : Behind ⟨start, []⟩ moves (i + 1) k
        ⟨r.policy, r.command, given ⟨start, []⟩ moves k i, t, count⟩ := by
      obtain ⟨hpolicy, hcommand⟩ := r.turn_same (moment ⟨start, []⟩ moves i).backend
      refine ⟨⟨_, hturn, hpolicy, hcommand, hcloses⟩, ?_, ?_⟩
      · rw [given, collect_turn hmove hr, htakes, List.append_nil]
        rfl
      · rw [readings, collect_turn hmove hr, hreads, List.append_nil]
        exact htimes
    refine ⟨done ++ [⟨r.policy, r.command, given ⟨start, []⟩ moves k i, t, count⟩], ?_,
      h.pending_succ hsingle hs, ?_, ?_⟩
    · rw [hlist]
      exact List.rel_append hbehind (.cons hbehindNew .nil)
    · rw [Committer.oneByOne_append, h.oneByOne]
      simp only [Committer.oneByOne, hagain, List.map_append, List.map_cons, List.map_nil, hused,
        hleft]
    · obtain ⟨hrequest, o, hunit, hc⟩ := hnow
      have hlog : (moment ⟨start, []⟩ moves (i + 1)).backend.stores.outbox =
          (moment ⟨start, []⟩ moves i).backend.stores.outbox ++ o.outbox := by
        rw [hbackend, Running.turn_of_request? hrequest, hunit]
        simp only [Request.answer, perform, hc]
        rfl
      rw [hlog, hlist]
      intro e he
      rcases List.mem_append.mp he with he | he
      · rcases h.logged e he with hold | ⟨k', hk', hid⟩
        · exact .inl hold
        · exact .inr ⟨k', List.mem_append_left _ hk', collect_subset hid⟩
      · have hid := hpending.own o hunit e he
        exact .inr ⟨k, List.mem_append_right _ (List.mem_singleton_self _), collect_subset hid⟩
  · refine ⟨done, ?_, h.pending_succ hsingle hs, ?_, ?_⟩
    · rw [hlist]
      exact hbehind
    · rw [hstores]
      exact h.oneByOne
    · rw [hstores, hlist]
      intro e he
      rcases h.logged e he with hold | ⟨k, hk, hid⟩
      · exact .inl hold
      · exact .inr ⟨k, hk, collect_subset hid⟩

theorem exists_serial (hreach : start.stores.Reachable) (hfresh : start.HasFreshIds)
    (hsingle : AllSingle moves) (i : Nat) : ∃ done, Serial start moves i done := by
  induction i with
  | zero =>
    refine ⟨[], .nil, fun hr => ?_, rfl, fun e he => .inl he⟩
    simp [moment] at hr
  | succ i ih =>
    obtain ⟨done, h⟩ := ih
    have hstart : Lawful .settled ⟨start, []⟩ := ⟨hreach.settled, fun r hr => by cases hr⟩
    exact h.succ hsingle hfresh (hstart.run Law.settled_kept (moves.take i)).stores

/-! ## Serializability -/

/-- A command that has committed, as it is at the end of a run. -/
structure Served (w : Traffic) (moves : List Move) (k : Nat) (c : Committer) : Prop where
  running : ∃ r, (w.run moves).running[k]? = some r ∧ r.policy = c.policy ∧
    r.command = c.command ∧ ∀ result, r.result? = some result → result = .ok c.count
  /-- These ids and this time are all that it has been given. -/
  ids : w.given moves k moves.length = c.ids
  time : w.readings moves k moves.length = [c.time]

/-- The commands that have committed, in the order of their commits, come to all that the run has
come to. -/
structure Serializable (start : Backend) (moves : List Move) (done : List Committer) : Prop where
  served : List.Forall₂ (Served ⟨start, []⟩ moves)
    (committers ⟨start, []⟩ moves moves.length) done
  nodup : (committers ⟨start, []⟩ moves moves.length).Nodup
  accepted {k : Nat} {r : Running} {result : Except CommandError Nat} :
    (run ⟨start, []⟩ moves).running[k]? = some r → r.result? = some result →
      (k ∈ committers ⟨start, []⟩ moves moves.length ↔ result.isOk = true)
  /-- One by one, each is accepted with the same count, takes all its ids again, and they leave the
  same stores. -/
  oneByOne : Committer.oneByOne start.stores done =
    (done.map fun c => (.ok c.count, c.ids.length), (run ⟨start, []⟩ moves).backend.stores)

theorem Behind.served {c : Committer} (h : w.Behind moves moves.length k c) :
    w.Served moves k c := by
  obtain ⟨⟨r, hr, hpolicy, hcommand, hcloses⟩, hids, htime⟩ := h
  rw [moment_of_length_le _ (Nat.le_refl _)] at hr
  refine ⟨⟨r, hr, hpolicy, hcommand, fun result hresult => ?_⟩, hids, htime⟩
  rw [Running.rest_of_result? hresult] at hcloses
  exact hcloses

/-- Commands that touch one aggregate each can be put one behind the other, whatever turns they have
taken. -/
theorem serializable (hreach : start.stores.Reachable) (hfresh : start.HasFreshIds)
    (hsingle : AllSingle moves) : ∃ done, Serializable start moves done := by
  obtain ⟨done, h⟩ := exists_serial hreach hfresh hsingle moves.length
  refine ⟨done, h.behind.imp fun _ _ hb => hb.served, (commitOnce start moves _).nodup,
    mem_committers_iff, ?_⟩
  rw [h.oneByOne, moment_of_length_le _ (Nat.le_refl _)]

/-- Two commands that create the same menu item in turns. -/
def teaTwice : List Move :=
  .accept {} .createTea :: .accept {} .createTea :: (List.replicate 12 [.turn 0, .turn 1]).flatten

/-- The one that commits first is accepted, and the other one is refused. -/
theorem teaTwice_serializable : (∃ done, Serializable .fresh teaTwice done) ∧
    committers ⟨.fresh, []⟩ teaTwice teaTwice.length = [0] ∧
      (run ⟨.fresh, []⟩ teaTwice).running.map (·.result?.map Except.isOk) =
        [some true, some false] := by
  refine ⟨serializable ⟨_, Backend.reachable_of_empty rfl, rfl⟩ ⟨?_, ?_⟩ ?_, ?_, ?_⟩
  · exact fun _ _ heq => Backend.fresh_ids.injective heq
  · exact fun e he => absurd he List.not_mem_nil
  · intro policy command hmem
    have htrim : Text.trim Command.createTea.target = Command.createTea.target := by
      decide +kernel
    obtain ⟨-, rfl⟩ : policy = {} ∧ command = .createTea := by
      simpa [teaTwice] using hmem
    exact ⟨rfl, htrim⟩
  · decide +kernel
  · decide +kernel

end Traffic

end TableService
