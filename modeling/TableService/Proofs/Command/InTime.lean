import TableService.Proofs.Command.Asked
import TableService.Proofs.Command.Chronicle
import TableService.Proofs.Outbox.Causal

/-!
# Entries in the order of their aggregates

A command asks for the time before it commits, so another command may commit in between, with a
later time. This cannot happen to commands about the same aggregate: each has seen the aggregate
before it asks for the time, and its commit fails if the aggregate has been committed since.

- `Course.Bounded`: the invariant. Who has seen an aggregate at the version at which it still is,
  had a clock that is not behind any of its entries.
- `Course.Bounded.succ`: kept by whatever adds entries of a time that has come, if an aggregate gets
  entries only together with a new version.
- `Traffic.causal_order`: so the log is in causal order at every point of a run.
-/

namespace TableService

/-! ## One commit -/

theorem Entry.kind_eq_of_isAbout {α β : Type} [Aggregate α] [Aggregate β] {e : Entry}
    {id id' : String}
    (h : e.isAbout α id = true) (h' : e.isAbout β id' = true) :
    Aggregate.kind α = Aggregate.kind β :=
  (Entry.isAbout_iff.mp h).1.symm.trans (Entry.isAbout_iff.mp h').1

theorem Entry.id_eq_of_isAbout {α : Type} [Aggregate α] {e : Entry} {id id' : String}
    (h : e.isAbout α id = true) (h' : e.isAbout α id' = true) : id = id' :=
  (Entry.isAbout_iff.mp h).2.symm.trans (Entry.isAbout_iff.mp h').2

section

variable {α : Type} [Aggregate α] [Collection α] {policy : RetryPolicy} {t : Instant}
  {s s' : Stores} {a : α} {e : Entry}

/-- What is in the log behind a commit. -/
theorem Appended.mem_cases (h : Appended policy t s s' a) (he : e ∈ s'.outbox) :
    e ∈ s.outbox ∨ e.occurredAt = t ∧ e.isAbout α (Aggregate.id a) = true := by
  obtain ⟨entries, hlog, hnew⟩ := h.outbox
  rw [hlog] at he
  rcases List.mem_append.mp he with hold | hentry
  · exact .inl hold
  · obtain ⟨event, -, hisNew⟩ := exists_of_forall₂ hnew hentry
    exact .inr ⟨hisNew.occurredAt, Entry.isAbout_iff.mpr ⟨hisNew.aggregateType, hisNew.aggregateId⟩⟩

theorem Appended.version_lt (h : Appended policy t s s' a) :
    versionOf (Collection.committed (α := α) s) (Aggregate.id a) <
      versionOf (Collection.committed (α := α) s') (Aggregate.id a) := by
  have hversion : versionOf (Collection.committed (α := α) s') (Aggregate.id a) =
      versionOf (Collection.committed (α := α) s) (Aggregate.id a) + 1 := by
    conv_lhs => rw [versionOf, h.stored]
    rfl
  omega

/-- The log stays in time if nothing about the aggregate is later than its new entries. -/
theorem Appended.inTime (h : Appended policy t s s' a) (hlog : Log.InTime s.outbox)
    (hbefore : ∀ e ∈ s.outbox, e.isAbout α (Aggregate.id a) = true → e.occurredAt ≤ t) :
    Log.InTime s'.outbox := by
  obtain ⟨entries, heq, hnew⟩ := h.outbox
  rw [heq]
  refine hlog.append (t := t) (fun e he => ?_) fun e he e' he' halike => hbefore e he ?_
  · obtain ⟨event, -, hisNew⟩ := exists_of_forall₂ hnew he
    exact hisNew.occurredAt
  · obtain ⟨event, -, hisNew⟩ := exists_of_forall₂ hnew he'
    obtain ⟨htype, hid⟩ := halike
    exact Entry.isAbout_iff.mpr ⟨htype.trans hisNew.aggregateType, hid.trans hisNew.aggregateId⟩

end

/-! ## What the clock bounds -/

namespace Course

variable {c : Course} {α : Type} [Aggregate α] [Collection α] {i : Nat}

/-- If an aggregate is at the moment `i` at the version at which it was at a moment `m`, its entries
are of times that had come by the moment `m`. -/
def Bounded (α : Type) [Aggregate α] [Collection α] (c : Course) (i : Nat) : Prop :=
  ∀ m ≤ i, ∀ id, versionOf (Collection.committed (α := α) (c.stores m)) id =
      versionOf (Collection.committed (α := α) (c.stores i)) id →
    ∀ e ∈ (c.stores i).outbox, e.isAbout α id = true → e.occurredAt ≤ (c.backend m).clock

/-- Whether the clock never goes back. -/
def Forward (c : Course) : Prop :=
  ∀ i, (c.backend i).clock ≤ (c.backend (i + 1)).clock

theorem Forward.le (h : c.Forward) {i j : Nat} (hij : i ≤ j) :
    (c.backend i).clock ≤ (c.backend j).clock := by
  induction hij with
  | refl => exact Instant.le_refl _
  | step _ ih => exact Instant.le_trans ih (h _)

/-- A kind of aggregates whose versions never fall along the course. -/
def Rises (α : Type) [Aggregate α] [Collection α] (c : Course) : Prop :=
  ∀ {i j : Nat} (id : String), i ≤ j →
    versionOf (Collection.committed (α := α) (c.stores i)) id ≤
      versionOf (Collection.committed (α := α) (c.stores j)) id

theorem rises_orders (c : Course) : c.Rises Order :=
  fun _ hij => (c.advances hij).orders.version_le

theorem rises_menuItems (c : Course) : c.Rises MenuItem :=
  fun _ hij => (c.advances hij).menuItems.version_le

/-- New entries are of a time that has come, and their aggregates have got a new version. -/
theorem Bounded.succ (h : c.Bounded α i) (hclock : c.Forward) (hrises : c.Rises α)
    (hnew : ∀ e ∈ (c.stores (i + 1)).outbox, e ∈ (c.stores i).outbox ∨
      e.occurredAt ≤ (c.backend i).clock ∧ ∀ id, e.isAbout α id = true →
        versionOf (Collection.committed (α := α) (c.stores i)) id <
          versionOf (Collection.committed (α := α) (c.stores (i + 1))) id) :
    c.Bounded α (i + 1) := by
  intro m hm id hversion e he habout
  have hstep : versionOf (Collection.committed (α := α) (c.stores i)) id ≤
      versionOf (Collection.committed (α := α) (c.stores (i + 1))) id := hrises id (Nat.le_succ i)
  by_cases hlast : m = i + 1
  · -- every time that an entry bears has come by now
    subst hlast
    refine Instant.le_trans ?_ (hclock i)
    rcases hnew e he with hold | ⟨htime, -⟩
    · exact h i (Nat.le_refl i) id rfl e hold habout
    · exact htime
  · have hmi : m ≤ i := by omega
    have hbefore := hrises id hmi
    rcases hnew e he with hold | ⟨-, hlt⟩
    · exact h m hmi id (by omega) e hold habout
    · have := hlt id habout
      omega

/-- A commit in time of an aggregate of this kind. -/
theorem Bounded.own {policy : RetryPolicy} {a : α} (h : c.Bounded α i) (hclock : c.Forward)
    (hrises : c.Rises α) (ha : c.InTime policy i a) : c.Bounded α (i + 1) := by
  obtain ⟨m, n, -, hn, -, happended⟩ := ha
  refine h.succ hclock hrises fun e he => ?_
  rcases happended.mem_cases he with hold | ⟨htime, habout⟩
  · exact .inl hold
  · refine .inr ⟨?_, fun id hid => ?_⟩
    · rw [htime]
      exact hclock.le hn
    · rw [Entry.id_eq_of_isAbout hid habout]
      exact happended.version_lt

/-- A commit in time of an aggregate of another kind. -/
theorem Bounded.other {β : Type} [Aggregate β] [Collection β] {policy : RetryPolicy} {b : β}
    (h : c.Bounded α i) (hclock : c.Forward) (hrises : c.Rises α) (hb : c.InTime policy i b)
    (hkind : Aggregate.kind α ≠ Aggregate.kind β) : c.Bounded α (i + 1) := by
  obtain ⟨m, n, -, hn, -, happended⟩ := hb
  refine h.succ hclock hrises fun e he => ?_
  rcases happended.mem_cases he with hold | ⟨htime, habout⟩
  · exact .inl hold
  · refine .inr ⟨?_, fun id hid => absurd (Entry.kind_eq_of_isAbout hid habout) hkind⟩
    rw [htime]
    exact hclock.le hn

/-- A commit in time finds no entry about its aggregate that is later than its own. -/
theorem Bounded.log_inTime {policy : RetryPolicy} {a : α} (h : c.Bounded α i) (hclock : c.Forward)
    (ha : c.InTime policy i a) (hlog : Log.InTime (c.stores i).outbox) :
    Log.InTime (c.stores (i + 1)).outbox := by
  obtain ⟨m, n, hmn, hn, hversion, happended⟩ := ha
  refine happended.inTime hlog fun e he habout => ?_
  exact Instant.le_trans (h m (by omega) _ hversion e he habout) (hclock.le hmn)

/-- The invariant of a run. -/
structure Timely (c : Course) (i : Nat) : Prop where
  orders : c.Bounded Order i
  menuItems : c.Bounded MenuItem i
  log : Log.InTime (c.stores i).outbox

theorem Timely.of_same (h : c.Timely i) (hclock : c.Forward)
    (hsame : c.stores (i + 1) = c.stores i) : c.Timely (i + 1) where
  orders := h.orders.succ hclock c.rises_orders fun _ he => .inl (hsame ▸ he)
  menuItems := h.menuItems.succ hclock c.rises_menuItems fun _ he => .inl (hsame ▸ he)
  log := hsame ▸ h.log

theorem Timely.order {policy : RetryPolicy} {order : Order} (h : c.Timely i) (hclock : c.Forward)
    (ha : c.InTime policy i order) : c.Timely (i + 1) where
  orders := h.orders.own hclock c.rises_orders ha
  menuItems := h.menuItems.other hclock c.rises_menuItems ha Traffic.kind_ne.symm
  log := h.orders.log_inTime hclock ha h.log

theorem Timely.menuItem {policy : RetryPolicy} {item : MenuItem} (h : c.Timely i)
    (hclock : c.Forward) (ha : c.InTime policy i item) : c.Timely (i + 1) where
  orders := h.orders.other hclock c.rises_orders ha Traffic.kind_ne
  menuItems := h.menuItems.own hclock c.rises_menuItems ha
  log := h.menuItems.log_inTime hclock ha h.log

end Course

/-! ## Runs -/

namespace Traffic

variable {start : Backend} {moves : List Move} {hempty : start.stores = {}}

/-- The time to which a move sets the clock. -/
def Move.time? : Move → Option Instant
  | .setClock t => some t
  | _ => none

/-- The clock is never set back. -/
def ClockForward (start : Backend) (moves : List Move) : Prop :=
  (start.clock :: moves.filterMap Move.time?).IsChain (· ≤ ·)

/-- Only who sets the clock changes it. -/
theorem clock_after (w : Traffic) (move : Move) :
    (w.after move).backend.clock = move.time?.getD w.backend.clock := by
  cases move with
  | accept policy command => rfl
  | setClock t => rfl
  | turn k =>
    simp only [Traffic.after]
    split
    · rfl
    · rename_i r hr
      rcases r.result?_or_request? with ⟨result, hresult⟩ | ⟨request, hrequest⟩
      · rw [Running.turn_of_result? hresult]
        rfl
      · rw [Running.turn_of_request? hrequest]
        cases request with
        | unit act => rfl
        | now => rfl
        | nextId => rfl

theorem clock_moment_le {w : Traffic} {moves : List Move} (h : ClockForward w.backend moves)
    (i : Nat) : (w.moment moves i).backend.clock ≤ (w.moment moves (i + 1)).backend.clock := by
  induction moves generalizing w i with
  | nil =>
    rw [moment_of_length_le w (Nat.zero_le _), moment_of_length_le w (Nat.zero_le _)]
    exact Instant.le_refl _
  | cons move rest ih =>
    have hstep : w.backend.clock ≤ (w.after move).backend.clock ∧
        ClockForward (w.after move).backend rest := by
      rw [ClockForward, clock_after]
      rw [ClockForward, List.filterMap_cons] at h
      cases htime : move.time? with
      | none =>
        rw [htime] at h
        exact ⟨Instant.le_refl _, h⟩
      | some t =>
        rw [htime] at h
        exact List.isChain_cons_cons.mp h
    cases i with
    | zero => exact hstep.1
    | succ i => exact ih hstep.2 i

theorem forward_course (h : ClockForward start moves) (k : Nat) :
    (course hempty moves k).Forward :=
  clock_moment_le (w := ⟨start, []⟩) h

theorem timely (hempty : start.stores = {}) (hclock : ClockForward start moves)
    (htrimmed : ∀ {policy command}, .accept policy command ∈ moves →
      Text.trim command.target = command.target) (k i : Nat) :
    (course hempty moves k).Timely i := by
  induction i with
  | zero =>
    have hnil : ((course hempty moves k).stores 0).outbox = [] := congrArg Stores.outbox hempty
    constructor
    · intro m _ id _ e he
      rw [hnil] at he
      cases he
    · intro m _ id _ e he
      rw [hnil] at he
      cases he
    · rw [hnil]
      exact Log.inTime_nil
  | succ i ih =>
    rcases stores_moment_succ ⟨start, []⟩ moves i with hsame | ⟨own, hmove, hc⟩
    · exact ih.of_same (forward_course hclock k) hsame
    · obtain ⟨r, since, hr, hunderWay, hdeed⟩ := deed_of_commits hempty hmove hc
      obtain ⟨first, rfl, hfirst⟩ := hunderWay.accepted
      have htarget := htrimmed (List.mem_of_getElem? hfirst)
      -- the stores and the clock are the same, whichever command looks at them
      cases hdeed with
      | menuItem made inTime => exact ih.menuItem (forward_course hclock k) (inTime htarget)
      | order made inTime => exact ih.order (forward_course hclock k) (inTime htarget)

/-- At every point of a run from empty stores, in which the clock never goes back, the log is in
causal order, whatever has been marked in it. -/
theorem causal_order (hempty : start.stores = {}) (hclock : ClockForward start moves)
    (htrimmed : ∀ {policy command}, .accept policy command ∈ moves →
      Text.trim command.target = command.target) {log : Log}
    (hmarked : List.Forall₂ Entry.Same (run ⟨start, []⟩ moves).backend.stores.outbox log) :
    log.IsCausal := by
  have htimely := (timely hempty hclock htrimmed 0 moves.length).log
  change Log.InTime (moment ⟨start, []⟩ moves moves.length).backend.stores.outbox at htimely
  rw [moment_of_length_le _ (Nat.le_refl _)] at htimely
  exact (htimely.of_same hmarked).isCausal

/-- Two seconds after the fresh start. -/
def secondsLater : Instant :=
  { Backend.fresh.clock with second := 2, first_le := by decide, le_last := by decide }

/-- The first of two orders asks for the time, and is committed last. -/
def lateTea : List Move :=
  .accept {} .createTea :: List.replicate 9 (.turn 0) ++
    [.accept {} .placeTea,
      .accept {} (.placeOrder "o2" 5 [⟨"tea", "Tea", .whole 3 three_lt_limit96, 1⟩])] ++
    List.replicate 5 (.turn 1) ++ .setClock secondsLater :: List.replicate 13 (.turn 2) ++
    List.replicate 8 (.turn 1)

theorem lateTea_causal_order :
    let log := (run ⟨.fresh, []⟩ lateTea).backend.stores.outbox
    log.map (fun e => (e.aggregateId, e.occurredAt.second)) =
      [("tea", 0), ("o2", 2), ("o2", 2), ("o1", 0), ("o1", 0)] ∧
    log.IsCausal := by
  have htrimmed : ∀ {policy command}, .accept policy command ∈ lateTea →
      Text.trim command.target = command.target := by
    intro policy command h
    have hcommand : command = .createTea ∨ command = .placeTea ∨
        command = .placeOrder "o2" 5 [⟨"tea", "Tea", .whole 3 three_lt_limit96, 1⟩] := by
      simp [lateTea] at h
      tauto
    rcases hcommand with rfl | rfl | rfl <;> decide +kernel
  have hclock : ClockForward .fresh lateTea := by
    unfold ClockForward
    decide +kernel
  refine ⟨by decide +kernel, causal_order Backend.fresh_stores hclock htrimmed ?_⟩
  exact List.forall₂_same.mpr fun e _ => .refl e

end Traffic

end TableService
