import TableService.Proofs.Outbox.Lifecycle
import TableService.Proofs.Store.EntryIds

/-!
# What becomes of a log

- `Entry.Becomes`: an entry stays about the same event. What is over does not change at all, and
  failures that have been counted stay counted.
- `Log.Becomes`: entries keep their places and only become what an entry may become. New ones come
  behind them.
- `Log.Call`: the calls that change a log in place: an entry is saved, or the one with an id is
  marked. `Log.atomic_inPlace`: one that is refused has done nothing.
- `Log.perform_save`, `Log.perform_mark`: all that a call can do that is not refused.
- `Log.Becomes.after`: so whatever calls are made, the log becomes what a log may become.

The count of failures never goes beyond the policy's limit. An entry that is saved with a count
beyond it goes back to the limit when it fails, so what is counted stays counted up to the limit
only.
-/

namespace TableService

open InPlace

/-! ## Entries -/

namespace Entry

/-- What an entry may become. -/
structure Becomes (e e' : Entry) : Prop where
  same : e.Same e'
  /-- What is over stays as it is. -/
  final : e.status.isTerminal = true → e' = e
  /-- Up to the limit of the policy, failures stay counted, if there is room to count one more. -/
  counted : e.retryCount.toNat + 1 < UInt32.size →
    min e.retryCount.toNat e.policy.maxRetries.toNat ≤ e'.retryCount.toNat
  /-- What has been marked and is not over has attempts left. -/
  left : e'.status.isTerminal = false → e' = e ∨ e'.canRetry = true

variable {e e' : Entry} {now : Instant}

theorem Becomes.refl (e : Entry) : e.Becomes e where
  same := .refl e
  final _ := rfl
  counted _ := Nat.min_le_left ..
  left _ := .inl rfl

theorem Becomes.trans {a b c : Entry} (h : a.Becomes b) (h' : b.Becomes c) : a.Becomes c where
  same := h.same.trans h'.same
  final hover := by
    obtain rfl := h.final hover
    exact h'.final hover
  counted hroom := by
    cases hstatus : b.status.isTerminal with
    | true =>
      rw [h'.final hstatus]
      exact h.counted hroom
    | false =>
      rcases h.left hstatus with rfl | hretry
      · exact h'.counted hroom
      · -- the count is below the limit, so there is room for one more
        have hlt := lt_of_canRetry hretry
        have hlimit := b.policy.maxRetries.toNat_lt_size
        have hfirst := h.counted hroom
        have hsecond := h'.counted (by omega)
        rw [← h.same.policy] at hfirst ⊢
        omega
  left hopen := by
    rcases h'.left hopen with rfl | hretry
    · exact h.left hopen
    · exact .inr hretry

/-- An open entry may become whatever keeps its count and is over. -/
theorem Becomes.of_isTerminal (hopen : e.status.isTerminal = false) (hsame : e.Same e')
    (hover : e'.status.isTerminal = true) (hcount : e'.retryCount = e.retryCount) :
    e.Becomes e' where
  same := hsame
  final h := by
    rw [hopen] at h
    cases h
  counted _ := by
    rw [hcount]
    exact Nat.min_le_left ..
  left h := by
    rw [hover] at h
    cases h

theorem Becomes.markProcessed (h : e.markProcessed now = .ok e') : e.Becomes e' := by
  obtain ⟨hopen, rfl⟩ := of_markProcessed_eq_ok h
  exact .of_isTerminal hopen ⟨rfl, rfl, rfl, rfl, rfl, rfl, rfl⟩ rfl rfl

theorem Becomes.markDeadLettered {reason : Option String} (h : e.markDeadLettered reason = .ok e') :
    e.Becomes e' := by
  obtain ⟨hopen, rfl⟩ := of_markDeadLettered_eq_ok h
  exact .of_isTerminal hopen ⟨rfl, rfl, rfl, rfl, rfl, rfl, rfl⟩ rfl rfl

theorem Becomes.markFailed {error : String} (h : e.markFailed error now = .ok e') :
    e.Becomes e' := by
  have hopen := isOpen_of_markFailed_eq_ok h
  obtain ⟨hsame, hcount, hleft⟩ := of_markFailed_eq_ok h
  refine ⟨hsame, fun hover => ?_, fun hroom => ?_, fun hstatus => ?_⟩
  · rw [hopen] at hover
    cases hover
  · have hnext : (e.retryCount + 1).toNat = e.retryCount.toNat + 1 := by
      rw [UInt32.toNat_add, UInt32.toNat_one]
      exact Nat.mod_eq_of_lt hroom
    rw [hcount, UInt32.toNat_min, hnext]
    omega
  · rcases hleft with hdead | hretry
    · rw [hdead] at hstatus
      cases hstatus
    · exact .inr hretry

end Entry

/-! ## Logs -/

namespace Log

variable {log log' : Log} {e e' : Entry} {now : Instant} {id : String}

/-- What a log may become. -/
def Becomes (log log' : Log) : Prop :=
  ∀ ⦃k : Nat⦄ ⦃e : Entry⦄, log[k]? = some e → ∃ e', log'[k]? = some e' ∧ e.Becomes e'

theorem Becomes.refl (log : Log) : log.Becomes log :=
  fun _ e he => ⟨e, he, .refl e⟩

theorem Becomes.of_eq (h : log' = log) : log.Becomes log' := by
  rw [h]
  exact .refl log

theorem Becomes.trans {a b c : Log} (h : a.Becomes b) (h' : b.Becomes c) : a.Becomes c := by
  intro k e he
  obtain ⟨e', he', hfirst⟩ := h he
  obtain ⟨e'', he'', hsecond⟩ := h' he'
  exact ⟨e'', he'', hfirst.trans hsecond⟩

theorem Becomes.append (log more : Log) : log.Becomes (log ++ more) := by
  intro k e he
  have hk : k < log.length := (List.getElem?_eq_some_iff.mp he).1
  refine ⟨e, ?_, .refl e⟩
  rw [List.getElem?_append_left hk]
  exact he

theorem Becomes.set {k : Nat} (he : log[k]? = some e) (h : e.Becomes e') :
    Becomes log (log.set k e') := by
  intro i x hx
  by_cases hi : k = i
  · subst hi
    obtain rfl : e = x := Option.some.inj (he.symm.trans hx)
    have hk : k < log.length := (List.getElem?_eq_some_iff.mp he).1
    exact ⟨e', List.getElem?_set_self hk, h⟩
  · refine ⟨x, ?_, .refl x⟩
    rw [List.getElem?_set_ne hi]
    exact hx

/-- No entry is ever removed. -/
theorem Becomes.length_le (h : log.Becomes log') : log.length ≤ log'.length := by
  by_contra hlt
  have hk : log'.length < log.length := Nat.lt_of_not_le hlt
  obtain ⟨e', he', -⟩ := h (List.getElem?_eq_getElem hk)
  exact absurd (List.getElem?_eq_some_iff.mp he').1 (Nat.lt_irrefl _)

/-! ## Calls -/

/-- A mark that is not refused changes the entry in one place, which has the id. -/
theorem of_change_mark_eq_ok {α : Type} {m : EntryM α}
    (h : log.change (LogM.mark id m) = .ok (e', log')) :
    ∃ k e, log[k]? = some e ∧ e.id = id ∧ e.change m = .ok e' ∧ log' = log.set k e' := by
  rw [change_mark_eq] at h
  cases hfound : log.find? id with
  | none =>
    rw [hfound] at h
    cases h
  | some e =>
    rw [hfound] at h
    dsimp only at h
    cases hm : e.change m with
    | error err =>
      rw [hm] at h
      cases h
    | ok x =>
      rw [hm] at h
      cases h
      obtain ⟨k, hk, heq⟩ := exists_updateFirst_eq_set hfound fun _ => e'
      exact ⟨k, e, hk, by simpa using List.find?_some hfound, hm, heq⟩

/-- A call that changes the log. -/
inductive Call where
  | save (entry : Entry)
  | markProcessed (id : String)
  | markFailed (id error : String)
  | markDeadLettered (id : String)

/-- The id of the entry that is marked. -/
def Call.marked? : Call → Option String
  | .save _ => none
  | .markProcessed id | .markFailed id _ | .markDeadLettered id => some id

/-- A call as a change in place. -/
def Call.inPlace (now : Instant) : Call → LogM Unit
  | .save entry => LogM.save entry
  | .markProcessed id => do
    let _ ← LogM.markProcessed now id
  | .markFailed id error => do
    let _ ← LogM.markFailed now id error
  | .markDeadLettered id => do
    let _ ← LogM.markDeadLettered id

/-- The new log, unless the call is refused. -/
def perform (log : Log) (now : Instant) (call : Call) : Except OutboxError Log :=
  (log.change (call.inPlace now)).map Prod.snd

/-- The log after a call, as the call leaves it in place, whether or not it is refused. -/
def after (log : Log) (now : Instant) (call : Call) : Log :=
  ((call.inPlace now).run.run log).2

theorem after_of_ok {call : Call} (h : log.perform now call = .ok log') :
    log.after now call = log' := by
  unfold perform change at h
  rw [after]
  rcases hrun : (call.inPlace now).run.run log with ⟨_ | _, log''⟩
  · rw [hrun] at h
    cases h
  · rw [hrun] at h
    cases h
    rfl

/-- A call that is refused has done nothing. -/
theorem atomic_inPlace (log : Log) (now : Instant) (call : Call) :
    Atomic (call.inPlace now) log := by
  cases call with
  | save entry => exact LogM.atomic_save entry log
  | markProcessed id =>
    exact (LogM.atomic_mark (EntryM.atomic_markProcessed now) id log).bind_pure
  | markFailed id error =>
    exact (LogM.atomic_mark (EntryM.atomic_markFailed error now) id log).bind_pure
  | markDeadLettered id =>
    exact (LogM.atomic_mark (EntryM.atomic_markDeadLettered _) id log).bind_pure

theorem after_of_error {call : Call} {err : OutboxError} (h : log.perform now call = .error err) :
    log.after now call = log := by
  unfold perform change at h
  rw [after]
  rcases hrun : (call.inPlace now).run.run log with ⟨_ | _, log''⟩
  · exact atomic_inPlace log now call _ _ hrun
  · rw [hrun] at h
    cases h

/-- An entry is saved at the end of the log if its id is new. -/
theorem perform_save {entry : Entry} (h : log.perform now (.save entry) = .ok log') :
    log.IsFree entry.id ∧ log' = log ++ [entry] := by
  rw [perform, change, Call.inPlace] at h
  rcases log.run_save_cases entry with ⟨hfree, hrun⟩ | ⟨-, hrun⟩
  · rw [hrun] at h
    cases h
    exact ⟨hfree, rfl⟩
  · rw [hrun] at h
    cases h

/-- One entry has been marked, which has the id and is open. Nothing else has changed. -/
inductive Marks (log : Log) (id : String) : Log → Prop where
  | mark {k : Nat} {e e' : Entry} (place : log[k]? = some e) (named : e.id = id)
    (isOpen : e.status.isTerminal = false) (becomes : e.Becomes e') : Marks log id (log.set k e')

/-- A transition that is refused to what is over makes a mark. -/
theorem Marks.of_change {α : Type} {m : EntryM α}
    (hm : ∀ {e e' : Entry}, e.change m = .ok e' → e.status.isTerminal = false ∧ e.Becomes e')
    (h : log.change (LogM.mark id m) = .ok (e', log')) : log.Marks id log' := by
  obtain ⟨k, e, hk, hid, he, rfl⟩ := of_change_mark_eq_ok h
  exact .mark hk hid (hm he).1 (hm he).2

theorem Marks.markProcessed (h : log.markProcessed now id = .ok (e', log')) :
    log.Marks id log' :=
  .of_change (fun hmark => ⟨(Entry.of_markProcessed_eq_ok hmark).1, .markProcessed hmark⟩) h

theorem Marks.markFailed {error : String} (h : log.markFailed now id error = .ok (e', log')) :
    log.Marks id log' :=
  .of_change (fun hmark => ⟨Entry.isOpen_of_markFailed_eq_ok hmark, .markFailed hmark⟩) h

theorem Marks.markDeadLettered (h : log.markDeadLettered id = .ok (e', log')) :
    log.Marks id log' :=
  .of_change
    (fun hmark => ⟨(Entry.of_markDeadLettered_eq_ok hmark).1, .markDeadLettered hmark⟩) h

theorem Marks.log_becomes (h : log.Marks id log') : log.Becomes log' := by
  obtain ⟨place, -, -, becomes⟩ := h
  exact .set place becomes

/-- What is behind a change is behind it as well when its answer is let go of. -/
theorem of_change_discard_eq_ok {α : Type} {m : LogM α}
    (h : (log.change (m >>= fun _ => pure ())).map Prod.snd = .ok log') :
    ∃ a, log.change m = .ok (a, log') := by
  rw [change, run_bind] at h
  rcases hrun : m.run.run log with ⟨_ | a, log''⟩
  · rw [hrun] at h
    cases h
  · rw [hrun] at h
    cases h
    refine ⟨a, ?_⟩
    rw [change, hrun]

/-- A mark that is not refused changes one entry, which is open and has the id. -/
theorem perform_mark {call : Call} (hid : call.marked? = some id)
    (h : log.perform now call = .ok log') : log.Marks id log' := by
  cases call with
  | save entry => cases hid
  | markProcessed _ =>
    cases hid
    obtain ⟨e', hmark⟩ := of_change_discard_eq_ok h
    exact .markProcessed hmark
  | markFailed _ error =>
    cases hid
    obtain ⟨e', hmark⟩ := of_change_discard_eq_ok h
    exact .markFailed hmark
  | markDeadLettered _ =>
    cases hid
    obtain ⟨e', hmark⟩ := of_change_discard_eq_ok h
    exact .markDeadLettered hmark

/-- A change that makes a mark or is refused, as it leaves the log. -/
theorem Becomes.of_run {α : Type} {m : LogM α} (hm : Atomic m log)
    (h : ∀ {a log'}, log.change m = .ok (a, log') → log.Marks id log') :
    log.Becomes (m.run.run log).2 := by
  rcases hrun : m.run.run log with ⟨err | a, log'⟩
  · exact .of_eq (hm _ _ hrun)
  · have hok : log.change m = .ok (a, log') := by rw [change, hrun]
    exact (h hok).log_becomes

/-- Whatever call is made, and whether or not it is refused. -/
theorem Becomes.after (log : Log) (now : Instant) (call : Call) :
    log.Becomes (log.after now call) := by
  cases hcall : log.perform now call with
  | error err =>
    rw [after_of_error hcall]
    exact .refl log
  | ok log' =>
    rw [after_of_ok hcall]
    cases hid : call.marked? with
    | none =>
      cases call with
      | save entry =>
        rw [(perform_save hcall).2]
        exact .append log [entry]
      | _ => cases hid
    | some id =>
      exact (perform_mark hid hcall).log_becomes

end Log

end TableService
