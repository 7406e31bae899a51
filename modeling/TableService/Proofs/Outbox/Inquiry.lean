import TableService.Proofs.Outbox.Schedule
import TableService.Proofs.Outbox.Selection
import TableService.Proofs.Store.Tables

/-!
# Questions about the log

- `Entry.Reached`: an entry as calls on a new one may have left it.
- `Entry.isDue_atEnd`: at the end of time every such entry that is open is due.
- `Log.Answers`: how the queries go together: what is pending, what is given up, and the counts.
- `Log.answers`: so it is for any log.
-/

namespace TableService

/-! ## The end of time -/

namespace Instant

/-- The greatest time, which is in a leap second. -/
def greatest : Instant := ⟨lastSecond, 2 * giga - 1, latest.first_le, latest.le_last, by decide⟩

theorem le_greatest (t : Instant) : t ≤ greatest := by
  have hsecond := t.le_last
  have hnano := t.nano_lt
  rw [le_def]
  show t.second < lastSecond ∨ t.second = lastSecond ∧ t.nano ≤ 2 * giga - 1
  omega

end Instant

namespace Entry

/-- The time that a call is made at, if it matters. -/
def Call.time? : Call → Option Instant
  | .markProcessed now | .markFailed _ now => some now
  | .withPolicy .. | .markDeadLettered _ => none

/-- An entry as it is after calls on a new one, none of them later than `last`. -/
inductive ReachedBy (last : Instant) : Entry → Prop where
  | run {id : String} {event : DomainEvent} {aggregateId aggregateType : String}
      {occurredAt : Instant} {e : Entry}
      (create : create id event aggregateId aggregateType occurredAt = .ok e) {calls : List Call}
      (inTime : ∀ call ∈ calls, ∀ t ∈ call.time?, t ≤ last) : ReachedBy last (e.run calls)

/-- Calls may be made at any time. -/
abbrev Reached (e : Entry) : Prop := e.ReachedBy .greatest

/-- The next attempt is not later than `last`. -/
def IsScheduledBy (last : Instant) (e : Entry) : Prop := ∀ t ∈ e.nextRetryAt, t ≤ last

variable {last now next : Instant} {e e' : Entry}

theorem DueAgain.next_le {failures : UInt32} (h : e.DueAgain failures now next) (hnow : now ≤ last)
    (hlast : .latest ≤ last) : next ≤ last := by
  by_cases hle : now ≤ .latest
  · have hmoment : next.moment ≤ Instant.latest.moment := by
      rw [h.exact hle]
      exact min_le_right _ _
    exact Instant.le_trans (Instant.moment_le_moment.mp hmoment) hlast
  · rw [h.beyond hle]
    split
    · exact hnow
    · exact hlast

theorem isScheduledBy_of_eq_none (h : e.nextRetryAt = none) : e.IsScheduledBy last := by
  intro t ht
  rw [h] at ht
  cases ht

theorem IsScheduledBy.markFailed {error : String} (hcons : e.Consistent) (hlast : .latest ≤ last)
    (hnow : now ≤ last) (hfail : e.markFailed error now = .ok e') : e'.IsScheduledBy last := by
  obtain ⟨e₁, hok, hmade⟩ :=
    hcons.rescheduled (isOpen_of_markFailed_eq_ok hfail) error now
  obtain rfl : e₁ = e' := Except.ok.inj (hok.symm.trans hfail)
  by_cases hspent : e₁.retryCount = e.policy.maxRetries
  · exact isScheduledBy_of_eq_none (hmade.spent hspent).2
  · obtain ⟨-, next, hdue⟩ := hmade.retried hspent
    intro t ht
    rw [hdue.scheduled] at ht
    cases ht
    exact hdue.next_le hnow hlast

theorem IsScheduledBy.after (h : e.IsScheduledBy last) (hcons : e.Consistent)
    (hlast : .latest ≤ last) {call : Call} (hcall : ∀ t ∈ call.time?, t ≤ last) :
    (e.after call).IsScheduledBy last := by
  cases hperform : e.perform call with
  | error err =>
    rw [after_of_error hperform]
    exact h
  | ok e' =>
    rw [after_of_ok hperform]
    cases call with
    | withPolicy maxRetries baseDelaySeconds =>
      rw [perform_withPolicy] at hperform
      obtain ⟨policy, -, hnew⟩ := bind_ok hperform
      obtain ⟨-, -, rfl⟩ := of_withPolicy_eq_ok hnew
      exact h
    | markProcessed t =>
      obtain ⟨-, rfl⟩ := of_markProcessed_eq_ok hperform
      exact isScheduledBy_of_eq_none rfl
    | markDeadLettered reason =>
      obtain ⟨-, rfl⟩ := of_markDeadLettered_eq_ok hperform
      exact isScheduledBy_of_eq_none rfl
    | markFailed error t =>
      rw [perform_markFailed] at hperform
      exact .markFailed hcons hlast (hcall t rfl) hperform

theorem IsScheduledBy.run (h : e.IsScheduledBy last) (hcons : e.Consistent)
    (hlast : .latest ≤ last) {calls : List Call}
    (hcalls : ∀ call ∈ calls, ∀ t ∈ call.time?, t ≤ last) : (e.run calls).IsScheduledBy last := by
  induction calls generalizing e with
  | nil => exact h
  | cons call rest ih =>
    refine ih (h.after hcons hlast (hcalls call List.mem_cons_self)) (hcons.after call) ?_
    exact fun c hc => hcalls c (List.mem_cons_of_mem _ hc)

namespace ReachedBy

theorem consistent (h : e.ReachedBy last) : e.Consistent := by
  obtain ⟨create, -⟩ := h
  exact (Consistent.create create).run _

theorem isScheduledBy (h : e.ReachedBy last) (hlast : .latest ≤ last) : e.IsScheduledBy last := by
  obtain ⟨create, inTime⟩ := h
  refine IsScheduledBy.run ?_ (Consistent.create create) hlast inTime
  obtain ⟨data, -, rfl⟩ := create_ok create
  exact isScheduledBy_of_eq_none rfl

/-- At the end of time whatever is open is due. -/
theorem isDue_iff (h : e.ReachedBy last) (hlast : .latest ≤ last) :
    e.isDue last = true ↔ e.status = .pending ∨ e.status = .failed := by
  rw [h.consistent.isDue_iff]
  refine or_congr_right ⟨And.left, fun hfailed => ⟨hfailed, ?_⟩⟩
  obtain ⟨t, ht⟩ := Option.isSome_iff_exists.mp (h.consistent.scheduled.mpr hfailed)
  exact ⟨t, ht, h.isScheduledBy hlast t ht⟩

end ReachedBy

end Entry

/-! ## Counts -/

namespace Log

variable {log : Log} {last : Instant}

/-- Every entry has one of the four statuses. -/
theorem sum_count (log : Log) : (EntryStatus.all.map log.stats.count).sum = log.length := by
  show log.countP (·.status = .pending) + (log.countP (·.status = .processed) +
    (log.countP (·.status = .failed) + (log.countP (·.status = .deadLettered) + 0))) = _
  induction log with
  | nil => rfl
  | cons e rest ih =>
    simp only [List.countP_cons, List.length_cons]
    cases hstatus : e.status with
    | _ =>
      simp only [decide_true, decide_false, reduceCtorEq, if_true, if_false, Bool.false_eq_true]
      omega

theorem countP_isDue (hlast : .latest ≤ last) (h : ∀ e ∈ log, e.ReachedBy last) :
    log.countP (·.isDue last) = log.stats.count .pending + log.stats.count .failed := by
  show _ = log.countP (·.status = .pending) + log.countP (·.status = .failed)
  induction log with
  | nil => rfl
  | cons e rest ih =>
    have hdue := (h e List.mem_cons_self).isDue_iff hlast
    rw [List.countP_cons, List.countP_cons, List.countP_cons,
      ih fun e' he => h e' (List.mem_cons_of_mem _ he)]
    cases hstatus : e.status with
    | _ =>
      simp only [hstatus, reduceCtorEq, or_false, or_true, iff_true, iff_false,
        Bool.not_eq_true] at hdue
      simp only [hdue, decide_true, decide_false, reduceCtorEq, if_true, if_false,
        Bool.false_eq_true]
      omega

/-- How many entries of this type are given up. -/
def deadOfType (log : Log) (eventType : String) : Nat :=
  log.countP fun e => e.status = .deadLettered ∧ e.eventType = eventType

theorem count_deadByType (log : Log) (eventType : String) :
    ((log.filter (·.status = .deadLettered)).map (·.eventType)).count eventType =
      log.deadOfType eventType := by
  rw [List.count, List.countP_map, List.countP_filter, deadOfType]
  refine List.countP_congr fun e _ => ?_
  simp [and_comm]

theorem length_pending (log : Log) (now : Instant) (limit : Nat) :
    (log.pending now limit).length = min limit (log.countP (·.isDue now)) := by
  rw [pending, ← map_fst_selectedAt, List.length_map,
    (log.isSelection (·.isDue now) limit).length]

theorem length_deadLettered (log : Log) (limit : Nat) :
    (log.deadLettered limit).length = min limit (log.stats.count .deadLettered) := by
  rw [deadLettered, ← map_fst_selectedAt, List.length_map,
    (log.isSelection (·.status = .deadLettered) limit).length]
  rfl

/-- A limit that is not smaller than the log is none. -/
theorem length_pending_atEnd {limit : Nat} (hlimit : log.length ≤ limit) (hlast : .latest ≤ last)
    (h : ∀ e ∈ log, e.ReachedBy last) :
    (log.pending last limit).length = log.stats.count .pending + log.stats.count .failed := by
  rw [length_pending, Nat.min_eq_right (List.countP_le_length.trans hlimit),
    countP_isDue hlast h]

/-! ## The queries together -/

/-- What the queries of a log answer. -/
structure Answers (log : Log) : Prop where
  pending (now : Instant) (limit : Nat) : ∃ places,
    places.map Prod.fst = log.pending now limit ∧ log.IsSelection (·.isDue now) limit places
  pending_mono (now : Instant) {limit more : Nat} : limit ≤ more →
    log.pending now limit <+: log.pending now more
  dead (limit : Nat) : ∃ places,
    places.map Prod.fst = log.deadLettered limit ∧
      log.IsSelection (·.status = .deadLettered) limit places
  dead_mono {limit more : Nat} : limit ≤ more → log.deadLettered limit <+: log.deadLettered more
  total : log.stats.total = log.length ∧
    log.stats.total = (EntryStatus.all.map log.stats.count).sum
  dead_total {limit : Nat} : log.length ≤ limit →
    (log.deadLettered limit).length = log.stats.count .deadLettered
  dead_sum : log.stats.deadByType.values.sum = log.stats.count .deadLettered
  /-- A type that nothing is given up of is not listed. -/
  dead_ofType {eventType : String} {n : Nat} :
    log.stats.deadByType[eventType]? = some n ↔ 0 < n ∧ log.deadOfType eventType = n
  /-- At the greatest time all that is open is due, whatever has happened to it. -/
  open_atGreatest {limit : Nat} : log.length ≤ limit → (∀ e ∈ log, e.Reached) →
    (log.pending .greatest limit).length = log.stats.count .pending + log.stats.count .failed
  /-- So it is at the greatest time that is in no leap second, if nothing has happened later. -/
  open_atLatest {limit : Nat} : log.length ≤ limit → (∀ e ∈ log, e.ReachedBy .latest) →
    (log.pending .latest limit).length = log.stats.count .pending + log.stats.count .failed

/-- What is pending and what is given up are the first of their kind by time, and by place for equal
times. The counts agree with them. -/
theorem answers (log : Log) : log.Answers where
  pending now limit := ⟨_, log.map_fst_selectedAt _ limit, log.isSelection (·.isDue now) limit⟩
  pending_mono now {limit more} h := List.take_prefix_take_left h
  dead limit :=
    ⟨_, log.map_fst_selectedAt _ limit, log.isSelection (·.status = .deadLettered) limit⟩
  dead_mono {limit more} h := List.take_prefix_take_left h
  total := ⟨rfl, log.sum_count.symm⟩
  dead_total {limit} h := by
    rw [length_deadLettered, Nat.min_eq_right]
    exact List.countP_le_length.trans h
  dead_sum := by
    rw [stats, sum_values_tally, List.length_map, ← List.countP_eq_length_filter]
  dead_ofType {eventType n} := by
    rw [stats, getElem?_tally, count_deadByType]
  open_atGreatest {limit} hlimit h := length_pending_atEnd hlimit (Instant.le_greatest _) h
  open_atLatest {limit} hlimit h := length_pending_atEnd hlimit (Instant.le_refl _) h

/-- An entry that is new, one that has failed and one that was given up, all of one time. -/
def threeKinds : Log :=
  let entry (id : String) : Entry := ⟨id, "MenuItemSoldOut", [("menu_item_id", .str "m-1")], "m-1",
    "MenuItem", .latest, .pending, 0, {}, none, none, none⟩
  [(entry "e-1").run [], (entry "e-2").run [.markFailed "down" .latest],
    (entry "e-3").run [.markDeadLettered none]]

theorem threeKinds_answers : (∀ e ∈ threeKinds, e.Reached) ∧ threeKinds.Answers ∧
    (threeKinds.pending .greatest 3).length = 2 ∧ (threeKinds.deadLettered 3).length = 1 := by
  have hreached : ∀ e ∈ threeKinds, e.Reached := by
    have hevent (id : String) (h : Text.required? id = some id) : Entry.create id
        (.ofFields "MenuItemSoldOut" [("menu_item_id", .str "m-1")]) "m-1" "MenuItem" .latest =
          .ok ⟨id, "MenuItemSoldOut", [("menu_item_id", .str "m-1")], "m-1", "MenuItem", .latest,
            .pending, 0, {}, none, none, none⟩ := by
      simp only [Entry.create, Entry.requireField, h]
      rfl
    intro e he
    simp only [threeKinds, List.mem_cons, List.not_mem_nil, or_false] at he
    rcases he with rfl | rfl | rfl
    · exact .run (hevent "e-1" (by decide)) fun _ _ t _ => Instant.le_greatest t
    · exact .run (hevent "e-2" (by decide)) fun _ _ t _ => Instant.le_greatest t
    · exact .run (hevent "e-3" (by decide)) fun _ _ t _ => Instant.le_greatest t
  have hanswers := answers threeKinds
  exact ⟨hreached, hanswers, hanswers.open_atGreatest (Nat.le_refl 3) hreached,
    hanswers.dead_total (Nat.le_refl 3)⟩

end Log

end TableService
