import TableService.Proofs.Outbox.Lifecycle
import TableService.Proofs.Time.Later

/-!
# When a failed entry is attempted again

- `RetryPolicy.backoff_eq`: words that are cut come to the same delay as numbers without a limit.
- `RetryPolicy.Exact`: each step of the computation is exact or at its limit, and delays do not get
  shorter.
- `Entry.Rescheduled`: what a failed attempt comes to.
- `Entry.retry_schedule`: so it is with each entry that is open, at any time.

The latest time of the calendar is not in a leap second. A time in a leap second behind it is beyond
the end: an entry that fails there is due at that time if there is no delay, and at the end
otherwise, which is earlier.
-/

namespace TableService

/-! ## Delays -/

namespace RetryPolicy

/-- The delay in seconds after so many failures, without a limit. -/
def exactDelay (policy : RetryPolicy) (failures : UInt32) : ℕ :=
  policy.baseDelaySeconds.toNat * 2 ^ (max failures.toNat 1 - 1)

theorem toNat_factor (failures : UInt32) :
    (factor failures).toNat = min (2 ^ (max failures.toNat 1 - 1)) (limit64 - 1) := by
  rw [factor, Word.toNat_getD_bit?, Nat.one_shiftLeft]
  congr 2
  split
  · rename_i hzero
    rw [hzero]
    rfl
  · rename_i hpos
    have hone : 1 ≤ failures.toNat := UInt32.pos_iff_ne_zero.mpr hpos
    rw [UInt32.toNat_sub_of_le _ _ hone, Nat.max_eq_left hone]
    rfl

/-- To cut the factor does not matter, unless the product is cut as well. -/
theorem toNat_delaySeconds (policy : RetryPolicy) (failures : UInt32) :
    (policy.delaySeconds failures).toNat = min (policy.exactDelay failures) (limit64 - 1) := by
  rw [delaySeconds, Word.toNat_times, UInt32.toNat_toUInt64, toNat_factor, exactDelay]
  generalize policy.baseDelaySeconds.toNat = base
  generalize 2 ^ (max failures.toNat 1 - 1) = power
  rcases Nat.le_total power (limit64 - 1) with hle | hle
  · rw [Nat.min_eq_left hle]
  · rw [Nat.min_eq_right hle]
    rcases Nat.eq_zero_or_pos base with rfl | hpos
    · rw [Nat.zero_mul, Nat.zero_mul]
    · rw [Nat.min_eq_right (Nat.le_mul_of_pos_left _ hpos),
        Nat.min_eq_right (hle.trans (Nat.le_mul_of_pos_left _ hpos))]

/-- A number of seconds that is no signed word is no span either. -/
theorem ofParts?_signed? (seconds : UInt64) :
    ((Word.signed? seconds).bind (Span.ofParts? · 0)).getD .longest =
      .ofSeconds seconds.toNat := by
  unfold Word.signed?
  split
  · rw [Option.bind_some, Span.getD_ofParts?]
  · rename_i hlarge
    have hlong : Span.longestSeconds < limit63 := by decide
    rw [Option.bind_none, Option.getD_none,
      Span.ofSeconds_of_lt (hlong.trans_le (Nat.not_lt.mp hlarge))]

theorem backoff_eq (policy : RetryPolicy) (failures : UInt32) :
    policy.backoff failures = .ofSeconds (policy.exactDelay failures) := by
  rw [backoff, ofParts?_signed?, toNat_delaySeconds]
  rcases Nat.le_total (policy.exactDelay failures) (limit64 - 1) with hle | hle
  · rw [Nat.min_eq_left hle]
  · -- both are longer than the longest span
    rw [Nat.min_eq_right hle, Span.ofSeconds_of_lt (by decide), Span.ofSeconds_of_lt]
    exact Nat.lt_of_lt_of_le (by decide) hle

theorem exactDelay_mono (policy : RetryPolicy) {failures more : UInt32} (h : failures ≤ more) :
    policy.exactDelay failures ≤ policy.exactDelay more := by
  have hle : failures.toNat ≤ more.toNat := UInt32.le_iff_toNat_le.mp h
  exact Nat.mul_le_mul_left _ (Nat.pow_le_pow_right (by decide) (by omega))

/-- The delay after so many failures is the exact one as far as there are such numbers. -/
structure Exact (policy : RetryPolicy) (failures : UInt32) : Prop where
  factor : (factor failures).toNat = min (2 ^ (max failures.toNat 1 - 1)) (limit64 - 1)
  seconds : (policy.delaySeconds failures).toNat = min (policy.exactDelay failures) (limit64 - 1)
  span : (policy.backoff failures).nanos =
    min (policy.exactDelay failures * giga : ℤ) Span.longest.nanos
  cut : Span.longestSeconds < policy.exactDelay failures → policy.backoff failures = .longest
  mono {more : UInt32} : failures ≤ more →
    (policy.backoff failures).nanos ≤ (policy.backoff more).nanos

theorem exact (policy : RetryPolicy) (failures : UInt32) : policy.Exact failures where
  factor := toNat_factor failures
  seconds := policy.toNat_delaySeconds failures
  span := by rw [backoff_eq, Span.nanos_ofSeconds]
  cut h := by rw [backoff_eq, Span.ofSeconds_of_lt h]
  mono {more} h := by
    have hdelay :
        policy.exactDelay failures * (giga : ℤ) ≤ policy.exactDelay more * (giga : ℤ) := by
      have hle := policy.exactDelay_mono h
      simp only [giga]
      omega
    rw [backoff_eq, backoff_eq, Span.nanos_ofSeconds, Span.nanos_ofSeconds]
    omega

end RetryPolicy

/-! ## Failed attempts -/

namespace Entry

/-- The next attempt of an entry is at the time `next`; the last one failed at `now` and was the
`failures`-th. -/
structure DueAgain (e : Entry) (failures : UInt32) (now next : Instant) : Prop where
  scheduled : e.nextRetryAt = some next
  exact : now ≤ .latest →
    next.moment = min (now.later (e.policy.exactDelay failures)) Instant.latest.moment
  notBefore : now ≤ .latest → now ≤ next
  /-- In a leap second behind the latest time. -/
  beyond : ¬ now ≤ .latest → next = if e.policy.baseDelaySeconds = 0 then now else .latest
  due (t : Instant) : e.isDue t = true ↔ next ≤ t

/-- What comes of an open entry whose attempt fails at this time. -/
structure Rescheduled (e : Entry) (now : Instant) (e' : Entry) : Prop where
  counted : e'.retryCount.toNat = e.retryCount.toNat + 1
  policy : e'.policy = e.policy
  spent : e'.retryCount = e.policy.maxRetries → e'.status = .deadLettered ∧ e'.nextRetryAt = none
  retried : e'.retryCount ≠ e.policy.maxRetries →
    e'.status = .failed ∧ ∃ next, e'.DueAgain e'.retryCount now next

theorem dueAgain {e : Entry} {failures : UInt32} {now : Instant} (hcons : e.Consistent)
    (hfailed : e.status = .failed)
    (hnext : e.nextRetryAt = some ((now.add? (e.policy.backoff failures)).getD .latest)) :
    e.DueAgain failures now ((now.add? (e.policy.backoff failures)).getD .latest) := by
  have hmoment := now.moment_getD_add? (e.policy.exactDelay failures)
  rw [← RetryPolicy.backoff_eq] at hmoment
  have hexact : now ≤ .latest →
      ((now.add? (e.policy.backoff failures)).getD .latest).moment =
        min (now.later (e.policy.exactDelay failures)) Instant.latest.moment := by
    intro hle
    rw [hmoment]
    split
    · rename_i hzero
      rw [hzero, Instant.later_zero, min_eq_left (Instant.moment_le_moment.mpr hle)]
    · rfl
  refine ⟨hnext, hexact, ?_, ?_, ?_⟩
  · intro hle
    rw [← Instant.moment_le_moment, hexact hle]
    exact le_min (now.moment_le_later _) (Instant.moment_le_moment.mpr hle)
  · intro hbeyond
    have hzero : e.policy.exactDelay failures = 0 ↔ e.policy.baseDelaySeconds = 0 := by
      rw [RetryPolicy.exactDelay, Nat.mul_eq_zero, ← UInt32.toNat_inj]
      simp
    refine Instant.moment_injective (hmoment.trans ?_)
    simp only [hzero]
    split
    · rfl
    · -- the exact time is even later
      have hlate : Instant.latest.moment ≤ now.moment :=
        (le_total _ _).resolve_right fun h => hbeyond (Instant.moment_le_moment.mp h)
      rw [min_eq_right (hlate.trans (now.moment_le_later _))]
  · intro t
    rw [hcons.isDue_iff, hfailed, hnext]
    simp

theorem Consistent.rescheduled {e : Entry} (h : e.Consistent) (hopen : e.status.isTerminal = false)
    (error : String) (now : Instant) :
    ∃ e', e.markFailed error now = .ok e' ∧ e.Rescheduled now e' := by
  have hretry := h.canRetry hopen
  have hcount := toNat_retryCount_add_one hretry
  rcases markFailed_of_canRetry error now hopen hretry with ⟨hmore, hok⟩ | ⟨hlast, hok⟩
  · refine ⟨_, hok, hcount, rfl, ?_, ?_⟩
    · intro heq
      rw [show e.retryCount + 1 = e.policy.maxRetries from heq] at hmore
      exact absurd hmore (UInt32.lt_irrefl _)
    · exact fun _ => ⟨rfl, _, dueAgain (h.markFailed hok) rfl rfl⟩
  · exact ⟨_, hok, hcount, rfl, fun _ => ⟨rfl, rfl⟩, fun hne => absurd hlast hne⟩

/-- Whatever has happened to an entry, as long as it is open an attempt may fail at any time. The
last attempt of its policy ends it. Otherwise it is due again after the exact delay, or at the
latest time if that is before it, and never before it has failed. -/
theorem retry_schedule {id : String} {event : DomainEvent} {aggregateId aggregateType : String}
    {occurredAt : Instant} {e : Entry}
    (h : create id event aggregateId aggregateType occurredAt = .ok e) (calls : List Call)
    (hopen : (e.run calls).status.isTerminal = false) (error : String) (now : Instant) :
    (∃ e', (e.run calls).markFailed error now = .ok e' ∧ (e.run calls).Rescheduled now e') ∧
      ∀ (policy : RetryPolicy) (failures : UInt32), policy.Exact failures :=
  ⟨((Consistent.create h).run calls).rescheduled hopen error now, RetryPolicy.exact⟩

/-- An ordinary time, a quarter of a second into its second. -/
def opening : Instant := ⟨1700000000, 250000000, by decide, by decide, by decide⟩

/-- A minute later. -/
def minuteLater : Instant := ⟨1700000060, 250000000, by decide, by decide, by decide⟩

/-- An entry that has three attempts fails, and a minute later it fails again. The delay doubles. -/
theorem retry_schedule_second : ∃ e,
    create "e-1" (.ofFields "MenuItemSoldOut" [("menu_item_id", .str "m-1")]) "m-1" "MenuItem"
      opening = .ok e ∧
    (e.run [.withPolicy 3 5, .markFailed "down" opening]).status.isTerminal = false ∧
    (e.run [.withPolicy 3 5, .markFailed "down" opening]).nextRetryAt =
      Instant.of? 1700000005 250000000 ∧
    (∃ e', (e.run [.withPolicy 3 5, .markFailed "down" opening]).markFailed "down" minuteLater
        = .ok e' ∧
      (e.run [.withPolicy 3 5, .markFailed "down" opening]).Rescheduled minuteLater e' ∧
      e'.nextRetryAt = Instant.of? 1700000070 250000000) ∧
    ∀ (policy : RetryPolicy) (failures : UInt32), policy.Exact failures := by
  have h : create "e-1" (.ofFields "MenuItemSoldOut" [("menu_item_id", .str "m-1")]) "m-1"
      "MenuItem" opening = .ok ⟨"e-1", "MenuItemSoldOut", [("menu_item_id", .str "m-1")], "m-1",
        "MenuItem", opening, .pending, 0, {}, none, none, none⟩ := rfl
  obtain ⟨⟨e', hfail, hrescheduled⟩, hexact⟩ :=
    retry_schedule h [.withPolicy 3 5, .markFailed "down" opening] rfl "down" minuteLater
  refine ⟨_, h, rfl, by decide +kernel, ⟨e', hfail, hrescheduled, ?_⟩, hexact⟩
  rw [← Except.ok.inj hfail]
  decide +kernel

/-- A time in the leap second behind the latest time. -/
def lateLeap : Instant :=
  ⟨lastSecond, 1500000000, Instant.latest.first_le, Instant.latest.le_last, by decide⟩

/-- Behind the latest time the next attempt is not the earlier one of the exact time and the latest
time if there is no delay, and it is before the failure if there is one. -/
theorem lateLeap_not_cut : ∃ e,
    create "e-1" (.ofFields "MenuItemSoldOut" [("menu_item_id", .str "m-1")]) "m-1" "MenuItem"
      lateLeap = .ok e ∧
    (∃ e' next, (e.run [.withPolicy 9 0]).markFailed "down" lateLeap = .ok e' ∧
      e'.nextRetryAt = some next ∧
      next.moment ≠
        min (lateLeap.later (e'.policy.exactDelay e'.retryCount)) Instant.latest.moment) ∧
    ∃ e' next, (e.run [.withPolicy 9 1]).markFailed "down" lateLeap = .ok e' ∧
      e'.nextRetryAt = some next ∧ ¬ lateLeap ≤ next := by
  have hbeyond : ¬ lateLeap ≤ .latest := by decide
  refine ⟨⟨"e-1", "MenuItemSoldOut", [("menu_item_id", .str "m-1")], "m-1", "MenuItem", lateLeap,
    .pending, 0, {}, none, none, none⟩, rfl, ⟨_, lateLeap, rfl, rfl, ?_⟩, _, .latest, rfl, rfl,
    hbeyond⟩
  intro heq
  exact hbeyond (Instant.moment_le_moment.mp (heq.trans_le (min_le_right _ _)))

end Entry

end TableService
