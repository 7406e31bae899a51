import TableService.Proofs.Metrics.Counts
import TableService.Proofs.Relay.Marked
import TableService.Relay.Registry

/-!
# What the metrics count of a log

There are two books: the log marks its entries, and the metrics count attempts by event type.

- `Metrics.Mirrors`: the metrics go together with a log. An entry is either given up with attempts
  left, or has spent its last attempt, which is counted.
- `Metrics.Mirrors.append`, `put`, `recordAttempt`: so they do behind new entries, behind a change
  that is not an attempt, and behind an attempt that is recorded in both.
- `Metrics.Pools`: what is counted for an event type together with those that share its fingerprint.
- `Metrics.Shows`: what is shown for an event type is what is in the log.
- `Metrics.Mirrors.pools`, `shows`: the first holds of every type, the second of those that share
  nothing.

Metrics tell label values apart by 64 bits only, so types that share these share their counts.
-/

namespace TableService

variable {α : Type}

/-- What a failed attempt at an entry of this type is put down to. -/
def Registry.reason (registry : Registry α) (eventType : String) : String :=
  if registry[eventType]?.isSome then "projection_error" else "no_projector"

namespace Entry

/-- The label values of most of the metrics. -/
def typeLabel (e : Entry) : LabelValues := [e.eventType]

/-- The label values of failures. -/
def failureLabel (registry : Registry α) (e : Entry) : LabelValues :=
  [e.eventType, registry.reason e.eventType]

/-- The last attempt was a success. -/
def isProcessed (e : Entry) : Bool := e.status = .processed

/-- The last attempt has failed. -/
def isSpent (e : Entry) : Bool := e.status = .deadLettered ∧ e.retryCount = e.policy.maxRetries

/-- It was given up while attempts were left. -/
def isGivenUp (e : Entry) : Bool := e.status = .deadLettered ∧ e.retryCount ≠ e.policy.maxRetries

variable {e e' : Entry}

theorem isProcessed_of_isOpen (h : e.status.isTerminal = false) : e.isProcessed = false := by
  rcases status_of_isOpen h with hstatus | hstatus
  · simp [isProcessed, hstatus]
  · simp [isProcessed, hstatus]

theorem isSpent_of_isOpen (h : e.status.isTerminal = false) : e.isSpent = false := by
  rcases status_of_isOpen h with hstatus | hstatus
  · simp [isSpent, hstatus]
  · simp [isSpent, hstatus]

theorem isGivenUp_of_isOpen (h : e.status.isTerminal = false) : e.isGivenUp = false := by
  rcases status_of_isOpen h with hstatus | hstatus
  · simp [isGivenUp, hstatus]
  · simp [isGivenUp, hstatus]

theorem retryCount_ne_of_canRetry (h : e.canRetry = true) : e.retryCount ≠ e.policy.maxRetries := by
  have hlt := lt_of_canRetry h
  intro heq
  rw [heq] at hlt
  omega

/-- An attempt never gives up an entry that has attempts left. -/
theorem Outcome.isGivenUp_eq {now : Instant} {attempt : Attempt} (h : e.Outcome now attempt e') :
    e'.isGivenUp = false := by
  cases h with
  | processed => simp [isGivenUp]
  | retried more => simp [isGivenUp]
  | spent last => simp [isGivenUp, last]

theorem Same.typeLabel_eq (h : e.Same e') : e'.typeLabel = e.typeLabel := by
  rw [typeLabel, typeLabel, h.eventType]

theorem Same.failureLabel_eq (h : e.Same e') (registry : Registry α) :
    e'.failureLabel registry = e.failureLabel registry := by
  rw [failureLabel, failureLabel, h.eventType]

/-- What is given up is either given up early, or has spent its attempts. -/
theorem countP_deadLettered (p : Entry → Bool) (log : Log) :
    log.countP (fun e => p e ∧ e.isSpent) + log.countP (fun e => p e ∧ e.isGivenUp) =
      log.countP fun e => p e ∧ e.status = .deadLettered := by
  induction log with
  | nil => rfl
  | cons e rest ih =>
    rw [List.countP_cons, List.countP_cons, List.countP_cons, ← ih]
    by_cases hcount : e.retryCount = e.policy.maxRetries
    · simp only [isSpent, isGivenUp, hcount, ne_eq, not_true_eq_false, and_true, and_false,
        decide_false, Bool.false_eq_true, if_false, decide_eq_true_eq]
      omega
    · simp only [isSpent, isGivenUp, hcount, ne_eq, not_false_eq_true, and_true, and_false,
        decide_false, Bool.false_eq_true, if_false, decide_eq_true_eq]
      omega

end Entry

namespace Metrics

/-- The counts of attempts go together with a log. -/
structure Mirrors (m : Metrics) (registry : Registry α) (log : Log) : Prop where
  processed : m.processed.Counts .count Entry.typeLabel (·.isProcessed.toNat) log
  durations : m.durations.Counts .durations Entry.typeLabel (·.isProcessed.toNat) log
  failed : m.failed.Counts .count (Entry.failureLabel registry) (·.retryCount.toNat) log
  deadLettered : m.deadLettered.Counts .count Entry.typeLabel (·.isSpent.toNat) log

variable {m : Metrics} {registry : Registry α} {log : Log}

theorem mirrors_empty (registry : Registry α) : Mirrors {} registry [] :=
  ⟨Series.counts_empty, Series.counts_empty, Series.counts_empty, Series.counts_empty⟩

namespace Mirrors

/-- Nothing is counted of entries that wait for their first attempt. -/
theorem append {new : List Entry} (h : m.Mirrors registry log)
    (hnew : ∀ e ∈ new, e.status = .pending ∧ e.retryCount = 0) :
    m.Mirrors registry (log ++ new) := by
  have hprocessed : ∀ e ∈ new, e.isProcessed.toNat = 0 := by
    intro e he
    simp [Entry.isProcessed, (hnew e he).1]
  constructor
  case processed => exact h.processed.append hprocessed
  case durations => exact h.durations.append hprocessed
  case failed =>
    refine h.failed.append fun e he => ?_
    rw [(hnew e he).2]
    rfl
  case deadLettered =>
    refine h.deadLettered.append fun e he => ?_
    simp [Entry.isSpent, (hnew e he).1]

section

variable {e e' : Entry} (hn : (log.map Entry.id).Nodup) (he : e ∈ log)

include hn he

/-- A change of an entry by which nothing is to be counted. -/
theorem put (h : m.Mirrors registry log) (hsame : e.Same e')
    (hprocessed : e'.isProcessed = e.isProcessed) (hretries : e'.retryCount = e.retryCount)
    (hspent : e'.isSpent = e.isSpent) : m.Mirrors registry (log.map (Log.put e')) where
  processed := h.processed.put hn he hsame.id hsame.typeLabel_eq (by rw [hprocessed])
  durations := h.durations.put hn he hsame.id hsame.typeLabel_eq (by rw [hprocessed])
  failed := h.failed.put hn he hsame.id (hsame.failureLabel_eq registry) (by rw [hretries])
  deadLettered := h.deadLettered.put hn he hsame.id hsame.typeLabel_eq (by rw [hspent])

/-- An attempt that is recorded in the log and in the metrics. -/
theorem recordAttempt {now : Instant} {attempt : Attempt} (h : m.Mirrors registry log)
    (hopen : e.status.isTerminal = false) (hretry : e.canRetry = true)
    (houtcome : e.Outcome now attempt e')
    (hreason : ∀ {message reason : String}, attempt = .failed message reason →
      reason = registry.reason e.eventType) :
    (m.recordAttempt e.eventType attempt e').Mirrors registry (log.map (Log.put e')) := by
  have hsame := houtcome.same
  have hprocessed := Entry.isProcessed_of_isOpen hopen
  have hspent := Entry.isSpent_of_isOpen hopen
  have hretries := Entry.toNat_retryCount_add_one hretry
  cases houtcome with
  | processed =>
    constructor
    case processed =>
      refine h.processed.put_update hn he hsame.id hsame.typeLabel_eq ?_ rfl fun _ => rfl
      rw [hprocessed]
      rfl
    case durations =>
      refine h.durations.put_update hn he hsame.id hsame.typeLabel_eq ?_ rfl
        fun _ => List.length_append
      rw [hprocessed]
      rfl
    case failed => exact h.failed.put hn he hsame.id (hsame.failureLabel_eq registry) rfl
    case deadLettered =>
      refine h.deadLettered.put hn he hsame.id hsame.typeLabel_eq ?_
      rw [hspent]
      rfl
  | retried more =>
    obtain rfl := hreason rfl
    have hkept : Bool.toNat false = e.isProcessed.toNat := by rw [hprocessed]
    constructor
    case processed => exact h.processed.put hn he hsame.id hsame.typeLabel_eq hkept
    case durations => exact h.durations.put hn he hsame.id hsame.typeLabel_eq hkept
    case failed =>
      exact h.failed.put_update hn he hsame.id (hsame.failureLabel_eq registry) hretries rfl
        fun _ => rfl
    case deadLettered =>
      refine h.deadLettered.put hn he hsame.id hsame.typeLabel_eq ?_
      rw [hspent]
      rfl
  | spent last =>
    obtain rfl := hreason rfl
    have hkept : Bool.toNat false = e.isProcessed.toNat := by rw [hprocessed]
    constructor
    case processed => exact h.processed.put hn he hsame.id hsame.typeLabel_eq hkept
    case durations => exact h.durations.put hn he hsame.id hsame.typeLabel_eq hkept
    case failed =>
      exact h.failed.put_update hn he hsame.id (hsame.failureLabel_eq registry) hretries rfl
        fun _ => rfl
    case deadLettered =>
      refine h.deadLettered.put_update hn he hsame.id hsame.typeLabel_eq ?_ rfl fun _ => rfl
      rw [hspent]
      simp [Entry.isSpent, last]

end

end Mirrors

/-! ## What is shown -/

/-- Behind label values that share a fingerprint stands the sum of what there is to be counted. -/
structure Pools (m : Metrics) (registry : Registry α) (log : Log) (byHand : List String)
    (t : String) : Prop where
  processed : (m.processed.get? [t]).getD 0 = log.countP fun e =>
    LabelValues.fingerprint [e.eventType] = LabelValues.fingerprint [t] ∧ e.status = .processed
  durations : ((m.durations.get? [t]).getD []).length = log.countP fun e =>
    LabelValues.fingerprint [e.eventType] = LabelValues.fingerprint [t] ∧ e.status = .processed
  failed (reason : String) : (m.failed.get? [t, reason]).getD 0 =
    ((log.filter fun e => LabelValues.fingerprint [e.eventType, registry.reason e.eventType] =
      LabelValues.fingerprint [t, reason]).map (·.retryCount.toNat)).sum
  deadLettered : (m.deadLettered.get? [t]).getD 0 +
      byHand.countP (fun u => LabelValues.fingerprint [u] = LabelValues.fingerprint [t]) =
    log.countP fun e =>
      LabelValues.fingerprint [e.eventType] = LabelValues.fingerprint [t] ∧ e.status = .deadLettered

/-- Entries of other types have label values with other fingerprints. -/
structure Apart (registry : Registry α) (log : Log) (t : String) : Prop where
  type : ∀ e ∈ log, LabelValues.fingerprint [e.eventType] = LabelValues.fingerprint [t] →
    e.eventType = t
  failure : ∀ e ∈ log, LabelValues.fingerprint [e.eventType, registry.reason e.eventType] =
    LabelValues.fingerprint [t, registry.reason t] → e.eventType = t

/-- What is shown for an event type is what is in the log. -/
structure Shows (m : Metrics) (registry : Registry α) (log : Log) (byHand : List String)
    (t : String) : Prop where
  processed : m.value "outbox_entries_processed_total" [("event_type", t)] =
    log.countP fun e => e.eventType = t ∧ e.status = .processed
  durations : m.value "outbox_projection_duration_seconds" [("event_type", t)] =
    log.countP fun e => e.eventType = t ∧ e.status = .processed
  /-- All reasons together. -/
  failed : m.value "outbox_entries_failed_total" [("event_type", t)] =
    ((log.filter (·.eventType = t)).map (·.retryCount.toNat)).sum
  failedFor (reason : String) :
    m.value "outbox_entries_failed_total" [("event_type", t), ("reason", reason)] =
      if reason = registry.reason t then
        ((log.filter (·.eventType = t)).map (·.retryCount.toNat)).sum
      else 0
  deadLettered : m.value "outbox_entries_dead_lettered_total" [("event_type", t)] +
    byHand.count t = log.stats.deadByType.getD t 0

/-- A sum of ones and zeros. -/
theorem sum_map_toNat (p : Entry → Bool) (log : Log) :
    (log.map fun e => (p e).toNat).sum = log.countP p := by
  induction log with
  | nil => rfl
  | cons e rest ih =>
    rw [List.map_cons, List.sum_cons, List.countP_cons, ih, Nat.add_comm]
    cases p e <;> rfl

section

variable {β : Type} {measure : β → Measure} {s : Series β} {p : Entry → Bool}

theorem get?_eq_countP (h : s.Counts measure Entry.typeLabel (fun e => (p e).toNat) log)
    (t : String) : ((s.get? [t]).elim 0 fun a => (measure a).size) = log.countP fun e =>
      LabelValues.fingerprint [e.eventType] = LabelValues.fingerprint [t] ∧ p e := by
  rw [h.total, sum_map_ite, sum_map_toNat, List.countP_filter]
  refine List.countP_congr fun e _ => ?_
  rw [Bool.and_eq_true, decide_eq_true_eq, decide_eq_true_eq]
  exact and_comm

theorem value_eq_countP {name t : String}
    (h : s.Counts measure Entry.typeLabel (fun e => (p e).toNat) log)
    (hshown : m.shown name = samples ["event_type"] measure s) (hapart : Apart registry log t) :
    m.value name [("event_type", t)] = log.countP fun e => e.eventType = t ∧ p e := by
  have hlabel {e : Entry} : e.typeLabel = [t] ↔ e.eventType = t := by simp [Entry.typeLabel]
  have hasked {e : Entry} :
      [("event_type", t)].all (["event_type"].zip e.typeLabel).contains = true ↔
        e.typeLabel = [t] := by
    simp [Entry.typeLabel, eq_comm]
  rw [h.value_eq hshown (fun e he hprint => hlabel.mpr (hapart.type e he hprint))
    fun e _ => hasked, sum_map_toNat, List.countP_filter]
  refine List.countP_congr fun e _ => ?_
  simp only [hlabel, Bool.and_eq_true, decide_eq_true_eq, and_comm]

end

namespace Mirrors

variable {byHand : List String}

/-- The metrics count what is spent, and the rest of what is dead was given up by hand. -/
theorem pools (h : m.Mirrors registry log)
    (hgiven : ∀ p : String → Bool,
      byHand.countP p = log.countP fun e => p e.eventType ∧ e.isGivenUp) (t : String) :
    m.Pools registry log byHand t := by
  have helim {o : Option Nat} : (o.elim 0 fun a => (Measure.count a).size) = o.getD 0 := by
    cases o <;> rfl
  constructor
  case processed =>
    rw [← helim, get?_eq_countP h.processed]
    simp only [Entry.isProcessed, decide_eq_true_eq]
  case durations =>
    have hcount := get?_eq_countP h.durations t
    simp only [Entry.isProcessed, decide_eq_true_eq] at hcount
    rw [← hcount]
    cases m.durations.get? [t] <;> rfl
  case failed =>
    intro reason
    rw [← helim, h.failed.total, sum_map_ite]
    rfl
  case deadLettered =>
    rw [← helim, get?_eq_countP h.deadLettered, hgiven]
    have hdead := Entry.countP_deadLettered
      (fun e => decide (LabelValues.fingerprint [e.eventType] = LabelValues.fingerprint [t])) log
    simp only [decide_eq_true_eq] at hdead ⊢
    exact hdead

theorem shows (h : m.Mirrors registry log)
    (hgiven : ∀ p : String → Bool,
      byHand.countP p = log.countP fun e => p e.eventType ∧ e.isGivenUp)
    {t : String} (hapart : Apart registry log t) : m.Shows registry log byHand t := by
  have hlabel {e : Entry} :
      e.failureLabel registry = [t, registry.reason t] ↔ e.eventType = t := by
    rw [Entry.failureLabel]
    constructor
    · intro heq
      exact (List.cons.inj heq).1
    · rintro rfl
      rfl
  have halone (e) (he : e ∈ log)
      (hprint : (e.failureLabel registry).fingerprint =
        LabelValues.fingerprint [t, registry.reason t]) :
      e.failureLabel registry = [t, registry.reason t] := hlabel.mpr (hapart.failure e he hprint)
  have hsum : (log.filter (·.failureLabel registry = [t, registry.reason t])) =
      log.filter (·.eventType = t) := by
    simp only [hlabel]
  constructor
  case processed =>
    rw [value_eq_countP h.processed (shown_processed m) hapart]
    simp only [Entry.isProcessed, decide_eq_true_eq]
  case durations =>
    rw [value_eq_countP h.durations (shown_durations m) hapart]
    simp only [Entry.isProcessed, decide_eq_true_eq]
  case failed =>
    have hasked {e : Entry} : [("event_type", t)].all
        (["event_type", "reason"].zip (e.failureLabel registry)).contains = true ↔
          e.failureLabel registry = [t, registry.reason t] := by
      rw [hlabel]
      simp [Entry.failureLabel, eq_comm]
    rw [h.failed.value_eq (shown_failed m) halone fun e _ => hasked, hsum]
  case failedFor =>
    intro reason
    have hasked {e : Entry} : [("event_type", t), ("reason", reason)].all
        (["event_type", "reason"].zip (e.failureLabel registry)).contains = true ↔
          e.eventType = t ∧ registry.reason e.eventType = reason := by
      simp [Entry.failureLabel, @eq_comm _ t, @eq_comm _ reason]
    by_cases hreason : reason = registry.reason t
    · rw [h.failed.value_eq (shown_failed m) halone fun e _ => ?_, hsum, if_pos hreason]
      rw [hasked, hlabel, hreason]
      exact and_iff_left_of_imp fun ht => by rw [ht]
    · rw [h.failed.value_eq_zero (shown_failed m) fun e _ => ?_, if_neg hreason]
      rw [Bool.eq_false_iff, Ne, hasked]
      rintro ⟨rfl, heq⟩
      exact hreason heq.symm
  case deadLettered =>
    have hdead := Entry.countP_deadLettered (fun e => decide (e.eventType = t)) log
    simp only [decide_eq_true_eq] at hdead
    rw [value_eq_countP h.deadLettered (shown_deadLettered m) hapart, List.count, hgiven]
    simp only [beq_iff_eq]
    rw [hdead, Log.stats, getD_tally, List.count, List.countP_map, List.countP_filter]
    refine List.countP_congr fun e _ => ?_
    simp

end Mirrors

end Metrics

end TableService
