import Mathlib.Logic.Relation
import TableService.Proofs.Domain.Story
import TableService.Proofs.Json.Text
import TableService.Proofs.Outbox.Schedule
import TableService.Proofs.Time.Stamps
import TableService.Wire.Entry

/-!
# Entries are restored as they were stored

An entry is stored as JSON text.

- `Entry.settled`: the entry with the times that their texts tell.
- `Entry.ofJson?_toJson`: this entry is restored from the value that an entry is stored as.
- `Entry.exact_toJson`: if the data of an entry are an exact value, its value is restored from its
  text.
- `DomainEvent.Told`: what happens to orders and menu items. It is told in exact values.
- `Entry.Turns`: the transitions of an entry. They keep its data, and set no time within a minute to
  a leap second unless they are given one.
- `Entry.restored`: so whatever becomes of an entry, it is restored up to the times of such leap
  seconds.
- `Entry.soldOutWithinMinute_not_restored`: with one of them it is another entry.
-/

namespace TableService

open Json

/-! ## The next attempt -/

namespace Instant

theorem proper_of_nano_lt {t : Instant} (h : t.nano < giga) : t.Proper :=
  fun hleap => absurd h (Nat.not_lt.mpr hleap)

/-- Whoever waits leaves a leap second. -/
theorem proper_getD_add? {t : Instant} (h : t.Proper) (n : Nat) :
    ((t.add? (.ofSeconds n)).getD .latest).Proper := by
  have hmoment := t.moment_getD_add? n
  generalize (t.add? (.ofSeconds n)).getD .latest = next at hmoment
  by_cases hzero : n = 0
  · rw [if_pos hzero] at hmoment
    rw [moment_injective hmoment]
    exact h
  · rw [if_neg hzero] at hmoment
    refine proper_of_nano_lt ?_
    rcases min_choice (t.later n) latest.moment with hmin | hmin
    · rw [hmin, later_of_pos t (Nat.pos_of_ne_zero hzero)] at hmoment
      have hnano : next.nano = t.nano % giga := congrArg (fun m => (ofLex m).2) hmoment
      rw [hnano]
      exact Nat.mod_lt _ (by decide)
    · -- the end of time is not in a leap second
      rw [hmin] at hmoment
      rw [moment_injective hmoment]
      decide

theorem ofJson?_toJson (t : Instant) : ofJson? t.toJson = some t.settled := by
  rw [ofJson?, toJson, text?, Option.bind_some, ofText?_text]

end Instant

/-! ## The parts of an entry -/

theorem Json.count?_int (n : UInt32) : count? (.int n.toNat) = some n := by
  have hlt := n.toNat_lt
  have hwhole : whole? 0 limit32 (.int n.toNat) = some (n.toNat : Int) := by
    show (if (0 : Int) ≤ n.toNat ∧ (n.toNat : Int) < limit32 then some (n.toNat : Int)
      else none) = _
    rw [if_pos]
    simp only [limit32]
    omega
  rw [count?, word?, hwhole, Option.map_some, Option.map_some, Int.toNat_natCast,
    UInt32.ofNat_toNat]

/-- The value of a field of an object. -/
def Json.field? (w : Json) (name : String) : Option Json :=
  w.object?.bind (·.lookup name)

section

variable {α β : Type} {w v : Json} {fields : Payload} {name : String} {read : Json → Option β}

theorem Json.required?_of_field? {b : β} (h : w = .obj fields) (hv : w.field? name = some v)
    (hread : read v = some b) : required? fields name read = some b := by
  subst h
  have hlookup : fields.lookup name = some v := hv
  rw [required?, hlookup, Option.bind_some, hread]

/-- A missing value is not taken for a value. -/
theorem Json.optional?_of_field? {write : α → Json} {told : α → β} {a : Option α}
    (h : w = .obj fields) (hv : w.field? name = some (.ofOption write a))
    (hread : ∀ x, write x ≠ .null ∧ read (write x) = some (told x)) :
    optional? fields name read = some (a.map told) := by
  subst h
  have hlookup : fields.lookup name = some (.ofOption write a) := hv
  unfold optional?
  rw [hlookup]
  cases a with
  | none => rfl
  | some x =>
    obtain ⟨hnull, hx⟩ := hread x
    split
    · rename_i hnone
      cases hnone
    · rename_i hnone
      exact absurd (Option.some.inj hnone) hnull
    · rename_i hsome
      rw [← Option.some.inj hsome]
      show (read (write x)).map some = some (some (told x))
      rw [hx, Option.map_some]

end

theorem RetryPolicy.ofJson?_toJson (policy : RetryPolicy) :
    ofJson? policy.toJson = some policy := by
  obtain ⟨fields, hfields⟩ : ∃ fields, policy.toJson = .obj fields := ⟨_, rfl⟩
  have hretries : required? fields "max_retries" count? = some policy.maxRetries :=
    required?_of_field? hfields rfl (count?_int _)
  have hdelay : required? fields "base_delay_seconds" count? = some policy.baseDelaySeconds :=
    required?_of_field? hfields rfl (count?_int _)
  rw [hfields, ofJson?, record?]
  simp only [Option.bind_eq_bind, Option.bind_some, hretries, hdelay]

/-! ## Exact values -/

theorem exact_nat {n : Nat} (h : n < limit32) : Exact (.int n) := by
  simp only [limit32] at h
  exact .int (by simp only [limit63]; omega) (by simp only [limit64]; omega)

theorem exact_toNat (n : UInt32) : Exact (.int n.toNat) :=
  exact_nat n.toNat_lt

theorem exact_ofOption {write : α → Json} (hwrite : ∀ a, Exact (write a)) (a : Option α) :
    Exact (.ofOption write a) := by
  cases a with
  | none => exact .null
  | some a => exact hwrite a

theorem exact_obj {fields : Payload} (names : List String) (hnames : fields.map Prod.fst = names)
    (hnodup : names.Nodup) (h : ∀ p ∈ fields, Exact p.2) : Exact (.obj fields) :=
  .obj (hnames ▸ hnodup) h

namespace Entry

variable {e e' : Entry}

/-- The times that an entry holds. -/
def times (e : Entry) : List Instant :=
  e.occurredAt :: (e.processedAt.toList ++ e.nextRetryAt.toList)

theorem mem_times {t : Instant} : t ∈ e.times ↔
    t = e.occurredAt ∨ e.processedAt = some t ∨ e.nextRetryAt = some t := by
  simp [times]

/-- The entry with the times that their texts tell. -/
def settled (e : Entry) : Entry :=
  { e with
    occurredAt := e.occurredAt.settled
    processedAt := e.processedAt.map Instant.settled
    nextRetryAt := e.nextRetryAt.map Instant.settled }

theorem settled_eq_self_iff : e.settled = e ↔ ∀ t ∈ e.times, t.Proper := by
  constructor
  · intro h t ht
    rw [← Instant.settled_eq_self_iff]
    rcases mem_times.mp ht with rfl | hprocessed | hnext
    · exact congrArg occurredAt h
    · have hmap : e.processedAt.map Instant.settled = e.processedAt := congrArg processedAt h
      rw [hprocessed] at hmap
      exact Option.some.inj hmap
    · have hmap : e.nextRetryAt.map Instant.settled = e.nextRetryAt := congrArg nextRetryAt h
      rw [hnext] at hmap
      exact Option.some.inj hmap
  · intro h
    have hself (t : Instant) (ht : t ∈ e.times) : t.settled = t :=
      Instant.settled_eq_self_iff.mpr (h t ht)
    have hmap {o : Option Instant} (ho : ∀ t, o = some t → t ∈ e.times) :
        o.map Instant.settled = o := by
      cases o with
      | none => rfl
      | some t => rw [Option.map_some, hself t (ho t rfl)]
    rw [settled, hself e.occurredAt (mem_times.mpr (.inl rfl)),
      hmap fun t ht => mem_times.mpr (.inr (.inl ht)),
      hmap fun t ht => mem_times.mpr (.inr (.inr ht))]

theorem ofJson?_toJson (e : Entry) : ofJson? e.toJson = some e.settled := by
  -- the fields stay a variable, so that the names are compared in these facts only
  obtain ⟨fields, hfields⟩ : ∃ fields, e.toJson = .obj fields := ⟨_, rfl⟩
  have hid : required? fields "entry_id" text? = some e.id :=
    required?_of_field? hfields rfl rfl
  have heventType : required? fields "event_type" text? = some e.eventType :=
    required?_of_field? hfields rfl rfl
  have heventData : required? fields "event_data" object? = some e.eventData :=
    required?_of_field? hfields rfl rfl
  have haggregateId : required? fields "aggregate_id" text? = some e.aggregateId :=
    required?_of_field? hfields rfl rfl
  have haggregateType : required? fields "aggregate_type" text? = some e.aggregateType :=
    required?_of_field? hfields rfl rfl
  have hoccurredAt : required? fields "occurred_at" Instant.ofJson? = some e.occurredAt.settled :=
    required?_of_field? hfields rfl e.occurredAt.ofJson?_toJson
  have hstatus : required? fields "status" (variant? EntryStatus.ofText?) = some e.status :=
    required?_of_field? hfields rfl e.status.ofText?_text
  have hretryCount : required? fields "retry_count" count? = some e.retryCount :=
    required?_of_field? hfields rfl (count?_int _)
  have hpolicy : required? fields "retry_policy" RetryPolicy.ofJson? = some e.policy :=
    required?_of_field? hfields rfl e.policy.ofJson?_toJson
  have hlastError : optional? fields "last_error" text? = some (e.lastError.map fun s => s) :=
    optional?_of_field? hfields rfl fun _ => ⟨nofun, rfl⟩
  have hprocessedAt : optional? fields "processed_at" Instant.ofJson? =
      some (e.processedAt.map Instant.settled) :=
    optional?_of_field? hfields rfl fun t => ⟨nofun, t.ofJson?_toJson⟩
  have hnextRetryAt : optional? fields "next_retry_at" Instant.ofJson? =
      some (e.nextRetryAt.map Instant.settled) :=
    optional?_of_field? hfields rfl fun t => ⟨nofun, t.ofJson?_toJson⟩
  rw [Option.map_id'] at hlastError
  rw [hfields, ofJson?, record?]
  simp only [Option.bind_eq_bind, Option.bind_some, hid, heventType, heventData, haggregateId,
    haggregateType, hoccurredAt, hstatus, hretryCount, hpolicy, hlastError, hprocessedAt,
    hnextRetryAt, settled]

theorem exact_toJson (h : Exact (.obj e.eventData)) : e.toJson.Exact := by
  have htime : ∀ t : Instant, Exact t.toJson := fun t => .str _
  have hpolicy : Exact e.policy.toJson :=
    exact_obj ["max_retries", "base_delay_seconds"] rfl (by decide) (by simp [exact_toNat])
  refine exact_obj fieldNames rfl (by decide) ?_
  simp [Exact.str, h, htime, hpolicy, exact_toNat, exact_ofOption Exact.str, exact_ofOption htime]

end Entry

/-! ## What happens to orders and menu items -/

theorem OrderEvent.exact_fields {event : OrderEvent} (h : event.InRange) :
    Exact (.obj event.fields) := by
  cases event with
  | placed orderId tableNumber =>
    exact exact_obj ["order_id", "table_number"] rfl (by decide)
      (by simp [fields, Exact.str, exact_nat h])
  | itemAdded orderId itemId menuItemId name unitPrice quantity =>
    exact exact_obj
      ["order_id", "order_item_id", "menu_item_id", "name", "unit_price", "quantity"] rfl
      (by decide) (by simp [fields, Exact.str, exact_nat h])
  | dishReady orderId itemId | itemCancelled orderId itemId =>
    exact exact_obj ["order_id", "order_item_id"] rfl (by decide) (by simp [fields, Exact.str])
  | completed orderId | cancelled orderId =>
    exact exact_obj ["order_id"] rfl (by decide) (by simp [fields, Exact.str])

theorem MenuItemEvent.exact_fields (event : MenuItemEvent) : Exact (.obj event.fields) := by
  cases event with
  | created menuItemId name price =>
    exact exact_obj ["menu_item_id", "name", "price"] rfl (by decide)
      (by simp [fields, Exact.str])
  | soldOut menuItemId | available menuItemId =>
    exact exact_obj ["menu_item_id"] rfl (by decide) (by simp [fields, Exact.str])

/-- An event of an order, whose numbers have 32 bits, or of a menu item. -/
inductive DomainEvent.Told : DomainEvent → Prop where
  | order {event : OrderEvent} (h : event.InRange) : Told event.toDomain
  | menuItem (event : MenuItemEvent) : Told event.toDomain

theorem DomainEvent.Told.exact_payload {event : DomainEvent} (h : event.Told) {data : Payload}
    (hdata : event.payload = .ok data) : Exact (.obj data) := by
  cases h with
  | @order event h =>
    have hwritten : event.toDomain.payload = .ok event.fields :=
      payload_ofFields event.name (Story.isPrimitive_fields (α := Order) event)
    obtain rfl := Except.ok.inj (hwritten.symm.trans hdata)
    exact event.exact_fields h
  | menuItem event =>
    have hwritten : event.toDomain.payload = .ok event.fields :=
      payload_ofFields event.name (Story.isPrimitive_fields (α := MenuItem) event)
    obtain rfl := Except.ok.inj (hwritten.symm.trans hdata)
    exact event.exact_fields

/-! ## What becomes of an entry -/

namespace Entry

variable {e e' : Entry}

/-- A transition of an entry, with any policy. The times that are given meet `p`. -/
inductive Turns (p : Instant → Prop) (e e' : Entry) : Prop where
  | policy (policy : RetryPolicy) (h : e.withPolicy policy = .ok e')
  | processed {now : Instant} (hnow : p now) (h : e.markProcessed now = .ok e')
  | failed {error : String} {now : Instant} (hnow : p now) (h : e.markFailed error now = .ok e')
  | deadLettered {reason : Option String} (h : e.markDeadLettered reason = .ok e')

variable {p : Instant → Prop}

theorem Turns.eventData (h : e.Turns p e') : e'.eventData = e.eventData := by
  cases h with
  | policy policy h =>
    obtain ⟨-, -, rfl⟩ := of_withPolicy_eq_ok h
    rfl
  | processed hnow h =>
    obtain ⟨-, rfl⟩ := of_markProcessed_eq_ok h
    rfl
  | failed hnow h => exact (of_markFailed_eq_ok h).1.eventData
  | deadLettered h =>
    obtain ⟨-, rfl⟩ := of_markDeadLettered_eq_ok h
    rfl

theorem times_of_markFailed {error : String} {now : Instant}
    (h : e.markFailed error now = .ok e') : e'.processedAt = e.processedAt ∧
      (e'.nextRetryAt = none ∨ ∃ failures,
        e'.nextRetryAt = some ((now.add? (e.policy.backoff failures)).getD .latest)) := by
  have hopen := isOpen_of_markFailed_eq_ok h
  rw [markFailed_eq, hopen, if_neg Bool.false_ne_true] at h
  unfold EntryM.scheduled at h
  split at h
  · cases h
    exact ⟨rfl, .inr ⟨_, rfl⟩⟩
  · cases h
    exact ⟨rfl, .inl rfl⟩

/-- Times within a minute are no leap seconds, unless one is given. -/
theorem Turns.proper (hp : ∀ t, p t → t.Proper) (hturn : e.Turns p e')
    (h : ∀ t ∈ e.times, t.Proper) : ∀ t ∈ e'.times, t.Proper := by
  have hoccurredAt : e.occurredAt.Proper := h _ (mem_times.mpr (.inl rfl))
  have hprocessedAt {t : Instant} (ht : e.processedAt = some t) : t.Proper :=
    h t (mem_times.mpr (.inr (.inl ht)))
  intro t ht
  cases hturn with
  | policy policy hnew =>
    obtain ⟨-, -, rfl⟩ := of_withPolicy_eq_ok hnew
    exact h t ht
  | @processed now hnow hdone =>
    obtain ⟨-, rfl⟩ := of_markProcessed_eq_ok hdone
    rcases mem_times.mp ht with rfl | hprocessed | hnext
    · exact hoccurredAt
    · cases hprocessed
      exact hp _ hnow
    · cases hnext
  | @failed error now hnow hfail =>
    obtain ⟨hsame, -⟩ := of_markFailed_eq_ok hfail
    obtain ⟨hprocessed', hnext'⟩ := times_of_markFailed hfail
    rcases mem_times.mp ht with rfl | hprocessed | hnext
    · exact hsame.occurredAt ▸ hoccurredAt
    · exact hprocessedAt (hprocessed' ▸ hprocessed)
    · rcases hnext' with hnone | ⟨failures, hsome⟩
      · rw [hnone] at hnext
        cases hnext
      · rw [hsome] at hnext
        rw [← Option.some.inj hnext, RetryPolicy.backoff_eq]
        exact Instant.proper_getD_add? (hp now hnow) _
  | deadLettered hdead =>
    obtain ⟨-, rfl⟩ := of_markDeadLettered_eq_ok hdead
    rcases mem_times.mp ht with rfl | hprocessed | hnext
    · exact hoccurredAt
    · exact hprocessedAt hprocessed
    · cases hnext

section

variable {event : DomainEvent} {id aggregateId aggregateType : String} {occurredAt : Instant}
  {created : Entry}

theorem exact_of_turns (hevent : event.Told)
    (hcreate : create id event aggregateId aggregateType occurredAt = .ok created)
    (hturns : Relation.ReflTransGen (Turns p) created e) : Exact (.obj e.eventData) := by
  induction hturns with
  | refl =>
    obtain ⟨data, hdata, rfl⟩ := create_ok hcreate
    exact hevent.exact_payload hdata
  | tail _ hturn ih => exact hturn.eventData ▸ ih

theorem proper_of_turns (hp : ∀ t, p t → t.Proper) (hoccurred : p occurredAt)
    (hcreate : create id event aggregateId aggregateType occurredAt = .ok created)
    (hturns : Relation.ReflTransGen (Turns p) created e) : ∀ t ∈ e.times, t.Proper := by
  induction hturns with
  | refl =>
    obtain ⟨data, -, rfl⟩ := create_ok hcreate
    intro t ht
    rw [List.mem_singleton.mp ht]
    exact hp occurredAt hoccurred
  | tail _ hturn ih => exact hturn.proper hp ih

/-- Whatever becomes of an entry, at whatever times, its value is restored from its text, and from
its value the entry with its times as they are told. This is the same entry if no leap second is
within a minute, and none is if none has been given. -/
theorem restored (hevent : event.Told) (hoccurred : p occurredAt)
    (hcreate : create id event aggregateId aggregateType occurredAt = .ok created)
    (hturns : Relation.ReflTransGen (Turns p) created e) :
    Json.ofText? e.toJson.text = some e.toJson ∧ ofJson? e.toJson = some e.settled ∧
      (e.settled = e ↔ ∀ t ∈ e.times, t.Proper) ∧ ((∀ t, p t → t.Proper) → e.settled = e) :=
  ⟨ofText?_text (exact_toJson (exact_of_turns hevent hcreate hturns)), ofJson?_toJson e,
    settled_eq_self_iff,
    fun hp => settled_eq_self_iff.mpr (proper_of_turns hp hoccurred hcreate hturns)⟩

end

/-- In the first leap second that there was. -/
def leapSecond : Instant := ⟨78796799, 1250000000, by decide, by decide, by decide⟩

/-- An order that is placed in a leap second. -/
def placing : Entry :=
  ⟨"e-1", "OrderPlaced", [("order_id", .str "o \"1\""), ("table_number", .int 7)], "o \"1\"",
    "Order", leapSecond, .pending, 0, ⟨5, 2⟩, none, none, none⟩

/-- It fails 120 nanoseconds into a year before the year 0. -/
def failedPlacing : Entry :=
  { placing with
    status := .failed, retryCount := 1, lastError := some "off\x01line"
    nextRetryAt := Instant.of? (-62198755198) 120 }

theorem failedPlacing_restored :
    failedPlacing.occurredAt.text = "1972-06-30T23:59:60.250Z" ∧
      failedPlacing.nextRetryAt.map Instant.text = some "-0001-01-01T00:00:02.000000120Z" ∧
      Json.ofText? failedPlacing.toJson.text = some failedPlacing.toJson ∧
      ofJson? failedPlacing.toJson = some failedPlacing := by
  have hevent : (OrderEvent.placed "o \"1\"" 7).toDomain.Told := by
    refine .order ?_
    show 7 < limit32
    decide
  have hcreate : create "e-1" (OrderEvent.placed "o \"1\"" 7).toDomain "o \"1\"" "Order"
      leapSecond = .ok { placing with policy := {} } := rfl
  have hnow : Instant.Proper ⟨-62198755200, 120, by decide, by decide, by decide⟩ := by decide
  have hturns : Relation.ReflTransGen (Turns Instant.Proper) { placing with policy := {} }
      failedPlacing :=
    .head (.policy ⟨5, 2⟩ rfl) (.single (.failed hnow rfl))
  obtain ⟨htext, hvalue, -, hsettled⟩ := restored hevent (by decide) hcreate hturns
  rw [hsettled fun _ ht => ht] at hvalue
  exact ⟨by decide +kernel, by decide +kernel, htext, hvalue⟩

/-- In a leap second that is not the last one of its minute. -/
def leapWithinMinute : Instant := ⟨30, 1250000000, by decide, by decide, by decide⟩

/-- The entry of an item that is sold out then. -/
def soldOutWithinMinute : Entry :=
  ⟨"e-1", "MenuItemSoldOut", [("menu_item_id", .str "m-1")], "m-1", "MenuItem", leapWithinMinute,
    .pending, 0, {}, none, none, none⟩

/-- Its attempt fails at once, and the next one may follow at once. -/
def failedWithinMinute : Entry :=
  { soldOutWithinMinute with
    status := .failed, retryCount := 1, policy := ⟨9, 0⟩, lastError := some "down"
    nextRetryAt := some leapWithinMinute }

/-- It is restored as an entry that is due later. -/
theorem soldOutWithinMinute_not_restored :
    create "e-1" (MenuItemEvent.soldOut "m-1").toDomain "m-1" "MenuItem" leapWithinMinute =
        .ok soldOutWithinMinute ∧
      soldOutWithinMinute.run [.withPolicy 9 0, .markFailed "down" leapWithinMinute] =
        failedWithinMinute ∧
      failedWithinMinute.nextRetryAt.map Instant.text = some "1970-01-01T00:00:31.250Z" ∧
      ∃ e now, ofJson? failedWithinMinute.toJson = some e ∧ e ≠ failedWithinMinute ∧
        failedWithinMinute.isDue now = true ∧ e.isDue now = false := by
  have hdue : failedWithinMinute.isDue ⟨31, 0, by decide, by decide, by decide⟩ = true := by decide
  have hlater : failedWithinMinute.settled.isDue ⟨31, 0, by decide, by decide, by decide⟩ =
      false := by decide
  refine ⟨rfl, rfl, by decide +kernel, _, _, ofJson?_toJson _, ?_, hdue, hlater⟩
  intro hsame
  rw [hsame, hdue] at hlater
  cases hlater

end Entry

end TableService
