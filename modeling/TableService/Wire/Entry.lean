import TableService.Wire.Scalar

/-!
# Entries on the wire

- `Entry.toJson`, `Entry.ofJson?`: an entry as an object, and back. What is read is not checked.
- `RetryPolicy.toJson`, `RetryPolicy.ofJson?`: the same for a policy.
- `Json.count?`: a count of attempts or seconds.
-/

namespace TableService

/-- A natural number of 32 bits. -/
def Json.count? (v : Json) : Option UInt32 :=
  v.word?.map UInt32.ofNat

open Json

namespace RetryPolicy

/-- The policy as an object. -/
def toJson (policy : RetryPolicy) : Json :=
  .obj [("max_retries", .int policy.maxRetries.toNat),
    ("base_delay_seconds", .int policy.baseDelaySeconds.toNat)]

/-- Reads a policy. One without any attempt is taken, too. -/
def ofJson? (v : Json) : Option RetryPolicy := do
  let fields ← v.record? ["max_retries", "base_delay_seconds"]
  some ⟨← required? fields "max_retries" count?, ← required? fields "base_delay_seconds" count?⟩

end RetryPolicy

namespace Entry

/-- The fields in the order in which they are written. -/
def fieldNames : List String :=
  ["entry_id", "event_type", "event_data", "aggregate_id", "aggregate_type", "occurred_at",
   "status", "retry_count", "retry_policy", "last_error", "processed_at", "next_retry_at"]

/-- The entry as an object. What is missing is null. -/
def toJson (e : Entry) : Json :=
  .obj [
    ("entry_id", .str e.id),
    ("event_type", .str e.eventType),
    ("event_data", .obj e.eventData),
    ("aggregate_id", .str e.aggregateId),
    ("aggregate_type", .str e.aggregateType),
    ("occurred_at", e.occurredAt.toJson),
    ("status", .str e.status.text),
    ("retry_count", .int e.retryCount.toNat),
    ("retry_policy", e.policy.toJson),
    ("last_error", .ofOption .str e.lastError),
    ("processed_at", .ofOption Instant.toJson e.processedAt),
    ("next_retry_at", .ofOption Instant.toJson e.nextRetryAt)]

/-- Reads an entry. Whether its fields go together is not asked. -/
def ofJson? (v : Json) : Option Entry := do
  let fields ← v.record? fieldNames
  some {
    id := ← required? fields "entry_id" text?
    eventType := ← required? fields "event_type" text?
    eventData := ← required? fields "event_data" object?
    aggregateId := ← required? fields "aggregate_id" text?
    aggregateType := ← required? fields "aggregate_type" text?
    occurredAt := ← required? fields "occurred_at" Instant.ofJson?
    status := ← required? fields "status" (variant? EntryStatus.ofText?)
    retryCount := ← required? fields "retry_count" count?
    policy := ← required? fields "retry_policy" RetryPolicy.ofJson?
    lastError := ← optional? fields "last_error" text?
    processedAt := ← optional? fields "processed_at" Instant.ofJson?
    nextRetryAt := ← optional? fields "next_retry_at" Instant.ofJson? }

end Entry

end TableService
