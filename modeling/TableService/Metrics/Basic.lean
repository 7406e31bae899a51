import TableService.Metrics.Series

/-!
# Metrics of the outbox

- `Metrics`: what has been counted of attempts, by event type, and of the worker's passes.
- `Metrics.recordProcessed`, `recordFailure`, `recordDeadLetter`, `recordPass`: what counts.
- `Metrics.families`: all that has been counted, families by name and samples by their label values.
-/

namespace TableService

/-- Durations in seconds, oldest first. -/
abbrev Durations := List Float

/-- What has been counted since the start. -/
structure Metrics where
  processed : Series Nat := ∅
  /-- By event type and reason. -/
  failed : Series Nat := ∅
  deadLettered : Series Nat := ∅
  durations : Series Durations := ∅
  passes : Nat := 0
  errors : Nat := 0

namespace Metrics

/-- Counts an entry that has been processed, and how long its projector took. -/
def recordProcessed (m : Metrics) (eventType : String) (seconds : Float) : Metrics :=
  { m with
    processed := m.processed.count [eventType]
    durations := m.durations.update [eventType] [] (· ++ [seconds]) }

/-- Counts a failed attempt under its reason. -/
def recordFailure (m : Metrics) (eventType reason : String) : Metrics :=
  { m with failed := m.failed.count [eventType, reason] }

/-- Counts an entry that has been given up behind its last attempt. -/
def recordDeadLetter (m : Metrics) (eventType : String) : Metrics :=
  { m with deadLettered := m.deadLettered.count [eventType] }

/-- A pass of the worker that is over. -/
def recordPass (m : Metrics) (failed : Bool) : Metrics :=
  { m with passes := m.passes + 1, errors := m.errors + if failed then 1 else 0 }

end Metrics

/-- Upper ends of the ranges in which durations are counted. -/
def durationBounds : List Float :=
  [0.0005, 0.001, 0.005, 0.01, 0.05, 0.1, 0.5, 1.0]

/-- What a sample shows: a count, or durations from which ranges are counted. -/
inductive Measure where
  | count (n : Nat)
  | durations (ds : Durations)

/-- How many things a sample counts. -/
def Measure.size : Measure → Nat
  | count n => n
  | durations ds => ds.length

/-- One count with its labels. -/
structure Sample where
  labels : List (String × String)
  measure : Measure

/-- All samples of one name, with the text that explains them. -/
structure Family where
  name : String
  help : String
  samples : List Sample

namespace Metrics

/-- A sample for each count of a series. -/
def samples (names : List String) (measure : α → Measure) (series : Series α) : List Sample :=
  series.toList.map fun (values, a) => ⟨names.zip values, measure a⟩

/-- Families without samples are left out. -/
def families (m : Metrics) : List Family :=
  let all : List Family := [
    { name := "outbox_entries_dead_lettered_total"
      help := "Outbox entries that exhausted their retries"
      samples := samples ["event_type"] .count m.deadLettered },
    { name := "outbox_entries_failed_total"
      help := "Failed outbox projection attempts"
      samples := samples ["event_type", "reason"] .count m.failed },
    { name := "outbox_entries_processed_total"
      help := "Outbox entries projected successfully"
      samples := samples ["event_type"] .count m.processed },
    { name := "outbox_projection_duration_seconds"
      help := "Time spent inside a projector per entry"
      samples := samples ["event_type"] .durations m.durations },
    { name := "outbox_worker_errors_total"
      help := "Errors escaping a processing pass, swallowed by the worker"
      samples := [⟨[], .count m.errors⟩] },
    { name := "outbox_worker_passes_total"
      help := "Processing passes started by the background worker"
      samples := [⟨[], .count m.passes⟩] }]
  all.filter (!·.samples.isEmpty)

end Metrics

end TableService
