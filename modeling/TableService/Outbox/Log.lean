import TableService.Outbox.Entry
import TableService.Sequence.FirstMatch
import TableService.Store.Table

/-!
# The log of entries

- `Log`: all entries in the order in which they came. None is ever removed.
- `Log.pending`, `Log.deadLettered`: entries by the time of their event; entries of one time keep
  the order of the log.
- `Log.stats`: counts.
- `LogM.save`: adds an entry whose id is new, in place.
- `LogM.markProcessed`, `markFailed`, `markDeadLettered`: the transition of the first entry with an
  id, in place.
- `Log.append`, `Log.markProcessed` and its like: the log behind such a change, if it is not
  refused.
-/

namespace TableService

/-- All entries, in the order in which they were added. -/
abbrev Log := List Entry

namespace Log

/-- The first entry with this id. -/
def find? (log : Log) (id : String) : Option Entry :=
  List.find? (·.id == id) log

/-- Oldest event first. -/
def byTime (entries : List Entry) : List Entry :=
  entries.mergeSort fun a b => a.occurredAt ≤ b.occurredAt

/-- The entries that are due, at most `limit` of them. -/
def pending (log : Log) (now : Instant) (limit : Nat) : List Entry :=
  (byTime (log.filter (·.isDue now))).take limit

/-- The entries that were given up, at most `limit` of them. -/
def deadLettered (log : Log) (limit : Nat) : List Entry :=
  (byTime (log.filter (·.status = .deadLettered))).take limit

/-- How many entries there are in all, in each status, and among those given up of each type. -/
structure Stats where
  total : Nat
  count : EntryStatus → Nat
  deadByType : Table Nat

/-- Counts the log as it is. -/
def stats (log : Log) : Stats where
  total := log.length
  count status := log.countP (·.status = status)
  deadByType := tally ((log.filter (·.status = .deadLettered)).map (·.eventType))

end Log

/-! ## Changes -/

/-- A change of the log in place. If it is refused half way, what it has done stays done. -/
abbrev LogM := ExceptT OutboxError (StateM Log)

namespace LogM

/-- Puts an entry at the end of the log, unless its id is taken. -/
def save (entry : Entry) : LogM Unit := do
  if (← get).any (·.id == entry.id) then throw (.duplicateEntry entry.id)
  else modify (· ++ [entry])

/-- Puts the first entry with this id through a transition, in its place. -/
def update (id : String) (m : EntryM α) : LogM α := do
  match (← get).find? id with
  | none => throw (.entryNotFound id)
  | some entry =>
    let (result, entry) := m.run.run entry
    modify (updateFirst (·.id == id) fun _ => entry)
    MonadExcept.ofExcept result

/-- Puts an entry through a transition and gives it as it is then. -/
def mark (id : String) (m : EntryM α) : LogM Entry :=
  update id do
    let _ ← m
    get

/-- Marks the entry with this id as processed. -/
def markProcessed (now : Instant) (id : String) : LogM Entry :=
  mark id (EntryM.markProcessed now)

/-- Counts a failed attempt at the entry with this id. -/
def markFailed (now : Instant) (id error : String) : LogM Entry :=
  mark id (EntryM.markFailed error now)

/-- Gives an entry up by hand. -/
def markDeadLettered (id : String) : LogM Entry :=
  mark id (EntryM.markDeadLettered (some "dead-lettered by operator"))

end LogM

namespace Log

/-- What a change gives and the log behind it, if it is not refused. -/
def change (log : Log) (m : LogM α) : Except OutboxError (α × Log) :=
  match m.run.run log with
  | (.ok a, log) => .ok (a, log)
  | (.error e, _) => .error e

/-- The log with one entry more. -/
def append (log : Log) (entry : Entry) : Except OutboxError Log :=
  (log.change (LogM.save entry)).map Prod.snd

/-- The entry with this id when it is processed, and the log with it. -/
def markProcessed (log : Log) (now : Instant) (id : String) : Except OutboxError (Entry × Log) :=
  log.change (LogM.markProcessed now id)

/-- The entry with this id behind a failed attempt, and the log with it. -/
def markFailed (log : Log) (now : Instant) (id error : String) : Except OutboxError (Entry × Log) :=
  log.change (LogM.markFailed now id error)

/-- The entry with this id when it is given up, and the log with it. -/
def markDeadLettered (log : Log) (id : String) : Except OutboxError (Entry × Log) :=
  log.change (LogM.markDeadLettered id)

end Log

end TableService
