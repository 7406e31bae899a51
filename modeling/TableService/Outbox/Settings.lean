import TableService.Number.Limits
import TableService.Outbox.RetryPolicy
import TableService.Text.Blank
import TableService.Text.Numeral
import TableService.Text.Quoted

/-!
# Settings of the outbox

- `Settings`: the poll interval, the batch size and the retry policy.
- `Settings.ofLookup`: reads them from named texts; what is not given keeps its usual value.
- `SettingsError`: which text was refused.

Poll interval, batch size and number of retries must not be zero.
-/

namespace TableService

/-- What can be set from outside, with the usual values. -/
structure Settings where
  pollIntervalMs : Nat := 1000
  batchSize : Nat := 10
  policy : RetryPolicy := {}
deriving DecidableEq

/-- Why a setting is refused: its text is no number in range, or it must not be zero. -/
inductive SettingsError where
  | invalid (key value : String)
deriving DecidableEq

/-- How the refusal is reported, with every character of the text visible. -/
def SettingsError.message : SettingsError → String
  | invalid key value => "Invalid value for " ++ key ++ ": " ++ Text.quote value

namespace Settings

/-- Names the interval between two passes, in milliseconds. -/
abbrev pollIntervalKey := "TABB_OUTBOX_POLL_INTERVAL_MS"

/-- Names the most entries of a pass. -/
abbrev batchSizeKey := "TABB_OUTBOX_BATCH_SIZE"

/-- Names the number of attempts at an entry. -/
abbrev maxRetriesKey := "TABB_OUTBOX_MAX_RETRIES"

/-- Names the delay behind the first failure, in seconds. -/
abbrev baseDelayKey := "TABB_OUTBOX_BASE_DELAY_SECS"

/-- A number below `bound` between blanks, or `usual` if the key has no text. -/
def number (lookup : String → Option String) (key : String) (bound usual : Nat) :
    Except SettingsError Nat :=
  match lookup key with
  | none => .ok usual
  | some raw =>
    match Text.Numeral.unsigned? bound (Text.trimChars raw.toList) with
    | some n => .ok n
    | none => .error (.invalid key raw)

/-- Refuses zero. The report shows a plain zero, however it was written. -/
def nonzero (key : String) (n : Nat) : Except SettingsError Unit :=
  if n = 0 then .error (.invalid key "0") else .ok ()

/-- Zero retries are refused last, behind a base delay that cannot be read. -/
def ofLookup (lookup : String → Option String) : Except SettingsError Settings := do
  let usual : Settings := {}
  let pollIntervalMs ← number lookup pollIntervalKey limit64 usual.pollIntervalMs
  nonzero pollIntervalKey pollIntervalMs
  let batchSize ← number lookup batchSizeKey limit64 usual.batchSize
  nonzero batchSizeKey batchSize
  let maxRetries ← number lookup maxRetriesKey limit32 usual.policy.maxRetries.toNat
  let baseDelaySeconds ← number lookup baseDelayKey limit32 usual.policy.baseDelaySeconds.toNat
  nonzero maxRetriesKey maxRetries
  return { pollIntervalMs, batchSize, policy := ⟨.ofNat maxRetries, .ofNat baseDelaySeconds⟩ }

end Settings

end TableService
