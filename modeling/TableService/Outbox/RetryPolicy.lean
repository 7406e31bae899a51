import TableService.Number.Word
import TableService.Time.Instant

/-!
# Retry policies

- `RetryPolicy`: how many attempts an entry has, and the delay after its first failure.
- `RetryPolicy.backoff`: the delay doubles with each failure.

Delays are worked out in words. What does not fit is cut to the greatest word, and what is longer
than the longest span is cut to that span.
-/

namespace TableService

/-- How often an entry is attempted, and how long it waits behind its first failure. A policy that
is read, rather than made, may allow no attempt at all. -/
structure RetryPolicy where
  maxRetries : UInt32 := 3
  baseDelaySeconds : UInt32 := 1
deriving DecidableEq

namespace RetryPolicy

/-- What the first delay is multiplied by after so many failures. -/
def factor (failures : UInt32) : UInt64 :=
  (Word.bit? (if failures = 0 then 0 else failures - 1)).getD Word.greatest

/-- The delay in seconds, cut to the greatest word. -/
def delaySeconds (policy : RetryPolicy) (failures : UInt32) : UInt64 :=
  Word.times policy.baseDelaySeconds.toUInt64 (factor failures)

/-- The delay after the given number of failures. -/
def backoff (policy : RetryPolicy) (failures : UInt32) : Span :=
  ((Word.signed? (policy.delaySeconds failures)).bind (Span.ofParts? · 0)).getD .longest

example : (backoff ⟨3, 2⟩ 4).wholeSeconds = 16 ∧ backoff ⟨3, 1⟩ 65 = .longest := by decide

end RetryPolicy

end TableService
