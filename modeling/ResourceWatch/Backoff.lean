import ResourceWatch.Text.Duration

/-!
# Retry delays

The delay before a retry grows along the Fibonacci numbers, from a least delay
up to a cap, in whole seconds. Failures are counted for each key on its own:
every failure of a key makes its next delay longer, and a success forgets them.

Seconds and failure counts have fixed room. A sum that has no room stays at the
largest value that has, which the cap then cuts down.
-/

namespace ResourceWatch

/-- The largest number of seconds that a delay has room for. -/
def maxSeconds : Nat := Nat.pow 2 64 - 1

/-- The largest number of failures that is counted. -/
def maxFailures : Nat := Nat.pow 2 32 - 1

/-- Bounds of a delay, in whole seconds. -/
structure Backoff where
  /-- The first delay. -/
  least : Nat
  /-- The longest delay. -/
  most : Nat
deriving DecidableEq, Repr, Inhabited

namespace Backoff

/-- The bounds that two durations give. The first delay has at least one second,
and the cap is never below it. -/
def ofDurations (min max : Duration) : Backoff :=
  let least := Nat.max 1 min.seconds
  ⟨least, Nat.max least max.seconds⟩

/-- Advance the pair of the last two delays `steps` times, and stop once the
cap is reached. -/
def grow (most : Nat) : Nat → Nat → Nat → Nat
  | 0, _, current => current
  | steps + 1, previous, current =>
    let next := Nat.min (Nat.min (previous + current) maxSeconds) most
    if most ≤ next then next else grow most steps current next

/-- The delay in seconds after so many failures in a row. No failure counts as
one. -/
def delaySeconds (b : Backoff) (failures : Nat) : Nat := grow b.most (failures - 1) 0 b.least

/-- The delay after so many failures in a row. -/
def delay (b : Backoff) (failures : Nat) : Duration := .ofSeconds (b.delaySeconds failures)

end Backoff

/-- Failures in a row for each key, beside the bounds that they are turned into
delays with. Keys without failures have no entry. -/
structure RetryLedger where
  /-- Bounds of the delays. -/
  backoff : Backoff
  /-- Failures by key. -/
  failures : List (String × Nat) := []
deriving DecidableEq, Repr, Inhabited

namespace RetryLedger

/-- Failures in a row recorded for a key. -/
def count (l : RetryLedger) (key : String) : Nat :=
  ((l.failures.find? (·.1 == key)).map (·.2)).getD 0

def reset (l : RetryLedger) (key : String) : RetryLedger :=
  { l with failures := l.failures.filter (·.1 != key) }

def record (l : RetryLedger) (key : String) : RetryLedger :=
  let n := Nat.min (l.count key + 1) maxFailures
  { l with failures := (key, n) :: l.failures.filter (·.1 != key) }

def delayOf (l : RetryLedger) (key : String) : Duration := l.backoff.delay (l.count key)

end RetryLedger

end ResourceWatch
