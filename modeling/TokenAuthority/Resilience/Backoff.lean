import TokenAuthority.Binary64

/-!
# Back-off between attempts

How often a call may be tried and how long to wait between two attempts: the delay grows by a factor
from attempt to attempt up to a cap, and may be spread by a random factor.
-/

namespace TokenAuthority

/-- How often to try, and how long to wait in between. -/
structure Backoff where
  /-- All attempts, the first call included; none counts as one. -/
  maxAttempts : Nat := 3
  /-- The delay before the second attempt. -/
  initial : Span := Span.ofMillis 100
  /-- No delay is longer than this. -/
  cap : Span := Span.ofSecs 2
  /-- By what each delay grows over the one before. -/
  multiplier : Binary64 := Binary64.ofNat 2
  /-- Whether each delay is scaled by a random factor. -/
  jitter : Bool := true
deriving DecidableEq

namespace Backoff

def once : Backoff := { maxAttempts := 1 }

/-- How many attempts are made at most. -/
def attempts (b : Backoff) : Nat := max b.maxAttempts 1

def smallestFactor : Binary64 := Binary64.ofDecimal false 8 (-1)

def largestFactor : Binary64 := Binary64.ofDecimal false 12 (-1)

/-- The delay after an attempt, in seconds, before it is scaled and capped. The growth stops after
the thirty-second step. -/
def base (b : Backoff) (attempt : Nat) : Binary64 :=
  Binary64.ofSpan b.initial * b.multiplier.power (Nat.min (attempt - 1) 32)

/-- Seconds cut to the range from zero to the cap. -/
def capped (b : Backoff) (seconds : Binary64) : Binary64 :=
  (seconds.min (Binary64.ofSpan b.cap)).max (Binary64.ofNat 0)

/-- The delay after the failed attempt with this number, counted from one, with its random factor.
There is none when the cap itself is too long to be a span again. -/
def delayAfter? (b : Backoff) (attempt : Nat) (factor : Binary64) : Option Span :=
  let seconds := if b.jitter then b.base attempt * factor else b.base attempt
  (b.capped seconds).toSpan?

/-- The sum, in seconds, of the delays after `count` attempts from number `first` on, each scaled by
`factor`. -/
def sumFrom (b : Backoff) (factor : Binary64) : (first count : Nat) → Binary64 → Binary64
  | _, 0, total => total
  | first, count + 1, total =>
    sumFrom b factor (first + 1) count (total + b.capped (b.base first * factor))

def maxTotalDelay? (b : Backoff) : Option Span :=
  let factor := if b.jitter then largestFactor else Binary64.ofNat 1
  (b.sumFrom factor 1 (b.attempts - 1) (Binary64.ofNat 0)).toSpan?

/-- The longest time that all attempts and delays can take when each attempt ends by its deadline. -/
def worstCase? (b : Backoff) (perAttempt : Span) : Option Span := do
  let calls ← perAttempt.times? b.attempts
  let delays ← b.maxTotalDelay?
  calls.add? delays

end Backoff

end TokenAuthority
