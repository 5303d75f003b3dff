import TokenAuthority.Effect.Action

/-!
# Retried and timed actions

An action that fails is tried again while its error is transient and attempts are left, after the
delays of a `Backoff`. An action under a deadline fails when it takes longer.
-/

namespace TokenAuthority

/-- Why no attempt succeeded. -/
inductive RetryError (ε : Type) where
  /-- Every attempt failed with a transient error; this was the last one. -/
  | exhausted (attempts : Nat) (last : ε)
  /-- An attempt failed with an error that trying again does not mend. -/
  | permanent (error : ε)
deriving DecidableEq

namespace RetryError

variable {ε : Type}

/-- The error in words, given the words of the last attempt's error. -/
def message (text : ε → String) : RetryError ε → String
  | .exhausted attempts last =>
    "gave up after " ++ toString attempts ++ " attempts: " ++ text last
  | .permanent error => "non-retryable failure: " ++ text error

def inner : RetryError ε → ε
  | .exhausted _ last => last
  | .permanent error => error

/-- The number of attempts that is reported; a permanent error counts as one. -/
def attempts : RetryError ε → Nat
  | .exhausted attempts _ => attempts
  | .permanent _ => 1

end RetryError

structure TimeoutError where
  limit : Span
deriving DecidableEq

def TimeoutError.message (e : TimeoutError) : String :=
  "operation timed out after " ++ e.limit.text

namespace Action

variable {α ε : Type}

def withTimeout (limit : Span) (body : Action α) : Action (Except TimeoutError α) := do
  match ← timeout limit body with
  | some a => return .ok a
  | none => return .error ⟨limit⟩

/-- An action under a deadline that fails with an error of its own kind when it takes longer. -/
def withTimeoutOr (ofTimeout : TimeoutError → ε) (limit : Span) (body : Action (Except ε α)) :
    Action (Except ε α) := do
  match ← timeout limit body with
  | some r => return r
  | none => return .error (ofTimeout ⟨limit⟩)

/-- Waits between the failed attempt with this number and the next one. -/
def backOff (b : Backoff) (attempt : Nat) : Action Unit := do
  let factor ← if b.jitter then query .factor else pure Backoff.smallestFactor
  let delay ← orFault .spanRange (b.delayAfter? attempt factor)
  sleep delay

/-- Attempt number `attempt`, and up to `more` attempts after it. -/
def retryFrom (b : Backoff) (isTransient : ε → Bool) (call : Nat → Action (Except ε α)) :
    (more attempt : Nat) → Action (Except (RetryError ε) α)
  | 0, attempt => do
    match ← call attempt with
    | .ok a => return .ok a
    | .error e =>
      return .error (if isTransient e then .exhausted attempt e else .permanent e)
  | more + 1, attempt => do
    match ← call attempt with
    | .ok a => return .ok a
    | .error e =>
      if isTransient e then
        backOff b attempt
        retryFrom b isTransient call more (attempt + 1)
      else return .error (.permanent e)

/-- Tries an action until it succeeds, fails for good or has used up its attempts. Attempts are
counted from one. -/
def retry (b : Backoff) (isTransient : ε → Bool) (call : Nat → Action (Except ε α)) :
    Action (Except (RetryError ε) α) :=
  retryFrom b isTransient call (b.attempts - 1) 1

end Action

/-- An open circuit refused the action, or the action failed. -/
inductive BreakerError (ε : Type) where
  | refused (name : String)
  | inner (error : ε)

/-- The error in words, given the words of the action's error. -/
def BreakerError.message {ε : Type} (text : ε → String) : BreakerError ε → String
  | .refused name => "circuit '" ++ name ++ "' is open"
  | .inner error => text error

/-- Runs an action if the breaker permits it and reports how it ended. An action that is abandoned or ends in
a fault is not reported. -/
def Action.throughBreaker {α ε : Type} (name : String) (body : Action (Except ε α)) :
    Action (Except (BreakerError ε) α) := do
  let granted : Bool ← query (.circuit .acquire)
  if granted then
    match ← body with
    | .ok a =>
      let _ ← query (.circuit .success)
      return .ok a
    | .error e =>
      let _ ← query (.circuit .failure)
      return .error (.inner e)
  else return .error (.refused name)

/-! ### Tuned bundles -/

/-- How one class of calls is guarded. -/
structure CallPolicy where
  timeout : Span
  retry : Backoff
  breaker : Breaker.Config
deriving DecidableEq

namespace CallPolicy

/-- For the first connection to a cache server. -/
def connection : CallPolicy where
  timeout := Span.ofSecs 5
  retry := { maxAttempts := 5, initial := Span.ofMillis 200, cap := Span.ofSecs 5 }
  breaker := { failureThreshold := 3, recoveryTimeout := Span.ofSecs 15 }

/-- For the look-up that each verification makes. -/
def revocationCheck : CallPolicy where
  timeout := Span.ofMillis 500
  retry := {}
  breaker := {}

/-- The longest time that a retried call can take when every attempt ends by its deadline. -/
def worstCase? (p : CallPolicy) : Option Span := p.retry.worstCase? p.timeout

end CallPolicy

end TokenAuthority
