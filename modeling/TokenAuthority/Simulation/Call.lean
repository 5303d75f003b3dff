import TokenAuthority.Json.Basic
import TokenAuthority.Resilience.Retry

/-!
# Scripted calls

Calls that do what a script says, for running the resilience wrappers on their own: a call waits, for
a time or for ever, and then succeeds or fails.
-/

namespace TokenAuthority.Simulation

inductive CallError where
  | failed (text : String) (transient : Bool)
  | timedOut (error : TimeoutError)

def CallError.message : CallError → String
  | .failed text _ => text
  | .timedOut e => e.message

/-- Whether the error is transient, where a passed deadline counts as `deadlines` says. -/
def CallError.isTransient (deadlines : Bool) : CallError → Bool
  | .failed _ transient => transient
  | .timedOut _ => deadlines

inductive Call where
  /-- It never ends. -/
  | hang
  /-- It waits, if it has a delay, and ends. -/
  | ends (delay : Option Span) (result : Except CallError Json)

namespace Call

open TokenAuthority.Action

def action : Call → Action (Except CallError Json)
  | .hang => .await .never fun x => nomatch x
  | .ends none result => return result
  | .ends (some delay) result => do
    sleep delay
    return result

/-- What a call is counted as. -/
def made : Metrics.Event := .storeFailure "call"

/-- A call under a deadline, if there is one; it is counted. -/
def counted (limit : Option Span) (c : Call) : Action (Except CallError Json) := do
  count made
  match limit with
  | some limit => withTimeoutOr .timedOut limit c.action
  | none => c.action

/-- The call with a number, counted from one; the last one repeats. -/
def nth (calls : List Call) (n : Nat) : Call := calls.getD (n - 1) (calls.getLastD .hang)

/-- Calls, one after the other, until one succeeds. -/
def retried (b : Backoff) (deadlines : Bool) (limit : Option Span) (calls : List Call) :
    Action (Except (RetryError CallError) Json) :=
  retry b (CallError.isTransient deadlines) fun n => (nth calls n).counted limit

end Call

end TokenAuthority.Simulation
