import TokenAuthority.Resilience.Retry
import TokenAuthority.Text.Integer

/-!
# Throttling of failed verifications

A client that has failed too often within a window is turned away before its token is looked at. The
counters live in a cache; when it does not answer in time the client is let through, for a cache that
is down must not lock out everyone.
-/

namespace TokenAuthority

/-- How many failures a client may have in a window. -/
structure Throttle where
  /-- What all keys of counters begin with. -/
  keySpace : String := "auth:verify_failures"
  /-- The count from which on a client is turned away. -/
  maxFailures : UInt64 := 20
  window : Span := Span.ofSecs 300
deriving DecidableEq

namespace Throttle

open TokenAuthority.Action

def counterTimeout : Span := Span.ofMillis 250

def key (t : Throttle) (client : String) : String := t.keySpace ++ ":" ++ client

def onCounter (request : Cache.Request) : Action (Except Cache.Error request.Value) :=
  withTimeoutOr (fun e => .timeout e.limit) counterTimeout (cache request)

/-- The failures of a client in its window; none where the counter cannot be read. -/
def failures (t : Throttle) (client : String) : Action UInt64 := do
  match ← onCounter (.get (t.key client)) with
  | .ok (some text) => return (Integer.uint64? text).getD 0
  | _ => return 0

def isThrottled (t : Throttle) (client : String) : Action Bool := do
  let n ← t.failures client
  return t.maxFailures ≤ n

/-- Counts a failure of a client. Answers the new count, if the cache did. -/
def recordFailure (t : Throttle) (client : String) : Action (Option UInt64) := do
  match ← onCounter (.increment (t.key client) t.window) with
  | .ok n => return some n
  | .error _ => return none

def reset (t : Throttle) (client : String) : Action Unit := do
  let _ ← onCounter (.delete (t.key client))
  return ()

end Throttle

end TokenAuthority
