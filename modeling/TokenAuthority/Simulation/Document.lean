import TokenAuthority.Cache.Scripted
import TokenAuthority.Redis.Server
import TokenAuthority.Settings.Document
import TokenAuthority.Simulation.Step

/-!
# Scripts in documents

Scripts of caches, calls of caches and replies of cache servers given as JSON values.
-/

namespace TokenAuthority

namespace Cache

def Act.ofName? : String → Option Act
  | "ok" => some .pass
  | "unavailable" => some (.fail (.unavailable "connection refused"))
  | "timeout" => some (.fail (.timeout (Span.ofMillis 1500)))
  | "protocol" => some (.fail (.protocol "WRONGTYPE bad value"))
  | "hang" => some .hang
  | _ => none

/-- An act: its name, a text to answer, or an act after a delay. -/
def Act.ofJson? : Json → Option Act
  | .string name => ofName? name
  | j =>
    match j.member? "after", j.member? "value" with
    | some delay, _ => do
      return .after (← Span.ofJson? delay) (← ofName? (← j.orElse "then" Json.text? "ok"))
    | _, some text => text.text?.map .answer
    | _, _ => none

def Scripted.ofJson? (j : Json) : Option Scripted := do
  return {
    script := ← j.orElse "script" (Json.list? Act.ofJson?) []
    default := ← j.orElse "default" Act.ofJson? .pass
    calls := []
    memory := .empty (← j.orElse "purge_every" Json.natural? Memory.defaultSweepEvery) }

end Cache

namespace Simulation

/-- The step on a cache or a throttle with a name. -/
def Step.ofJson? (name : String) (j : Json) : Option Step := do
  let text (name : String) : Option String := j.need name Json.text?
  match name with
  | "get" => return .cache (.get (← text "key"))
  | "set_nx_ex" =>
    return .cache (.setIfAbsent (← text "key") (← text "value") (← j.need "ttl" Span.ofJson?))
  | "exists" => return .cache (.contains (← text "key"))
  | "delete" => return .cache (.delete (← text "key"))
  | "incr" => return .cache (.increment (← text "key") (← j.need "ttl" Span.ofJson?))
  | "ping" => return .cache .ping
  | "backend" => return .backend
  | "advance" => return .timer (← j.need "by" Span.ofJson?)
  | "len" => return .size
  | "purge" => return .sweep
  | "calls" => return .calls
  | "script" =>
    return .script (← j.orElse "script" (Json.list? Cache.Act.ofJson?) [])
      (← j.maybe "default" Cache.Act.ofJson?)
  | "throttle_failures" => return .throttle .failures (← text "client")
  | "throttle_check" => return .throttle .check (← text "client")
  | "throttle_record" => return .throttle .record (← text "client")
  | "throttle_reset" => return .throttle .reset (← text "client")
  | _ => none

end Simulation

namespace Redis

/-- A reply without items. -/
def Reply.ofJson? : Json → Option Reply
  | .object [("int", n)] => n.whole?.map .int
  | .object [("bulk", s)] => s.text?.map .bulk
  | .object [("status", s)] => s.text?.map .status
  | .object [("error", s)] => s.text?.map .error
  | .object [("nil", _)] => some .nil
  | _ => none

/-- What a server does with a command. An array is never read, so that its items do not matter. -/
def Response.ofJson? : Json → Option Response
  | .string "hang" => some .silence
  | .string "close" => some .close
  | .object [("array", .array _)] => some (.reply (.array []))
  | j => (Reply.ofJson? j).map .reply

end Redis

end TokenAuthority
