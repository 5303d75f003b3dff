import TokenAuthority.Digest.Sha1
import TokenAuthority.Redis.Config
import TokenAuthority.Redis.Reply
import TokenAuthority.Text.Utf8

/-!
# Commands for a cache server

The words of the commands that the calls of a cache become, and how their replies answer the calls. A
counter is moved by a script, so that it cannot be left without the end of its window.
-/

namespace TokenAuthority.Redis

def counterScript : String :=
  "\n    local current = redis.call('INCR', KEYS[1])\n    if current == 1 then\n"
    ++ "        redis.call('EXPIRE', KEYS[1], ARGV[1])\n    end\n    return current\n"

def counterDigest : String := Hex.encode (Digest.Sha1.hash (Utf8.encode counterScript))

/-- Seconds to live, as a word. -/
def seconds (s : Span) : String := toString s.lifetimeSecs

def command : Cache.Request → List String
  | .get key => ["GET", key]
  | .setIfAbsent key value ttl => ["SET", key, value, "NX", "EX", seconds ttl]
  | .contains key => ["EXISTS", key]
  | .delete key => ["DEL", key]
  | .increment key window => ["EVALSHA", counterDigest, "1", key, seconds window]
  | .ping => ["PING"]

def loadScript : List String := ["SCRIPT", "LOAD", counterScript]

def setUp (t : Target) : List (List String) :=
  (t.password.map fun p => "AUTH" :: (t.username.toList ++ [p])).toList
    ++ (if t.db = 0 then [] else [["SELECT", toString t.db.toInt]])

/-- Reads the reply to a greeting; the error is in words. -/
def greeting (r : Except Error Reply) : Except String Unit :=
  match r.bind Reply.text with
  | .ok "PONG" => .ok ()
  | .ok other => .error ("unexpected PING reply: " ++ other)
  | .error _ => .error "Redis PING failed"

/-- What is said of a greeting that gets no reply in time. -/
def silentGreeting (limit : Span) : String := "Redis PING operation timed out after " ++ limit.text

/-- The answer to a call, read from the reply to its command. -/
def answer : (r : Cache.Request) → Except Error Reply → r.Answer
  | .get _, reply => (reply.bind Reply.optionalText).mapError Error.toCacheError
  | .setIfAbsent _ _ _, reply =>
    ((reply.bind Reply.optionalText).map Option.isSome).mapError Error.toCacheError
  | .contains _, reply =>
    ((reply.bind Reply.int64).map fun n => decide (0 < n)).mapError Error.toCacheError
  | .delete _, reply =>
    ((reply.bind Reply.int64).map fun n => decide (0 < n)).mapError Error.toCacheError
  | .increment _ _, reply => (reply.bind Reply.uint64).mapError Error.toCacheError
  | .ping, reply => (greeting reply).mapError Cache.Error.unavailable

/-- The answer to a call whose command gets no reply in time. -/
def silence (limit : Span) : (r : Cache.Request) → r.Answer
  | .get _ => .error (.timeout limit)
  | .setIfAbsent _ _ _ => .error (.timeout limit)
  | .contains _ => .error (.timeout limit)
  | .delete _ => .error (.timeout limit)
  | .increment _ _ => .error (.timeout limit)
  | .ping => .error (.unavailable (silentGreeting limit))

end TokenAuthority.Redis
