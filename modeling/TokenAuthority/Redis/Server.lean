import TokenAuthority.Effect.Action
import TokenAuthority.Redis.Command
import TokenAuthority.Resilience.Retry

/-!
# A scripted cache server

A fixed number of connections to a server that follows a script, handed out in turn. Every command is
recorded with the connection that it went over.
-/

namespace TokenAuthority.Redis

/-- What a server does with a command. -/
inductive Response where
  | reply (reply : Reply)
  /-- It does not reply. -/
  | silence
  /-- It closes the connection. -/
  | close

/-- Connections to a scripted server. -/
structure Server where
  /-- How many connections there are. -/
  size : Nat
  /-- How many have been handed out. -/
  used : Nat
  responseTimeout : Span
  /-- What the server does with the commands to come. -/
  script : List Response
  /-- The commands so far, each with the number of its connection. -/
  sent : List (Nat × List String)

namespace Server

/-- The connections that settings ask for, once they are set up. -/
def connected (c : Config) : Except ConfigError Server :=
  c.target.map fun t =>
    let size := max c.poolSize 1
    { size, used := 0, responseTimeout := c.responseTimeout, script := []
      sent := (List.range size).flatMap fun i => (setUp t).map fun words => (i, words) }

/-- Sends a command over a connection. A command that the script does not know is refused. -/
def send (s : Server) (connection : Nat) (words : List String) : Response × Server :=
  ((s.script.head?).getD (.reply (.error "ERR unknown command")),
    { s with script := s.script.tail, sent := s.sent ++ [(connection, words)] })

/-- The reply to a command, or none if it does not come. -/
def reply? : Response → Option (Except Error Reply)
  | .reply (.error text) => some (.error (Reply.errorOf text))
  | .reply r => some (.ok r)
  | .close => some (.error (.connection "broken pipe"))
  | .silence => none

/-- Whether a reply says that the script of a counter is not known. -/
def asksForScript : Option (Except Error Reply) → Bool
  | some (.error (.described kind _ _)) => kind = "NoScriptError"
  | _ => false

/-- Sends the commands for a call over the next connection. -/
def exchange (s : Server) (r : Cache.Request) : Option (Except Error Reply) × Server :=
  let connection := s.used % s.size
  let (first, s) := { s with used := s.used + 1 }.send connection (command r)
  match r with
  | .increment _ _ =>
    if asksForScript (reply? first) then
      let (loaded, s) := s.send connection loadScript
      match reply? loaded with
      | some (.ok _) =>
        let (again, s) := s.send connection (command r)
        (reply? again, s)
      | other => (other, s)
    else (reply? first, s)
  | _ => (reply? first, s)

/-- The cache that the server keeps. -/
def backend : Cache.Backend Server where
  name := "redis"
  start r _ s :=
    match s.exchange r with
    | (some reply, s) => (s, .acts none fun _ s => .ok (answer r reply, s))
    | (none, s) =>
      (s, .acts (some s.responseTimeout) fun _ s' => .ok (silence s.responseTimeout r, s'))

end Server

/-! ### Connecting -/

/-- Makes the first connection to a server that never accepts it: every attempt ends by its deadline, and
the last error is told in words. -/
def connectInVain (c : Config) (b : Backoff) : Action (Except String Unit) := do
  let attempt : Action (Except TimeoutError Unit) :=
    Action.withTimeoutOr id c.connectTimeout (.await .never fun x => nomatch x)
  match ← Action.retry b (fun _ => true) fun _ => attempt with
  | .ok () => return .ok ()
  | .error e =>
    return .error ("failed to connect to Redis at " ++ c.endpoint ++ ": " ++ e.message TimeoutError.message)

end TokenAuthority.Redis
