import TokenAuthority.Redis.Server
import TokenAuthority.Report.Tokens
import TokenAuthority.Simulation.Randomness

/-!
# The server bench

A cache, or an adapter over it, whose entries are kept by a scripted cache server. Each step gives the
server its script and shows the commands that it caused.
-/

namespace TokenAuthority.Simulation

/-- A cache server with what uses it. -/
structure ServerBench where
  world : World Redis.Server
  adapter : Adapter
  /-- The token that steps are about. -/
  token : String := ""

/-- A call of an adapter about one token. -/
inductive ServerCall where
  | access (userId : Int64) (email : String)
  | verify (client : Option String)
  | revoke
  | health

namespace ServerBench

def unconnected : Redis.Server :=
  { size := 1, used := 0, responseTimeout := Span.zero, script := [], sent := [] }

def new (adapter : Adapter) (clock : Int64) (token : String) : ServerBench where
  world := World.atStart unconnected clock (adapter.settings.breaker adapter.backend) (.seeded 0)
  adapter
  token

/-- The bench whose server follows a script, with no command recorded. -/
def scripted (b : ServerBench) (script : List Redis.Response) : ServerBench :=
  { b with world := { b.world with cache := { b.world.cache with script, sent := [] } } }

/-- The bench after its server was connected to, as long as settings tell how. -/
def connect (b : ServerBench) : Except Redis.ConfigError ServerBench :=
  (Redis.Server.connected b.adapter.settings.redis).map fun s =>
    { b with world := { b.world with cache := { s with script := b.world.cache.script } } }

def run {α : Type} (b : ServerBench) (a : Action α) : Ending α × ServerBench :=
  let (ending, world) := a.run Redis.Server.backend b.world
  (ending, { b with world })

/-- The commands recorded, each with the number of its connection. -/
def sent (b : ServerBench) (view : String → Json) : Json :=
  .array (b.world.cache.sent.map fun (i, words) =>
    .array [Report.natural i, .array (words.map view)])

/-! ### Calls of an adapter -/

/-- The action of a call, with the token that it makes the current one. -/
def action (b : ServerBench) : ServerCall → Action (Except AuthError (Json × String))
  | .access userId email => do
    return (← b.adapter.generateAccessToken userId email []).map fun token =>
      (Report.natural (Split.on '.' token.toList).length, token)
  | .verify client => do
    let request ← RequestContext.generate
    return (← b.adapter.verifyFor { request with client } b.token).map fun i =>
      (.array [Report.signed i.userId, .string i.email], b.token)
  | .revoke => do
    return (← b.adapter.revokeToken b.token).map fun _ => (.null, b.token)
  | .health => b.adapter.withService fun s => do
    let h ← s.health
    return .ok (.array [.string h.store.backend, .bool h.store.isReachable,
      .string h.store.circuit.name], b.token)

/-- Makes a call. An adapter without a service connects first. -/
def call (b : ServerBench) (c : ServerCall) : Except Fault (Except AuthError Json × ServerBench) :=
  match if b.adapter.isInitialized then .ok b else b.connect with
  | .error e => .ok (.error (.config e.chain), b)
  | .ok b =>
    match b.run (b.action c) with
    | (.value (.ok (answer, token)), after) =>
      .ok (.ok answer, { after with token, adapter := b.adapter.afterUse })
    | (.value (.error e), after) => .ok (.error e, { after with adapter := b.adapter.afterUse })
    | (.fault f, _) => .error f
    | (.endless, after) => .ok (.error (.config "endless"), after)

/-! ### What is shown of commands -/

/-- A word of a command without what differs from run to run: of the key of a revoked token only the
length of the identifier is shown, of an entry what it holds, of seconds nothing. -/
def maskWord (keySpace : String) (word : String) : Json :=
  let start := keySpace ++ ":"
  if word.startsWith start then .string (start ++ toString (word.utf8ByteSize - start.utf8ByteSize))
  else
    match Revocation.Entry.parse? word, Json.parse? word with
    | some e, some (.object members) =>
      .object
        [("keys", Report.texts ((members.map Prod.fst).mergeSort fun a b => a ≤ b)),
         ("reason", .string e.reason.name), ("user_id", Report.optional .string e.userId),
         ("lifetime", .int (e.expiresAt.toInt - e.revokedAt.toInt))]
    | _, _ =>
      if 2 ≤ word.length ∧ word.toList.all Char.isDigit then .string "<secs>" else .string word

end ServerBench

end TokenAuthority.Simulation
