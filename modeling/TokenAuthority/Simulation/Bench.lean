import TokenAuthority.Effect.Pool
import TokenAuthority.Report.Settings
import TokenAuthority.Simulation.Names
import TokenAuthority.Simulation.Randomness
import TokenAuthority.Simulation.Step
import TokenAuthority.Time.ManualClock

/-!
# The bench

A service with all its surroundings, on which a scenario is played: a scripted cache, a clock moved by
hand, a timer that moves only when it is moved or when everything waits, and the names of the tokens
made so far. Steps are played one after the other or side by side.
-/

namespace TokenAuthority.Simulation

/-- What a step ends with. -/
structure Outcome where
  answer : Except Failure Json
  /-- The tokens it made, each with what follows the name of the step. -/
  made : List (String × String) := []

namespace Outcome

def ok (value : Json) : Outcome := { answer := .ok value }

def failed (f : Failure) : Outcome := { answer := .error f }

/-- The outcome of a call, shown by `view`, with the tokens it made. -/
def ofExcept {ε α : Type} (failure : ε → Failure) (view : α → Json)
    (made : α → List (String × String)) : Except ε α → Outcome
  | .ok a => { answer := .ok (view a), made := made a }
  | .error e => .failed (failure e)

/-- The outcome of a call of a service that makes no token. -/
def ofAuth {α : Type} (view : α → Json) (r : Except AuthError α) : Outcome :=
  ofExcept AuthError.failure view (fun _ => []) r

def ofStore {α : Type} (view : α → Json) (r : Except Revocation.Error α) : Outcome :=
  ofExcept Revocation.Error.failure view (fun _ => []) r

/-- The outcome of a call that makes a pair of tokens. -/
def ofPair (r : Except AuthError TokenPair) : Outcome :=
  ofExcept AuthError.failure TokenPair.report
    (fun p => [(".access", p.accessToken), (".refresh", p.refreshToken)]) r

def ofIssued (r : Except AuthError IssuedToken) : Outcome :=
  ofExcept AuthError.failure IssuedToken.report (fun t => [("", t.token)]) r

/-- The outcome of a call that makes a token and answers its text. -/
def ofToken (r : Except AuthError String) : Outcome :=
  ofExcept AuthError.failure Report.token (fun t => [("", t)]) r

def ofRefreshed (r : Except AuthError RefreshedTokens) : Outcome :=
  ofExcept AuthError.failure RefreshedTokens.report
    (fun t => (".access", t.accessToken) :: (t.refreshToken.map fun s => (".refresh", s)).toList) r

/-- What is answered for a token that was never kept. -/
def noToken : Outcome := .failed (.bare "no_token")

end Outcome

/-- What one call of a step ends with: the outcome of the step, or of revoking one of many tokens. -/
inductive Reply where
  | outcome (o : Outcome)
  | revocation (r : Except Revocation.Error Bool)

/-- A service with its surroundings. -/
structure Bench where
  world : World Cache.Scripted
  clock : ManualClock
  adapter : Adapter
  /-- A throttle of its own over the same cache. -/
  throttle : Throttle
  /-- Whether events are counted. -/
  counting : Bool
  names : Names

/-- How a step is played: it is over, or it makes calls that run side by side. -/
inductive Plan : Type 1 where
  | over (outcome : Outcome) (bench : Bench)
  | calls (actions : List (Action Reply)) (collect : List Reply → Outcome) (bench : Bench)

namespace Plan

/-- The outcome of a step that makes one call. -/
def first : List Reply → Outcome
  | .outcome o :: _ => o
  | _ => .failed (.bare "endless")

def call (b : Bench) (action : Action Outcome) : Plan :=
  .calls [do return .outcome (← action)] first b

end Plan

namespace Bench

def new (adapter : Adapter) (cache : Cache.Scripted) (clock : Int64) (counting : Bool) : Bench where
  world := World.atStart cache clock (adapter.settings.breaker adapter.backend) (Randomness.seeded 0)
  clock := .startingAt clock
  adapter
  throttle := adapter.settings.throttling.throttle
  counting
  names := {}

def backend (b : Bench) : Cache.Backend Cache.Scripted := Cache.Scripted.backend b.adapter.backend

def mapCache (b : Bench) (change : Cache.Scripted → Cache.Scripted) : Bench :=
  { b with world := { b.world with cache := change b.world.cache } }

def withClock (b : Bench) (clock : ManualClock) : Bench :=
  { b with clock, world := { b.world with clock := fun _ => clock.unix } }

def afterUse (b : Bench) : Bench := { b with adapter := b.adapter.afterUse }

def token? (b : Bench) (t : TokenText) : Option String := t.resolve b.names.find?

def tokenId? (b : Bench) (i : TokenId) : Option String := i.resolve b.names.find?

/-! ### Plans -/

def onService (b : Bench) (call : TokenService → Action Outcome) : Plan :=
  match b.adapter.fault?, b.adapter.service with
  | some f, _ => .call b (.fault f)
  | none, .ok s => .call b.afterUse (call s)
  | none, .error e => .over (.failed e.failure) b.afterUse

def onToken (b : Bench) (t : TokenText) (call : TokenService → String → Action Outcome) : Plan :=
  match b.token? t with
  | some token => b.onService fun s => call s token
  | none => .over .noToken b

/-- A call of the store for the identifier of a token. -/
def onTokenId (b : Bench) (i : TokenId) (call : Revocation.Store → String → Action Outcome) : Plan :=
  match b.tokenId? i with
  | some id => b.onService fun s => call s.store id
  | none => .over .noToken b

/-- A request of a client, if it is known. -/
def request (client : Option String) : Action RequestContext := do
  let request ← RequestContext.generate
  return { request with client }

def entry? (b : Bench) (order : RevocationOrder) : Option Revocation.Entry :=
  (b.tokenId? order.id).map fun id =>
    let e := Revocation.Entry.forSpan id (order.revokedAt.getD b.clock.unix) order.ttl order.reason
    { e with userId := order.userId }

def throttlePlan (b : Bench) (client : String) : ThrottleCall → Plan
  | .failures => .call b do return .ok (Report.natural (← b.throttle.failures client).toNat)
  | .check => .call b do return .ok (.bool (← b.throttle.isThrottled client))
  | .record => .call b do
    return .ok (Report.optional (fun n => Report.natural n.toNat) (← b.throttle.recordFailure client))
  | .reset => .call b do
    b.throttle.reset client
    return .ok .null

def servicePlan (b : Bench) : ServiceCall → Plan
  | .issue subject => b.onService fun s => do return .ofPair (← s.issue subject)
  | .issueAccess subject => b.onService fun s => do return .ofIssued (← s.issueAccessToken subject)
  | .issueRefresh subject => b.onService fun s => do return .ofIssued (← s.issueRefreshToken subject)
  | .issueReset userId email => b.onService fun s => do
    return .ofIssued (← s.issueResetToken userId email)
  | .verify token expected client => b.onToken token fun s token => do
    return .ok (← s.verifyFor (← request client) token expected).report
  | .refresh token client => b.onToken token fun s token => do
    return .ofRefreshed (← s.refreshFor (← request client) token)
  | .revoke token reason => b.onToken token fun s token => do
    return .ofAuth (fun _ => .null) (← s.revoke token reason)
  | .health => b.onService fun s => do return .ok (← s.health).report
  | .policy => b.onService fun s =>
    return .ok (.object [("policy", s.policy.report), ("key_id", .string s.keys.keyId)])

def storePlan (b : Bench) : StoreCall → Plan
  | .isRevoked id => b.onTokenId id fun s id => do return .ofStore .bool (← s.isRevoked id)
  | .revoke id ttl => b.onTokenId id fun s id => do
    return .ofStore (fun _ => .null) (← s.revoke id ttl)
  | .revokeEntry order =>
    match b.entry? order with
    | some entry => b.onService fun s => do return .ofStore .bool (← s.store.revokeEntry entry)
    | none => .over .noToken b
  | .lookup id => b.onTokenId id fun s id => do
    return .ofStore (Report.optional Revocation.Entry.report) (← s.lookup id)
  | .remove id => b.onTokenId id fun s id => do return .ofStore .bool (← s.remove id)
  | .circuit => b.onService fun _ => do
    let circuit : Circuit ← Action.query (.circuit .state)
    return .ok (.string circuit.name)

def bulkPlan (b : Bench) (orders : List RevocationOrder) : Plan :=
  match orders.mapM b.entry?, b.adapter.fault?, b.adapter.service with
  | none, _, _ => .over .noToken b
  | _, some f, _ => .call b (.fault f)
  | _, none, .error e => .over (.failed e.failure) b.afterUse
  | some entries, none, .ok s =>
    .calls ((s.store.bulkRevoke entries).map fun a => do return .revocation (← a))
      (fun replies =>
        let results := replies.filterMap fun
          | .revocation r => some r
          | .outcome _ => none
        .ok (Revocation.BulkOutcome.collect entries results).report)
      b.afterUse

def directory : Users → UserDirectory (Int64 × Bool)
  | .known active inactive =>
    { find := fun id =>
        return .ok <|
          if active.contains id then some (id, true)
          else if inactive.contains id then some (id, false)
          else none
      isActive := Prod.snd }
  | .broken causes => { find := fun _ => return .error causes.reverse, isActive := Prod.snd }

/-- A user with who presents the token. -/
def reportUser (role : Option String) (r : Identity × (Int64 × Bool)) : Json :=
  .object
    [("identity", r.1.report role),
     ("user", .object [("id", Report.signed r.2.1), ("active", .bool r.2.2)])]

/-- A stored password, checked against two passwords. -/
def reportPassword (a : Adapter) (password other : String) (h : PasswordHash) : Outcome :=
  let verifies (p : String) : Json :=
    match a.verifyPassword p h.hash with
    | .ok matched => .bool matched
    | .error _ => .null
  .ok <| .object
    [("prefix", .string (String.ofList (h.hash.toList.take 7))),
     ("salt_embedded", .bool ((h.hash.toList.drop 7).take 22 == h.salt.toList)),
     ("verifies", verifies password), ("other_verifies", verifies other)]

/-- How a call of the adapter for a token is played. -/
def adapterTokenPlan (b : Bench) (t : TokenText) (call : Adapter → String → Action Outcome) : Plan :=
  match b.token? t with
  | some token => .call b.afterUse (call b.adapter token)
  | none => .over .noToken b

def adapterPlan (b : Bench) : AdapterCall → Plan
  | .accessToken id email roles => .call b.afterUse do
    return .ofToken (← b.adapter.generateAccessToken id email roles)
  | .refreshToken id email roles => .call b.afterUse do
    return .ofToken (← b.adapter.generateRefreshToken id email roles)
  | .tokenPair id email roles => .call b.afterUse do
    return .ofPair (← b.adapter.generateTokenPair id email roles)
  | .verifyAccess token role => b.adapterTokenPlan token fun a token => do
    return .ok (Report.optional (Identity.report · role) (← a.verifyAccessToken token))
  | .verifyRefresh token role => b.adapterTokenPlan token fun a token => do
    return .ok (Report.optional (Identity.report · role) (← a.verifyRefreshToken token))
  | .verifyFor token client role => b.adapterTokenPlan token fun a token => do
    return .ofAuth (Identity.report · role) (← a.verifyFor (← request client) token)
  | .refresh token => b.adapterTokenPlan token fun a token => do
    return .ofRefreshed (← a.refreshAccessToken token)
  | .revoke token => b.adapterTokenPlan token fun a token => do
    return .ofAuth (fun _ => .null) (← a.revokeToken token)
  | .hashPassword password other => .call b do
    match ← b.adapter.hashPassword password with
    | .ok h => return reportPassword b.adapter password other h
    | .error e => return .failed e.failure
  | .verifyPassword password stored =>
    .over (.ofAuth .bool (b.adapter.verifyPassword password stored)) b
  | .authenticate token client role users => b.adapterTokenPlan token fun a token => do
    return .ofAuth (reportUser role) (← a.authenticate (← request client) token (directory users))

/-- How a step is played. -/
def plan (b : Bench) : Step → Plan
  | .script script default =>
    .over (.ok .null) (b.mapCache fun c => { c with script, default := default.getD c.default })
  | .calls =>
    .over (.ok (.array (b.world.cache.calls.map Cache.Request.record)))
      (b.mapCache fun c => { c with calls := [] })
  | .size => .over (.ok (Report.natural (b.world.cache.memory.size b.world.now))) b
  | .sweep =>
    let (dropped, memory) := b.world.cache.memory.purge b.world.now
    .over (.ok (Report.natural dropped)) (b.mapCache fun c => { c with memory })
  | .counters =>
    .over (.ok (Metrics.Counts.report (if b.counting then b.world.counts else []))) b
  | .clock time seconds =>
    let clock := (time.elim b.clock b.clock.set).advance (1000 * seconds)
    .over (.ok (Report.signed clock.unix)) (b.withClock clock)
  | .timer s => .over (.ok .null) { b with world := b.world.advance s }
  | .pass seconds =>
    let clock := b.clock.advance (1000 * seconds)
    let b := b.withClock clock
    .over (.ok (Report.signed clock.unix)) { b with world := b.world.advance (.ofSecs seconds) }
  | .initialized => .over (.ok (.bool b.adapter.isInitialized)) b
  | .backend => .over (.ok (.string b.adapter.backend)) b
  | .cache r => .call b do
    return .ofExcept Cache.Error.failure r.report (fun _ => []) (← Action.cache r)
  | .throttle call client => b.throttlePlan client call
  | .service call => b.servicePlan call
  | .store call => b.storePlan call
  | .storeBulk orders => b.bulkPlan orders
  | .adapter call => b.adapterPlan call

/-! ### Playing -/

/-- A step that has been started: how many calls it made, and what they end with together. -/
structure Started where
  name : String
  begun : Instant
  calls : Nat
  collect : List (Reply × Instant) → Option (Outcome × Instant)

/-- Calls of a bench that run side by side. -/
abbrev Members := List (Pool.Member Cache.Scripted (Option (Reply × Instant)))

/-- An action that says also when it was over. -/
def timed (a : Action Reply) : Action (Reply × Instant) := do
  let reply ← a
  let time : Instant ← Action.query .timer
  return (reply, time)

/-- The outcome of all calls of a step and when the last of them was over, if they are. -/
def collectAll (collect : List Reply → Outcome) (calls : Nat) (begun : Instant)
    (results : List (Reply × Instant)) : Option (Outcome × Instant) :=
  if results.length = calls then
    some (collect (results.map Prod.fst),
      results.foldl (fun t r => if t < r.2 then r.2 else t) begun)
  else none

/-- The outcomes of started steps, in order; none for one that is not over. -/
def outcomes : List Started → Members → List (Option (Outcome × Instant))
  | [], _ => []
  | s :: rest, ms =>
    s.collect ((ms.take s.calls).filterMap fun m => m.value?.join) :: outcomes rest (ms.drop s.calls)

/-- The bench with the tokens kept that steps have made. -/
def keeping (b : Bench) (started : List Started) (ms : Members) : Bench :=
  let keep (n : Names) : Started × Option (Outcome × Instant) → Names
    | (s, some (o, _)) => o.made.foldl (fun n t => n.keep (s.name ++ t.1) t.2) n
    | (_, none) => n
  { b with names := (started.zip (outcomes started ms)).foldl keep b.names }

/-- Starts steps one after the other; each goes on until it waits before the next one starts. -/
def startAll (started : List Started) (ms : Members) :
    List (String × Step) → Bench → Except Fault (List Started × Members × Bench)
  | [], b => .ok (started, ms, b)
  | (name, step) :: rest, b => do
    let begun := b.world.now
    match (b.keeping started ms).plan step with
    | .over outcome after =>
      let time := after.world.now
      let s : Started := ⟨name, begun, 0, fun _ => some (outcome, time)⟩
      startAll (started ++ [s]) ms rest { after with names := b.names }
    | .calls actions collect after =>
      let flows := actions.map fun a => (timed a).start
      let (ms, world) ← Pool.startAll b.backend ms flows after.world
      let s : Started := ⟨name, begun, flows.length, collectAll collect flows.length begun⟩
      startAll (started ++ [s]) ms rest { after with world, names := b.names }

/-- Plays steps side by side. Each outcome comes with the time that the step took. -/
def play (steps : List (String × Step)) (b : Bench) :
    Except Fault (List (Outcome × Span) × Bench) := do
  let (started, ms, b) ← startAll [] [] steps b
  let (ms, world) ← Pool.run b.backend true ms b.world
  let b := { b with world }
  let results := (started.zip (outcomes started ms)).map fun
    | (s, some (o, time)) => (o, time.since s.begun)
    | (s, none) => (.failed (.bare "endless"), world.now.since s.begun)
  return (results, b.keeping started ms)

end Bench

end TokenAuthority.Simulation
