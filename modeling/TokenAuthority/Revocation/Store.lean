import TokenAuthority.Resilience.Retry
import TokenAuthority.Revocation.Entry
import TokenAuthority.Text.Blank

/-!
# The revocation store

Which tokens are revoked, kept in a cache under the identifiers of the tokens. Each call of the store
asks the circuit breaker first, tries its cache call again while it fails for a passing reason, and
reports back to the breaker; a call that its caller abandons is reported as failed. When the store
cannot answer, the caller gets an error and decides what that means.
-/

namespace TokenAuthority.Revocation

/-- Why the store gives no answer. -/
inductive Error where
  /-- The cache failed after some attempts. -/
  | unavailable (attempts : Nat) (cause : String)
  /-- The circuit breaker refused the call. -/
  | circuitOpen
  /-- The identifier is empty or holds white space. -/
  | invalidTokenId
  /-- What is stored is no entry. -/
  | corrupt (detail : String)
deriving DecidableEq

def Error.message : Error → String
  | .unavailable attempts cause =>
    "revocation store unavailable after " ++ toString attempts ++ " attempt(s): " ++ cause
  | .circuitOpen => "revocation store circuit is open"
  | .invalidTokenId => "invalid token id"
  | .corrupt detail => "corrupt revocation entry: " ++ detail

/-- Operations of the store, by the names under which their failures are counted. -/
inductive Operation where
  | isRevoked
  | revoke
  | lookup
  | remove
deriving DecidableEq

def Operation.name : Operation → String
  | .isRevoked => "is_revoked"
  | .revoke => "revoke"
  | .lookup => "lookup"
  | .remove => "remove"

/-- How the store uses its cache. -/
structure Store where
  /-- What all its keys begin with. -/
  keySpace : String
  /-- The deadline of one cache call. -/
  opTimeout : Span
  retry : Backoff
deriving DecidableEq

/-- The state of the store as an operator sees it. -/
structure StoreHealth where
  backend : String
  circuit : Circuit
  /-- Why the cache cannot be reached, if it cannot. -/
  error : Option Cache.Error

/-- Whether the cache answered. -/
def StoreHealth.isReachable (h : StoreHealth) : Bool := h.error.isNone

namespace Store

open TokenAuthority.Action

def key (s : Store) (tokenId : String) : Except Error String :=
  if tokenId.isEmpty || tokenId.toList.any Blank.isBlank then .error .invalidTokenId
  else .ok (s.keySpace ++ ":" ++ tokenId)

/-- One attempt at a cache call, under its deadline. -/
def attempt (s : Store) (request : Cache.Request) : Action (Except Cache.Error request.Value) :=
  withTimeoutOr (fun e => .timeout e.limit) s.opTimeout (cache request)

def countFailure (operation : Operation) : Query := .count (.storeFailure operation.name)

/-- What is reported when the caller of an operation abandons it. -/
def abandoned (operation : Operation) : List Query := [.circuit .failure, countFailure operation]

/-- A cache call behind the breaker, tried again while that may help. -/
def guarded (s : Store) (operation : Operation) (request : Cache.Request) :
    Action (Except Error request.Value) := do
  let granted : Bool ← query (.circuit .acquire)
  if granted then
    let outcome ← reporting (abandoned operation)
      (Action.retry s.retry Cache.Error.isTransient fun _ => s.attempt request)
    match outcome with
    | .ok value =>
      let _ ← query (.circuit .success)
      return .ok value
    | .error e =>
      let _ ← query (.circuit .failure)
      let _ ← query (countFailure operation)
      return .error (.unavailable e.attempts e.inner.message)
  else
    let _ ← query (countFailure operation)
    return .error .circuitOpen

/-- A cache call for a token, whose key must be valid. -/
def onKey (s : Store) (operation : Operation) (tokenId : String)
    (request : String → Cache.Request) {α : Type} (next : (k : String) → (request k).Value → Except Error α) :
    Action (Except Error α) := do
  match s.key tokenId with
  | .error e => return .error e
  | .ok k =>
    match ← s.guarded operation (request k) with
    | .error e => return .error e
    | .ok value => return next k value

def isRevoked (s : Store) (tokenId : String) : Action (Except Error Bool) :=
  s.onKey .isRevoked tokenId .contains fun _ found => .ok found

/-- Keeps an entry, unless there is one already. Answers whether it was kept. -/
def revokeEntry (s : Store) (e : Entry) : Action (Except Error Bool) := do
  let outcome ← s.onKey .revoke e.tokenId (.setIfAbsent · e.text e.ttl) fun _ stored => .ok stored
  if outcome matches .ok true then
    count (.revocation e.reason.name)
  return outcome

/-- Revokes a token for a span. A token that is revoked already stays as it is. -/
def revoke (s : Store) (tokenId : String) (ttl : Span) : Action (Except Error Unit) := do
  let time ← now
  match ← s.revokeEntry (.forSpan tokenId time ttl .logout) with
  | .ok _ => return .ok ()
  | .error e => return .error e

/-- The entry of a token, if it is revoked. -/
def lookup (s : Store) (tokenId : String) : Action (Except Error (Option Entry)) :=
  s.onKey .lookup tokenId .get fun _ stored =>
    match stored with
    | none => .ok none
    | some text =>
      match Entry.parse? text with
      | some e => .ok (some e)
      | none => .error (.corrupt "not an entry")

/-- Makes a token valid again. Answers whether it was revoked. -/
def remove (s : Store) (tokenId : String) : Action (Except Error Bool) :=
  s.onKey .remove tokenId .delete fun _ removed => .ok removed

/-- Asks the cache directly whether it answers, and the breaker how it stands. -/
def health (s : Store) (backend : String) : Action StoreHealth := do
  let outcome ← s.attempt .ping
  let circuit : Circuit ← query (.circuit .state)
  return { backend, circuit, error := match outcome with | .ok _ => none | .error e => some e }

end Store

/-! ### Many at once -/

/-- The outcome of revoking many tokens at once. -/
structure BulkOutcome where
  revoked : List String
  alreadyRevoked : List String
  /-- Tokens that could not be revoked, each with the reason in words. -/
  failed : List (String × String)
deriving DecidableEq

/-- The calls that revoke many tokens at once; they run side by side. -/
def Store.bulkRevoke (s : Store) (entries : List Entry) : List (Action (Except Error Bool)) :=
  entries.map s.revokeEntry

/-- Sorts tokens by what became of them, each list in the order of the entries. -/
def BulkOutcome.collect (entries : List Entry) (outcomes : List (Except Error Bool)) : BulkOutcome :=
  let results := entries.zip outcomes
  { revoked := results.filterMap fun r => if r.2 matches .ok true then some r.1.tokenId else none
    alreadyRevoked :=
      results.filterMap fun r => if r.2 matches .ok false then some r.1.tokenId else none
    failed := results.filterMap fun r =>
      match r.2 with
      | .error e => some (r.1.tokenId, e.message)
      | .ok _ => none }

end TokenAuthority.Revocation
