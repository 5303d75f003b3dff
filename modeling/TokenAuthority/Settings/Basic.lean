import TokenAuthority.Key.Material
import TokenAuthority.Password.Hasher
import TokenAuthority.Redis.Config
import TokenAuthority.Resilience.Retry
import TokenAuthority.Service.Basic
import TokenAuthority.Settings.Error

/-!
# Settings

Everything that can be set, with its defaults, and what settings have to fulfil. Settings that pass
`Settings.check` may still bring a warning: a revocation look-up may be cut off before all of its
attempts are made. Where the time for all attempts is no span, the check itself ends in a fault.
-/

namespace TokenAuthority

namespace Settings

structure Tokens where
  keys : KeySource
  issuer : String := "auth-service"
  audience : String := "api"
  accessTtl : Span := Span.ofSecs 900
  refreshTtl : Span := Span.ofSecs 604800
  resetTtl : Span := Span.ofSecs 1800
  /-- For how many seconds after its expiry a token is still accepted. -/
  leeway : UInt64 := 0
  rotateRefreshTokens : Bool := false
deriving DecidableEq

structure Revocations where
  keySpace : String := "token:blacklist"
  /-- How long a token is kept as revoked that has already expired. -/
  minTtl : Span := Span.ofSecs 300
  /-- The deadline of a revocation look-up with all its attempts. -/
  checkTimeout : Span := Span.ofSecs 3
  /-- The deadline of one cache call. -/
  opTimeout : Span := CallPolicy.revocationCheck.timeout
  retry : Backoff := CallPolicy.revocationCheck.retry
  breaker : Breaker.Config := CallPolicy.revocationCheck.breaker
deriving DecidableEq

/-- The longest time that a call of the store can take, if that is a span. -/
def Revocations.retryBudget? (r : Revocations) : Option Span := r.retry.worstCase? r.opTimeout

structure Throttling where
  enabled : Bool := true
  throttle : Throttle := {}
deriving DecidableEq

end Settings

/-- Everything that can be set. -/
structure Settings where
  tokens : Settings.Tokens
  passwordCost : Nat := PasswordHasher.defaultCost
  revocations : Settings.Revocations := {}
  throttling : Settings.Throttling := {}
  redis : Redis.Config := {}
deriving DecidableEq

namespace Settings

def Tokens.check (t : Tokens) : Except Error Unit := do
  if Blank.isBlankText t.issuer ∨ Blank.isBlankText t.audience then throw .emptyIssuerOrAudience
  if t.accessTtl.secs = 0 then throw (.lifetimeTooShort .access)
  if t.refreshTtl.secs = 0 then throw (.lifetimeTooShort .refresh)
  if t.resetTtl.secs = 0 then throw (.lifetimeTooShort .reset)
  if t.refreshTtl ≤ t.accessTtl then throw .accessOutlivesRefresh

def hasher (s : Settings) : Except CryptoError PasswordHasher := PasswordHasher.ofCost s.passwordCost

/-- What settings have to fulfil before their retries are looked at. -/
def checkLimits (s : Settings) : Except Error Unit := do
  s.tokens.check
  match s.hasher with
  | .error e => throw (.passwordCost e)
  | .ok _ => pure ()
  if s.revocations.checkTimeout = Span.zero ∨ s.revocations.opTimeout = Span.zero then
    throw .zeroTimeout

def checkThrottle (s : Settings) : Except Error Unit :=
  if s.throttling.enabled ∧ s.throttling.throttle.maxFailures = 0 then .error .throttleWithoutLimit
  else .ok ()

/-- What all settings have to fulfil. -/
def check (s : Settings) : Except Error Unit := do
  s.checkLimits
  s.checkThrottle

/-- The fault that ends the check of settings whose limits hold: the time for all attempts of a
revocation look-up is no span. -/
def fault? (s : Settings) : Option Fault :=
  match s.checkLimits, s.revocations.retryBudget? with
  | .ok _, none => some .spanRange
  | _, _ => none

/-- Whether a revocation look-up may be cut off before all of its attempts are made. -/
def cutsAttemptsOff (s : Settings) : Bool :=
  s.revocations.retryBudget?.any fun budget => decide (s.revocations.checkTimeout < budget)

def policy (s : Settings) : TokenPolicy where
  accessTtl := s.tokens.accessTtl
  refreshTtl := s.tokens.refreshTtl
  resetTtl := s.tokens.resetTtl
  rotateRefreshTokens := s.tokens.rotateRefreshTokens
  revocationMinTtl := s.revocations.minTtl
  revocationCheckTimeout := s.revocations.checkTimeout

def codec (s : Settings) : Codec :=
  Codec.withLeeway { issuer := s.tokens.issuer, audience := s.tokens.audience } s.tokens.leeway

def store (s : Settings) : Revocation.Store where
  keySpace := s.revocations.keySpace
  opTimeout := s.revocations.opTimeout
  retry := s.revocations.retry

/-- The circuit breaker of the revocation store over a cache with this name. -/
def breaker (s : Settings) (backend : String) : Breaker where
  name := backend ++ "-revocations"
  config := s.revocations.breaker
  state := Breaker.State.initial

/-- The throttle that is set, if it is to be used. -/
def throttle? (s : Settings) : Option Throttle :=
  if s.throttling.enabled then some s.throttling.throttle else none

/-- What wrong settings are reported as. -/
def checked (s : Settings) : Except AuthError Unit := s.check.mapError fun e => .config e.message

end Settings

/-- The service that settings describe, over a cache with this name. Its keys are loaded here, so keys
that cannot be loaded leave no service. -/
def TokenService.ofSettings (s : Settings) (backend : String) : Except AuthError TokenService := do
  s.checked
  let keys ← s.tokens.keys.load.mapError AuthError.crypto
  return { keys, codec := s.codec, store := s.store, throttle := s.throttle?, policy := s.policy, backend }

end TokenAuthority
