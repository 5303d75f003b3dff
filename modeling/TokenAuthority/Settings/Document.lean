import TokenAuthority.Json.Members
import TokenAuthority.Settings.Basic

/-!
# Settings in documents

Settings given as JSON objects. What an object leaves out has its default, save that delays are not
scattered at random unless that is asked for.
-/

namespace TokenAuthority

/-- A span: milliseconds, or seconds and nanoseconds. -/
def Span.ofJson? : Json → Option Span
  | .array [secs, nanos] => do return .ofParts (← secs.natural?) (← nanos.natural?)
  | j => j.natural?.map .ofMillis

/-- A number, or the name of one that is not finite. -/
def Binary64.ofJson? : Json → Option Binary64
  | .string "nan" => some .nan
  | .string "inf" => some (.infinite false)
  | .string "-inf" => some (.infinite true)
  | .number (.whole n) => some (.ofDecimal (n < 0) n.natAbs 0)
  | .number (.decimal negative significand exponent) =>
    some (.ofDecimal negative significand exponent)
  | _ => none

/-- A signed word. -/
def Json.word? (j : Json) : Option Int64 := j.int64?.map Int64.ofInt

def Json.uint64? (j : Json) : Option UInt64 := j.natural?.map UInt64.ofNat

def Json.uint32? (j : Json) : Option UInt32 := j.natural?.map UInt32.ofNat

def KeySource.ofJson? (j : Json) : Option KeySource :=
  match j.member? "hs256", j.member? "rs256", j.member? "rs256_public" with
  | some key, _, _ => key.text?.map .secret
  | _, some (.array [priv, pub]), _ => do return .armouredPair (← priv.text?) (← pub.text?)
  | _, _, some pub => pub.text?.map .publicArmour
  | _, _, none => none

def Backoff.ofJson? (j : Json) : Option Backoff := do
  let d : Backoff := {}
  return {
    maxAttempts := ← j.orElse "max_attempts" Json.natural? d.maxAttempts
    initial := ← j.orElse "initial_backoff" Span.ofJson? d.initial
    cap := ← j.orElse "max_backoff" Span.ofJson? d.cap
    multiplier := ← j.orElse "multiplier" Binary64.ofJson? d.multiplier
    jitter := ← j.orElse "jitter" Json.flag? false }

def Breaker.Config.ofJson? (j : Json) : Option Breaker.Config := do
  let d : Breaker.Config := {}
  return {
    failureThreshold := ← j.orElse "failure_threshold" Json.uint32? d.failureThreshold
    recoveryTimeout := ← j.orElse "recovery_timeout" Span.ofJson? d.recoveryTimeout
    halfOpenCalls := ← j.orElse "half_open_max_calls" Json.uint32? d.halfOpenCalls }

def Throttle.ofJson? (j : Json) : Option Throttle := do
  let d : Throttle := {}
  return {
    keySpace := ← j.orElse "key_prefix" Json.text? d.keySpace
    maxFailures := ← j.orElse "max_failures" Json.uint64? d.maxFailures
    window := ← j.orElse "window" Span.ofJson? d.window }

def TokenPolicy.ofJson? (j : Json) : Option TokenPolicy := do
  let d : TokenPolicy := {}
  return {
    accessTtl := ← j.orElse "access_ttl" Span.ofJson? d.accessTtl
    refreshTtl := ← j.orElse "refresh_ttl" Span.ofJson? d.refreshTtl
    resetTtl := ← j.orElse "reset_ttl" Span.ofJson? d.resetTtl
    rotateRefreshTokens := ← j.orElse "rotate" Json.flag? d.rotateRefreshTokens
    revocationMinTtl := ← j.orElse "revocation_min_ttl" Span.ofJson? d.revocationMinTtl
    revocationCheckTimeout :=
      ← j.orElse "revocation_check_timeout" Span.ofJson? d.revocationCheckTimeout }

def Redis.Config.ofJson? (j : Json) : Option Redis.Config := do
  let d : Redis.Config := {}
  return {
    url := ← j.maybe "url" Json.text?
    host := ← j.orElse "host" Json.text? d.host
    port := UInt16.ofNat (← j.orElse "port" Json.natural? d.port.toNat)
    db := ← j.orElse "db" Json.word? d.db
    username := ← j.maybe "username" Json.text?
    password := ← j.maybe "password" Json.text?
    poolSize := ← j.orElse "pool_size" Json.natural? d.poolSize
    connectTimeout := ← j.orElse "connect_timeout" Span.ofJson? d.connectTimeout
    responseTimeout := ← j.orElse "response_timeout" Span.ofJson? d.responseTimeout }

namespace Settings

def Tokens.ofJson? (keys : KeySource) (j : Json) : Option Tokens := do
  let d : Tokens := { keys }
  return {
    keys
    issuer := ← j.orElse "issuer" Json.text? d.issuer
    audience := ← j.orElse "audience" Json.text? d.audience
    accessTtl := ← j.orElse "access_ttl" Span.ofJson? d.accessTtl
    refreshTtl := ← j.orElse "refresh_ttl" Span.ofJson? d.refreshTtl
    resetTtl := ← j.orElse "reset_ttl" Span.ofJson? d.resetTtl
    leeway := ← j.orElse "leeway" Json.uint64? d.leeway
    rotateRefreshTokens := ← j.orElse "rotate" Json.flag? d.rotateRefreshTokens }

def Revocations.ofJson? (j : Json) : Option Revocations := do
  let d : Revocations := {}
  return {
    keySpace := ← j.orElse "key_prefix" Json.text? d.keySpace
    minTtl := ← j.orElse "min_ttl" Span.ofJson? d.minTtl
    checkTimeout := ← j.orElse "check_timeout" Span.ofJson? d.checkTimeout
    opTimeout := ← j.orElse "op_timeout" Span.ofJson? d.opTimeout
    retry := ← Backoff.ofJson? (j.part "retry")
    breaker := ← Breaker.Config.ofJson? (j.part "breaker") }

def ofJson? (passwordCost : Nat) (j : Json) : Option Settings := do
  let throttling := j.part "throttle"
  return {
    tokens := ← Tokens.ofJson? (← j.need "key" KeySource.ofJson?) (j.part "jwt")
    passwordCost := ← j.orElse "bcrypt_cost" Json.natural? passwordCost
    revocations := ← Revocations.ofJson? (j.part "revocation")
    throttling := {
      enabled := ← throttling.orElse "enabled" Json.flag? true
      throttle := ← Throttle.ofJson? throttling } }

end Settings

end TokenAuthority
