import TokenAuthority.Settings.Basic
import TokenAuthority.Text.Utf8

/-!
# Settings from the environment

Each setting is read from a variable of its name; a variable that is not set leaves the default. A
variable that is set has to be readable, or there are no settings.
-/

namespace TokenAuthority

/-- Variables with the octets they are set to. -/
structure Environment where
  bindings : List (String × List UInt8)

namespace Environment

def ofTexts (texts : List (String × String)) : Environment :=
  ⟨texts.map fun v => (v.1, Utf8.encode v.2)⟩

def octets? (env : Environment) (name : String) : Option (List UInt8) :=
  (env.bindings.find? (·.1 = name)).map Prod.snd

/-- The text of a variable. One that is set to octets that are no text counts as not set. -/
def get? (env : Environment) (name : String) : Option String :=
  (env.octets? name).bind Utf8.decode?

def set (env : Environment) (name text : String) : Environment :=
  ⟨(name, Utf8.encode text) :: env.bindings⟩

/-- The text of a variable, or a default. -/
def getD (env : Environment) (name default : String) : String := (env.get? name).getD default

/-- The text of a variable, if it is set to more than white space. -/
def filled? (env : Environment) (name : String) : Option String :=
  (env.get? name).filter fun text => !Blank.isBlankText text

/-- The number that a variable gives, or a default. White space around it does not matter. -/
def number {α : Type} (env : Environment) (name : String) (default : α)
    (read : String → Except Integer.ReadError α) : Except Settings.Error α :=
  match env.get? name with
  | none => .ok default
  | some text => (read (Blank.trim text)).mapError fun e => .notANumber name e

def unsigned64 (env : Environment) (name : String) (default : Nat) : Except Settings.Error Nat :=
  env.number name default (Integer.readUnsigned 64)

def unsigned32 (env : Environment) (name : String) (default : Nat) : Except Settings.Error Nat :=
  env.number name default (Integer.readUnsigned 32)

/-- A span of whole seconds. -/
def seconds (env : Environment) (name : String) (default : Nat) : Except Settings.Error Span :=
  return Span.ofSecs (← env.unsigned64 name default)

/-- A span of whole milliseconds. -/
def milliseconds (env : Environment) (name : String) (default : Nat) : Except Settings.Error Span :=
  return Span.ofMillis (← env.unsigned64 name default)

/-- Yes or no, in one of several spellings. -/
def switch (env : Environment) (name : String) (default : Bool) : Except Settings.Error Bool :=
  match env.get? name with
  | none => .ok default
  | some text =>
    let word := String.ofList ((Blank.trim text).toList.map Char.toLower)
    if ["1", "true", "yes", "on"].contains word then .ok true
    else if ["0", "false", "no", "off"].contains word then .ok false
    else .error (.notASwitch name word)

/-- Armour from a variable, in which ends of lines may be spelled out. -/
def unescapedArmour (text : String) : String :=
  Blank.trim (String.ofList (unescape text.toList))
where
  /-- Puts a line feed where a reverse solidus and an `n` stand. -/
  unescape : List Char → List Char
    | '\\' :: 'n' :: rest => '\n' :: unescape rest
    | c :: rest => c :: unescape rest
    | [] => []

end Environment

namespace Settings

def keysOf (env : Environment) : SignatureAlgorithm → Except Error KeySource
  | .hs256 =>
    match env.filled? "JWT_SECRET" with
    | some secret => .ok (.secret secret)
    | none => .error (.missingKey "JWT_SECRET" .hs256)
  | .rs256 =>
    match env.filled? "JWT_PUBLIC_KEY", env.filled? "JWT_PRIVATE_KEY" with
    | none, _ => .error (.missingKey "JWT_PUBLIC_KEY" .rs256)
    | some pub, some priv =>
      .ok (.armouredPair (Environment.unescapedArmour priv) (Environment.unescapedArmour pub))
    | some pub, none => .ok (.publicArmour (Environment.unescapedArmour pub))

def algorithmOf (env : Environment) : Except Error SignatureAlgorithm :=
  let text := env.getD "JWT_ALGORITHM" "RS256"
  match SignatureAlgorithm.ofText? text with
  | some a => .ok a
  | none =>
    .error (.unknownAlgorithm
      (KeyMaterial.Problem.unsupportedAlgorithm (SignatureAlgorithm.normalized text)).error)

def Tokens.read (env : Environment) : Except Error Tokens := do
  let keys ← keysOf env (← algorithmOf env)
  let issuer := env.getD "JWT_ISSUER" "auth-service"
  let audience := env.getD "JWT_AUDIENCE" "api"
  let accessTtl ← env.seconds "JWT_ACCESS_TTL_SECS" 900
  let refreshTtl ← env.seconds "JWT_REFRESH_TTL_SECS" 604800
  let resetTtl ← env.seconds "JWT_RESET_TTL_SECS" 1800
  let leeway := UInt64.ofNat (← env.unsigned64 "JWT_LEEWAY_SECS" 0)
  let rotateRefreshTokens ← env.switch "JWT_ROTATE_REFRESH_TOKENS" false
  return { keys, issuer, audience, accessTtl, refreshTtl, resetTtl, leeway, rotateRefreshTokens }

def Revocations.read (env : Environment) : Except Error Revocations := do
  let defaults : Revocations := {}
  let keySpace := env.getD "REVOCATION_KEY_PREFIX" defaults.keySpace
  let minTtl ← env.seconds "REVOCATION_MIN_TTL_SECS" 300
  let checkTimeout ← env.milliseconds "REVOCATION_CHECK_TIMEOUT_MS" 3000
  let opTimeout ← env.milliseconds "CACHE_OP_TIMEOUT_MS" 500
  let maxAttempts ← env.unsigned32 "CACHE_RETRY_MAX_ATTEMPTS" 3
  let initial ← env.milliseconds "CACHE_RETRY_INITIAL_BACKOFF_MS" 100
  let cap ← env.milliseconds "CACHE_RETRY_MAX_BACKOFF_MS" 2000
  let failureThreshold := UInt32.ofNat (← env.unsigned32 "CACHE_BREAKER_FAILURE_THRESHOLD" 5)
  let recoveryTimeout ← env.seconds "CACHE_BREAKER_RECOVERY_SECS" 60
  return {
    keySpace, minTtl, checkTimeout, opTimeout
    retry := { defaults.retry with maxAttempts, initial, cap }
    breaker := { defaults.breaker with failureThreshold, recoveryTimeout } }

def Throttling.read (env : Environment) : Except Error Throttling := do
  let enabled ← env.switch "VERIFY_THROTTLE_ENABLED" true
  let maxFailures := UInt64.ofNat (← env.unsigned64 "VERIFY_THROTTLE_MAX_FAILURES" 20)
  let window ← env.seconds "VERIFY_THROTTLE_WINDOW_SECS" 300
  return { enabled, throttle := { maxFailures, window } }

def readRedis (env : Environment) : Except Error Redis.Config := do
  let url := env.filled? "REDIS_URL"
  let host := env.getD "REDIS_HOST" "127.0.0.1"
  let port := UInt16.ofNat (← env.number "REDIS_PORT" 6379 (Integer.readUnsigned 16))
  let db := Int64.ofInt (← env.number "REDIS_DB" 0 Integer.readInt64)
  let username := env.filled? "REDIS_USERNAME"
  let password := env.filled? "REDIS_PASSWORD"
  let poolSize ← env.unsigned64 "REDIS_POOL_SIZE" 20
  let connectTimeout ← env.milliseconds "REDIS_CONNECT_TIMEOUT_MS" 5000
  let responseTimeout ← env.milliseconds "REDIS_RESPONSE_TIMEOUT_MS" 5000
  return { url, host, port, db, username, password, poolSize, connectTimeout, responseTimeout }

/-- Reads settings without checking what they have to fulfil. -/
def read (env : Environment) : Except Error Settings := do
  let tokens ← Tokens.read env
  let passwordCost ← env.unsigned32 "PASSWORD_HASH_COST" PasswordHasher.defaultCost
  let revocations ← Revocations.read env
  let throttling ← Throttling.read env
  let redis ← readRedis env
  return { tokens, passwordCost, revocations, throttling, redis }

/-- The settings that an environment gives, as far as they can be used. Reading them ends without an
answer where their check does. -/
def ofEnvironment (env : Environment) : Except Fault (Except Error Settings) :=
  match read env with
  | .error e => .ok (.error e)
  | .ok s =>
    match s.fault? with
    | some f => .error f
    | none => .ok (s.check.map fun _ => s)

end Settings

end TokenAuthority
