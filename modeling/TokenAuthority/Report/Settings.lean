import TokenAuthority.Report.Failure
import TokenAuthority.Settings.Basic

/-!
# Reported settings

Settings as they are shown, each with what follows from it: the longest time that retried calls can
take, and the key that the key texts give.
-/

namespace TokenAuthority

open Report

def Backoff.report (b : Backoff) : Json :=
  .object
    [("max_attempts", natural b.maxAttempts), ("initial_backoff", span b.initial),
     ("max_backoff", span b.cap), ("multiplier", real b.multiplier), ("jitter", .bool b.jitter)]

def Breaker.Config.report (c : Breaker.Config) : Json :=
  .object
    [("failure_threshold", natural c.failureThreshold.toNat), ("recovery_timeout", span c.recoveryTimeout),
     ("half_open_max_calls", natural c.halfOpenCalls.toNat)]

def CallPolicy.report (p : CallPolicy) : Json :=
  .object
    [("timeout", span p.timeout), ("retry", p.retry.report), ("breaker", p.breaker.report),
     ("worst_case", optional span p.worstCase?)]

def TokenPolicy.report (p : TokenPolicy) : Json :=
  .object
    [("access_ttl", span p.accessTtl), ("refresh_ttl", span p.refreshTtl),
     ("reset_ttl", span p.resetTtl), ("rotate", .bool p.rotateRefreshTokens),
     ("revocation_min_ttl", span p.revocationMinTtl),
     ("revocation_check_timeout", span p.revocationCheckTimeout)]

def KeySource.report : KeySource → Json
  | .secret text => .object [("hs256", .string text)]
  | .armouredPair priv pub => .object [("rs256", texts [priv, pub])]
  | .publicArmour pub => .object [("rs256_public", .string pub)]

namespace Settings

def Revocations.report (r : Revocations) : Json :=
  .object
    [("key_prefix", .string r.keySpace), ("min_ttl", span r.minTtl),
     ("check_timeout", span r.checkTimeout), ("op_timeout", span r.opTimeout),
     ("retry", r.retry.report), ("breaker", r.breaker.report),
     ("retry_budget", optional span r.retryBudget?)]

def Throttling.report (t : Throttling) : Json :=
  .object
    [("enabled", .bool t.enabled), ("key_prefix", .string t.throttle.keySpace),
     ("max_failures", natural t.throttle.maxFailures.toNat), ("window", span t.throttle.window)]

def reportRedis (c : Redis.Config) : Json :=
  .object
    [("url", optional .string c.url), ("host", .string c.host), ("port", natural c.port.toNat),
     ("db", signed c.db), ("username", optional .string c.username),
     ("password", optional .string c.password), ("pool_size", natural c.poolSize),
     ("connect_timeout", span c.connectTimeout), ("response_timeout", span c.responseTimeout)]

def reportTarget (t : Redis.Target) : Json :=
  let address : String × Json := match t.address with
    | .tcp host port => ("tcp", .array [.string host, natural port])
    | .socket path => ("unix", .string (Utf8.decodeLenient path))
  .object
    [("addr", .object [address]), ("db", signed t.db), ("username", optional .string t.username),
     ("password", optional .string t.password)]

/-- The key that the texts of keys give, or why they give none. -/
def reportKey (keys : KeySource) : Json :=
  match keys.load with
  | .ok k => .object [("key_id", .string k.keyId), ("can_sign", .bool k.canSign)]
  | .error e => e.failure.toJson

/-- Why no connection can be made, as reported: with all its causes. -/
def targetFailure (e : Redis.ConfigError) : Failure :=
  .of "Config" e.message [("chain", .string e.chain)]

/-- All settings, as members of an object. -/
def members (s : Settings) : List (String × Json) :=
  [("keys", s.tokens.keys.report), ("key", reportKey s.tokens.keys),
   ("keys_debug", .string s.tokens.keys.redacted),
   ("jwt", .object
     [("issuer", .string s.tokens.issuer), ("audience", .string s.tokens.audience),
      ("leeway", natural s.tokens.leeway.toNat)]),
   ("policy", s.policy.report), ("bcrypt_cost", natural s.passwordCost),
   ("revocation", s.revocations.report), ("throttle", s.throttling.report),
   ("redis", reportRedis s.redis)]

end Settings

end TokenAuthority
