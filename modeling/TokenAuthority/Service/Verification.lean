import TokenAuthority.Service.Basic
import TokenAuthority.Service.Context

/-!
# Verification

A verification goes through fixed stages and stops at the first failure: the throttle, the token
itself, its kind, its revocation. The answer is always a `Verdict`. When the revocation store gives no
answer in time, the token is rejected.
-/

namespace TokenAuthority

/-- How far a verification has come. -/
inductive Stage where
  | received
  | decoded
  | expiryChecked
  | revocationChecked
  | accepted
deriving DecidableEq

def Stage.name : Stage → String
  | .received => "received"
  | .decoded => "decoded"
  | .expiryChecked => "expiry_checked"
  | .revocationChecked => "revocation_checked"
  | .accepted => "accepted"

inductive Verdict where
  | accepted (credential : Credential)
  /-- The stage is the last one reached. -/
  | rejected (reason : FailureReason) (stage : Stage)
deriving DecidableEq

namespace Verdict

def isAccepted : Verdict → Bool
  | .accepted _ => true
  | .rejected _ _ => false

def payload? : Verdict → Option Credential
  | .accepted c => some c
  | .rejected _ _ => none

def reason? : Verdict → Option FailureReason
  | .accepted _ => none
  | .rejected reason _ => some reason

/-- The last stage reached. -/
def stage : Verdict → Stage
  | .accepted _ => .accepted
  | .rejected _ stage => stage

/-- The credential, or why there is none. -/
def toExcept : Verdict → Except FailureReason Credential
  | .accepted c => .ok c
  | .rejected reason _ => .error reason

/-- The verdict on a text that is no acceptable token. An expired token has been decoded. -/
def ofDecodeError (e : DecodeError) : Verdict :=
  .rejected e.reason (if e = .expired then .decoded else .received)

/-- The verdict on a token for which the revocation store gave an answer, none, or none in time. -/
def ofLookup (c : Credential) : Except TimeoutError (Except Revocation.Error Bool) → Verdict
  | .ok (.ok false) => .accepted c
  | .ok (.ok true) => .rejected .tokenRevoked .revocationChecked
  | .ok (.error _) => .rejected .revocationCheckUnavailable .expiryChecked
  | .error _ => .rejected .revocationCheckUnavailable .expiryChecked

end Verdict

namespace TokenService

/-- The throttle and the client that a request falls under, if there are both. -/
def throttled? (s : TokenService) (request : RequestContext) : Option (Throttle × String) :=
  match s.throttle, request.client with
  | some throttle, some client => some (throttle, client)
  | _, _ => none

/-- Whether a request is turned away before its token is looked at. -/
def isTurnedAway (s : TokenService) (request : RequestContext) : Action Bool :=
  match s.throttled? request with
  | some (throttle, client) => throttle.isThrottled client
  | none => return false

/-- The verdict on a token of the expected kind, which depends on whether it is revoked. -/
def checkRevocation (s : TokenService) (c : Credential) : Action Verdict := do
  let lookup ← Action.withTimeout s.policy.revocationCheckTimeout (s.store.isRevoked c.tokenId)
  return .ofLookup c lookup

/-- The verdict on a token, stage by stage. -/
def judge (s : TokenService) (request : RequestContext) (token : String) (expected : TokenKind) :
    Action Verdict := do
  if ← s.isTurnedAway request then return .rejected .rateLimited .received
  else
    let now ← Action.now
    match s.codec.decode s.keys token now with
    | .error e => return .ofDecodeError e
    | .ok c =>
      if c.kind = expected then s.checkRevocation c
      else return .rejected .wrongTokenType .expiryChecked

/-- Counts a verdict; a suspicious one is also counted against the client. -/
def observe (s : TokenService) (request : RequestContext) (expected : TokenKind) (verdict : Verdict) :
    Action Unit := do
  Action.count (.verification expected verdict.reason?)
  if verdict.reason?.any FailureReason.isSuspicious then
    match s.throttled? request with
    | some (throttle, client) =>
      let _ ← throttle.recordFailure client
    | none => return ()

def verifyFor (s : TokenService) (request : RequestContext) (token : String) (expected : TokenKind) :
    Action Verdict := do
  let verdict ← s.judge request token expected
  s.observe request expected verdict
  return verdict

/-- Verifies a token for a request of which nothing is known. -/
def verify (s : TokenService) (token : String) (expected : TokenKind) : Action Verdict := do
  let request ← RequestContext.generate
  s.verifyFor request token expected

end TokenService

end TokenAuthority
