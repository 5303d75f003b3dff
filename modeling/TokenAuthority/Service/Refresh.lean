import TokenAuthority.Service.Verification

/-!
# Refreshing and revoking

A refresh token is exchanged for a new access token. Where refresh tokens are rotated, the one
presented is revoked first, and only the call that newly revokes it gets a successor, so it can be
exchanged once. A token can be revoked also after it has expired.
-/

namespace TokenAuthority

structure RefreshedTokens where
  accessToken : String
  /-- The successor of the refresh token, where refresh tokens are rotated. -/
  refreshToken : Option String
  tokenType : String
  /-- The lifetime of the access token in seconds. -/
  expiresIn : Nat
deriving DecidableEq

namespace TokenService

/-- How long a token has to be kept as revoked: as long as it could still be accepted, or for a fixed
span if it could not. There is no answer when its remaining lifetime does not fit a signed word. -/
def revocationTtl? (s : TokenService) (c : Credential) (now : Int64) : Option Span :=
  (c.remaining? now).map fun remaining =>
    let seconds := (Seconds.plus remaining s.codec.leeway).toInt
    if 0 < seconds then Span.ofSecs seconds.toNat else s.policy.revocationMinTtl

/-- The entry that revokes a token from now on. -/
def revocationEntry (s : TokenService) (c : Credential) (now : Int64) (reason : Revocation.Reason) :
    Action Revocation.Entry := do
  let ttl ← Action.orFault .lifetimeRange (s.revocationTtl? c now)
  return (Revocation.Entry.forSpan c.tokenId now ttl reason).withUser c.userId

def subjectOf (c : Credential) : Subject := ⟨c.userId, c.email, c.roles⟩

def rotate (s : TokenService) (c : Credential) (now : Int64) :
    Action (Except AuthError IssuedToken) := do
  let entry ← s.revocationEntry c now .refreshRotated
  match ← s.store.revokeEntry entry with
  | .error e => return .error (.revocation e)
  | .ok false => return .error (.rejected .tokenRevoked)
  | .ok true => s.mint .refresh (subjectOf c) c.sessionId now

/-- The new tokens for an accepted refresh token. -/
def exchange (s : TokenService) (c : Credential) : Action (Except AuthError RefreshedTokens) := do
  let now ← Action.now
  let successor : Except AuthError (Option String) ←
    if s.policy.rotateRefreshTokens then do
      match ← s.rotate c now with
      | .error e => pure (.error e)
      | .ok issued => pure (.ok (some issued.token))
    else pure (.ok none)
  match successor with
  | .error e => return .error e
  | .ok refreshToken =>
    match ← s.mint .access (subjectOf c) c.sessionId now with
    | .error e => return .error e
    | .ok access =>
      return .ok
        { accessToken := access.token, refreshToken, tokenType := bearer,
          expiresIn := s.policy.accessTtl.secs }

def refreshFor (s : TokenService) (request : RequestContext) (token : String) :
    Action (Except AuthError RefreshedTokens) := do
  match (← s.verifyFor request token .refresh).toExcept with
  | .error reason => return .error (.rejected reason)
  | .ok c => s.exchange c

/-- Exchanges a refresh token for a request of which nothing is known. -/
def refresh (s : TokenService) (token : String) : Action (Except AuthError RefreshedTokens) := do
  let request ← RequestContext.generate
  s.refreshFor request token

/-- Revokes a token whose signature and claims hold, whether it has expired or not. -/
def revoke (s : TokenService) (token : String) (reason : Revocation.Reason) :
    Action (Except AuthError Unit) := do
  match s.codec.decodeIgnoringExpiry s.keys token with
  | .error e => return .error (.rejected e.reason)
  | .ok c =>
    let now ← Action.now
    let entry ← s.revocationEntry c now reason
    match ← s.store.revokeEntry entry with
    | .error e => return .error (.revocation e)
    | .ok _ => return .ok ()

/-! ### Health -/

structure Health where
  algorithm : SignatureAlgorithm
  keyId : String
  canSign : Bool
  store : Revocation.StoreHealth

/-- A service is healthy while its store can be reached. -/
def Health.isHealthy (h : Health) : Bool := h.store.isReachable

def health (s : TokenService) : Action Health := do
  let store ← s.store.health s.backend
  return { algorithm := s.keys.algorithm, keyId := s.keys.keyId, canSign := s.keys.canSign, store }

end TokenService

end TokenAuthority
