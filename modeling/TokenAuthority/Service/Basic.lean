import TokenAuthority.Effect.RandomText
import TokenAuthority.Service.Error
import TokenAuthority.Throttle
import TokenAuthority.Token.Codec

/-!
# The token service

What a service is made of, and issuing tokens. Tokens of one session share its identifier; every
token has one of its own.
-/

namespace TokenAuthority

/-- How long tokens and revocations last. -/
structure TokenPolicy where
  accessTtl : Span := Span.ofSecs 900
  refreshTtl : Span := Span.ofSecs 604800
  resetTtl : Span := Span.ofSecs 1800
  /-- Whether each refresh replaces the refresh token and revokes the one presented. -/
  rotateRefreshTokens : Bool := false
  /-- How long a token is kept as revoked that has already expired. -/
  revocationMinTtl : Span := Span.ofSecs 300
  /-- The deadline of the revocation look-up in a verification. -/
  revocationCheckTimeout : Span := Span.ofSecs 3
deriving DecidableEq

def TokenPolicy.ttl (p : TokenPolicy) : TokenKind → Span
  | .access => p.accessTtl
  | .refresh => p.refreshTtl
  | .reset => p.resetTtl

/-- A service that issues, verifies, refreshes and revokes tokens. -/
structure TokenService where
  keys : KeyMaterial
  codec : Codec
  store : Revocation.Store
  throttle : Option Throttle
  policy : TokenPolicy
  /-- The name of the cache behind the store. -/
  backend : String

structure IssuedToken where
  token : String
  tokenId : String
  kind : TokenKind
  expiresAt : Int64
deriving DecidableEq

structure TokenPair where
  accessToken : String
  refreshToken : String
  tokenType : String
  /-- The lifetime of the access token in seconds. -/
  expiresIn : Nat
  sessionId : String
deriving DecidableEq

/-- For whom a token is. -/
structure Subject where
  userId : String
  email : String
  roles : List String
deriving DecidableEq

namespace TokenService

/-- How tokens are to be presented. -/
def bearer : String := "Bearer"

def tokenIdOctets : Nat := 32

def sessionIdOctets : Nat := 16

/-- The lifetime of tokens of a kind in seconds, if it fits a signed word. -/
def lifetime (s : TokenService) (kind : TokenKind) : Except AuthError Int64 :=
  match Seconds.ofInt? (s.policy.ttl kind).secs with
  | some seconds => .ok seconds
  | none => .error (.config (kind.name ++ " TTL out of range"))

def mint (s : TokenService) (kind : TokenKind) (subject : Subject) (sessionId : Option String)
    (now : Int64) : Action (Except AuthError IssuedToken) := do
  match s.lifetime kind with
  | .error e => return .error e
  | .ok seconds =>
    match ← RandomText.draw tokenIdOctets with
    | .error e => return .error (.crypto e)
    | .ok tokenId =>
      let credential : Credential :=
        { tokenId, userId := subject.userId, email := subject.email, roles := subject.roles, sessionId,
          issuedAt := now, expiresAt := Seconds.plus now seconds, kind }
      match s.codec.encode s.keys credential with
      | .error e => return .error (.crypto e)
      | .ok token =>
        Action.count (.issued kind)
        return .ok { token, tokenId, kind, expiresAt := credential.expiresAt }

/-- Makes an access token and a refresh token of a new session. -/
def issue (s : TokenService) (subject : Subject) : Action (Except AuthError TokenPair) := do
  match ← RandomText.draw sessionIdOctets with
  | .error e => return .error (.crypto e)
  | .ok sessionId =>
    let now ← Action.now
    match ← s.mint .access subject (some sessionId) now with
    | .error e => return .error e
    | .ok access =>
      match ← s.mint .refresh subject (some sessionId) now with
      | .error e => return .error e
      | .ok refresh =>
        return .ok
          { accessToken := access.token, refreshToken := refresh.token, tokenType := bearer,
            expiresIn := s.policy.accessTtl.secs, sessionId }

def issueAccessToken (s : TokenService) (subject : Subject) :
    Action (Except AuthError IssuedToken) := do
  let now ← Action.now
  s.mint .access subject none now

/-- Makes a refresh token of a new session. -/
def issueRefreshToken (s : TokenService) (subject : Subject) :
    Action (Except AuthError IssuedToken) := do
  match ← RandomText.draw sessionIdOctets with
  | .error e => return .error (.crypto e)
  | .ok sessionId =>
    let now ← Action.now
    s.mint .refresh subject (some sessionId) now

/-- Makes a token for a link that resets a password. -/
def issueResetToken (s : TokenService) (userId email : String) :
    Action (Except AuthError IssuedToken) := do
  let now ← Action.now
  s.mint .reset ⟨userId, email, []⟩ none now

end TokenService

end TokenAuthority
