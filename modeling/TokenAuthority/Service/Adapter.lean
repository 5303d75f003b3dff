import TokenAuthority.Service.Refresh
import TokenAuthority.Settings.Basic

/-!
# The adapter

The face that a service shows to callers who know users by number. The number is written into tokens
as text and read back from them. The service behind it is made on first use; a failed attempt is made
again by the next call.
-/

namespace TokenAuthority

/-- Who presents an accepted token. -/
structure Identity where
  userId : Int64
  email : String
  roles : List String
  expiresAt : Int64
  tokenId : String
  sessionId : Option String
deriving DecidableEq

namespace Identity

/-- The identity in a credential, if its subject is the number of a user. -/
def ofCredential (c : Credential) : Except FailureReason Identity :=
  match Integer.readInt64 c.userId with
  | .ok n =>
    .ok
      { userId := Int64.ofInt n, email := c.email, roles := c.roles, expiresAt := c.expiresAt,
        tokenId := c.tokenId, sessionId := c.sessionId }
  | .error _ => .error .invalidClaims

def hasRole (i : Identity) (role : String) : Bool := i.roles.contains role

end Identity

structure UserDirectory (υ : Type) where
  /-- The user with a number, or why the look-up failed: its error in words, then the causes of it. -/
  find : Int64 → Action (Except (List String) (Option υ))
  isActive : υ → Bool

/-- A service that is made on first use. -/
structure Adapter where
  settings : Settings
  /-- The name of the cache behind the service. -/
  backend : String
  /-- The service, once it has been made. -/
  made : Option TokenService := none

namespace Adapter

def isInitialized (a : Adapter) : Bool := a.made.isSome

def service (a : Adapter) : Except AuthError TokenService :=
  match a.made with
  | some s => .ok s
  | none => TokenService.ofSettings a.settings a.backend

/-- The adapter after its service was asked for. -/
def afterUse (a : Adapter) : Adapter := { a with made := a.service.toOption }

/-- The fault in which making the service ends, if it has to be made. -/
def fault? (a : Adapter) : Option Fault := if a.isInitialized then none else a.settings.fault?

/-- Goes on with the service. -/
def withService {α : Type} (a : Adapter) (next : TokenService → Action (Except AuthError α)) :
    Action (Except AuthError α) :=
  match a.fault?, a.service with
  | some f, _ => .fault f
  | none, .ok s => next s
  | none, .error e => return .error e

def subject (userId : Int64) (email : String) (roles : List String) : Subject :=
  ⟨toString userId.toInt, email, roles⟩

def generateAccessToken (a : Adapter) (userId : Int64) (email : String) (roles : List String) :
    Action (Except AuthError String) :=
  a.withService fun s => do
    return (← s.issueAccessToken (subject userId email roles)).map IssuedToken.token

def generateRefreshToken (a : Adapter) (userId : Int64) (email : String) (roles : List String) :
    Action (Except AuthError String) :=
  a.withService fun s => do
    return (← s.issueRefreshToken (subject userId email roles)).map IssuedToken.token

def generateTokenPair (a : Adapter) (userId : Int64) (email : String) (roles : List String) :
    Action (Except AuthError TokenPair) :=
  a.withService fun s => s.issue (subject userId email roles)

def verifyAs (a : Adapter) (request : RequestContext) (token : String) (expected : TokenKind) :
    Action (Except AuthError Identity) :=
  a.withService fun s => do
    match (← s.verifyFor request token expected).toExcept with
    | .error reason => return .error (.rejected reason)
    | .ok c => return (Identity.ofCredential c).mapError AuthError.rejected

def verifyFor (a : Adapter) (request : RequestContext) (token : String) :
    Action (Except AuthError Identity) :=
  a.verifyAs request token .access

def verifyAccessToken (a : Adapter) (token : String) : Action (Option Identity) := do
  let request ← RequestContext.generate
  return (← a.verifyAs request token .access).toOption

def verifyRefreshToken (a : Adapter) (token : String) : Action (Option Identity) := do
  let request ← RequestContext.generate
  return (← a.verifyAs request token .refresh).toOption

def refreshAccessToken (a : Adapter) (token : String) : Action (Except AuthError RefreshedTokens) :=
  a.withService fun s => s.refresh token

/-- Revokes a token because its user logs out. -/
def revokeToken (a : Adapter) (token : String) : Action (Except AuthError Unit) :=
  a.withService fun s => s.revoke token .logout

def hashPassword (a : Adapter) (password : String) : Action (Except AuthError PasswordHash) := do
  match a.settings.hasher with
  | .error e => return .error (.crypto e)
  | .ok hasher => return .ok (← hasher.hash password)

/-- Whether a password is the one that a stored form was made of. -/
def verifyPassword (a : Adapter) (password stored : String) : Except AuthError Bool :=
  match a.settings.hasher with
  | .error e => .error (.crypto e)
  | .ok hasher => .ok (hasher.verify password stored)

/-- Who presents an access token, with the user of that number, who has to be there and active. -/
def authenticate {υ : Type} (a : Adapter) (request : RequestContext) (token : String)
    (users : UserDirectory υ) : Action (Except AuthError (Identity × υ)) := do
  match ← a.verifyAs request token .access with
  | .error e => return .error e
  | .ok identity =>
    match ← users.find identity.userId with
    | .error causes => return .error (.userLookup (": ".intercalate causes))
    | .ok none => return .error .userNotFound
    | .ok (some user) =>
      return if users.isActive user then .ok (identity, user) else .error .userInactive

end Adapter

end TokenAuthority
