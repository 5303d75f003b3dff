import TokenAuthority.Json.Record
import TokenAuthority.Time.Seconds
import TokenAuthority.Token.Kind

/-!
# Credentials

The content of a token that has been checked, or of one about to be made: who it is for, how it can be
revoked, and from when to when it holds.
-/

namespace TokenAuthority

/-- What a token says about its holder and itself. Times are seconds since the start of 1970. -/
structure Credential where
  /-- The identifier by which the token is revoked. -/
  tokenId : String
  userId : String
  email : String
  roles : List String
  /-- Shared by the tokens of one session. -/
  sessionId : Option String
  issuedAt : Int64
  expiresAt : Int64
  kind : TokenKind
deriving DecidableEq

namespace Credential

/-- What makes the content of a token unusable. -/
inductive Flaw where
  | emptySubject
  | emptyTokenId
  | expiryNotAfterIssue (expiresAt issuedAt : Int64)
deriving DecidableEq

def Flaw.message : Flaw → String
  | .emptySubject => "subject is empty"
  | .emptyTokenId => "token id is empty"
  | .expiryNotAfterIssue expiresAt issuedAt =>
    "expiry " ++ toString expiresAt.toInt ++ " is not after issued-at " ++ toString issuedAt.toInt

def flaw? (c : Credential) : Option Flaw :=
  if c.userId.isEmpty then some .emptySubject
  else if c.tokenId.isEmpty then some .emptyTokenId
  else if c.expiresAt.toInt ≤ c.issuedAt.toInt then
    some (.expiryNotAfterIssue c.expiresAt c.issuedAt)
  else none

/-- Seconds until the expiry, negative once it has passed. There is none when they do not fit a signed
word. -/
def remaining? (c : Credential) (now : Int64) : Option Int64 :=
  Seconds.ofInt? (c.expiresAt.toInt - now.toInt)

/-! ### Written form -/

/-- The names of the fields, in the order in which they are written. -/
def fieldNames : List String :=
  ["token_id", "user_id", "email", "roles", "session_id", "issued_at", "expires_at", "token_type"]

/-- A text or `null`. -/
def optionalText : Option String → Json
  | some s => .string s
  | none => .null

def toJson (c : Credential) : Json :=
  .object
    [("token_id", .string c.tokenId), ("user_id", .string c.userId), ("email", .string c.email),
     ("roles", .array (c.roles.map .string)), ("session_id", optionalText c.sessionId),
     ("issued_at", .int c.issuedAt.toInt), ("expires_at", .int c.expiresAt.toInt),
     ("token_type", .string c.kind.name)]

/-- Reads the values of the fields, in their order. -/
def ofFields? : List (Option Json) → Option Credential
  | [some tokenId, some userId, some email, some roles, sessionId, some issuedAt, some expiresAt,
      some kind] => do
    return {
      tokenId := ← tokenId.text?
      userId := ← userId.text?
      email := ← email.text?
      roles := ← roles.texts?
      sessionId := ← Json.optional? Json.text? sessionId
      issuedAt := Int64.ofInt (← issuedAt.int64?)
      expiresAt := Int64.ofInt (← expiresAt.int64?)
      kind := ← kind.choice?.bind TokenKind.ofName? }
  | _ => none

def parse? (text : String) : Option Credential :=
  (Json.record? fieldNames text).bind ofFields?

end Credential

end TokenAuthority
