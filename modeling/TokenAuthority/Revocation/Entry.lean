import TokenAuthority.Json.Printer
import TokenAuthority.Json.Record
import TokenAuthority.Time.Seconds
import TokenAuthority.Time.Span

/-!
# Revocation entries

What is kept of a revoked token: its identifier, when and why it was revoked, and until when that has
to be remembered. Entries are stored as JSON text.
-/

namespace TokenAuthority.Revocation

inductive Reason where
  | logout
  /-- It was exchanged for its successor. -/
  | refreshRotated
  | security
  | admin
deriving DecidableEq

/-- The name of a reason, as entries and counters carry it. -/
def Reason.name : Reason → String
  | .logout => "logout"
  | .refreshRotated => "refresh_rotated"
  | .security => "security"
  | .admin => "admin"

def Reason.ofName? : String → Option Reason
  | "logout" => some .logout
  | "refresh_rotated" => some .refreshRotated
  | "security" => some .security
  | "admin" => some .admin
  | _ => none

@[simp]
theorem Reason.ofName?_name (r : Reason) : ofName? r.name = some r := by
  cases r <;> rfl

/-- What is kept of a revoked token. Times are seconds since the start of 1970. -/
structure Entry where
  tokenId : String
  revokedAt : Int64
  /-- When the entry may be forgotten. -/
  expiresAt : Int64
  reason : Reason
  userId : Option String
deriving DecidableEq

namespace Entry

/-- An entry that is to be kept for a span of at least one second. -/
def forSpan (tokenId : String) (revokedAt : Int64) (ttl : Span) (reason : Reason) : Entry where
  tokenId
  revokedAt
  expiresAt := Seconds.plus revokedAt (Seconds.nearest ttl.lifetimeSecs)
  reason
  userId := none

def withUser (e : Entry) (userId : String) : Entry := { e with userId := some userId }

/-- How long the entry is to be kept: at least one second. -/
def ttl (e : Entry) : Span :=
  Span.ofSecs (max (Seconds.minus e.expiresAt e.revokedAt).toInt 1).toNat

/-! ### Written form -/

/-- The written form of an entry; a missing user is left out. -/
def toJson (e : Entry) : Json :=
  .object <|
    [("token_id", .string e.tokenId), ("revoked_at", .int e.revokedAt.toInt),
     ("expires_at", .int e.expiresAt.toInt), ("reason", .string e.reason.name)]
    ++ (e.userId.map fun s => ("user_id", Json.string s)).toList

def text (e : Entry) : String := e.toJson.render

/-- The names of the fields, in the order in which they are written. -/
def fieldNames : List String := ["token_id", "revoked_at", "expires_at", "reason", "user_id"]

def parse? (text : String) : Option Entry := do
  match ← Json.record? fieldNames text with
  | [some tokenId, some revokedAt, some expiresAt, some reason, userId] =>
    return {
      tokenId := ← tokenId.text?
      revokedAt := Int64.ofInt (← revokedAt.int64?)
      expiresAt := Int64.ofInt (← expiresAt.int64?)
      reason := ← reason.choice?.bind Reason.ofName?
      userId := ← Json.optional? Json.text? userId }
  | _ => none

end Entry

end TokenAuthority.Revocation
