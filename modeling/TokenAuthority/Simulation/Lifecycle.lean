import TokenAuthority.Report.Tokens

/-!
# The life of a token

One token from its making to its end: it is issued, verified, revoked and verified again.
-/

namespace TokenAuthority.Simulation

/-- What was seen of a token. -/
structure Lifecycle where
  /-- When the service made it, by its own clock. -/
  made : Int64
  /-- The verdict while it was good. -/
  first : Verdict
  entry : Option Revocation.Entry
  /-- The verdict after it was revoked. -/
  last : Verdict

namespace Lifecycle

/-- How many seconds a time may lie off the clock to count as now. -/
def tolerance : Nat := 5

def user : Subject := ⟨"1", "a@b.com", []⟩

def issue (s : TokenService) : TokenKind → Action (Except AuthError IssuedToken)
  | .access => s.issueAccessToken user
  | .refresh => s.issueRefreshToken user
  | .reset => s.issueResetToken user.userId user.email

/-- Takes a token of a kind through its life. -/
def observe (s : TokenService) (kind : TokenKind) : Action (Except AuthError Lifecycle) := do
  let made ← Action.now
  match ← issue s kind with
  | .error e => return .error e
  | .ok t =>
    let first ← s.verify t.token kind
    let _ ← s.revoke t.token .logout
    let entry ← s.store.lookup t.tokenId
    let last ← s.verify t.token kind
    return .ok { made, first, entry := entry.toOption.getD none, last }

/-- Takes one token of each kind through its life. -/
def observeAll (s : Except AuthError TokenService) (kinds : List TokenKind) :
    Action (Except AuthError (List Lifecycle)) := do
  match s with
  | .error e => return .error e
  | .ok s =>
    let lives ← kinds.mapM (observe s)
    return lives.mapM id

def report (l : Lifecycle) : Json :=
  let near (time : Int64) : Json := .bool ((time.toInt - l.made.toInt).natAbs ≤ tolerance)
  .object
    [("issued_now", Report.optional (fun c => near c.issuedAt) l.first.payload?),
     ("lifetime",
      Report.optional (fun c => .int (c.expiresAt.toInt - c.issuedAt.toInt)) l.first.payload?),
     ("revoked_now", Report.optional (fun e => near e.revokedAt) l.entry),
     ("after", Report.optional (fun r => .string r.code) l.last.reason?)]

end Lifecycle

end TokenAuthority.Simulation
