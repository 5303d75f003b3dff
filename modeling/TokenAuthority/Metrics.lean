import TokenAuthority.Token.Kind
import TokenAuthority.Verification.FailureReason

/-!
# Counters

What the library counts. A counter belongs to a family and is told apart from the others of its
family by labels; it exists from the first time it is counted or read.
-/

namespace TokenAuthority.Metrics

/-- Something that is counted. -/
inductive Event where
  /-- A verification that expected this kind; no reason means that it accepted the token. -/
  | verification (expected : TokenKind) (failure : Option FailureReason)
  /-- A token of this kind was issued. -/
  | issued (kind : TokenKind)
  /-- A token was newly revoked for this reason. -/
  | revocation (reason : String)
  /-- An operation of the revocation store failed. -/
  | storeFailure (operation : String)
deriving DecidableEq

/-- The families, in the order of their names. -/
inductive Family where
  | storeFailures
  | revocations
  | verifications
  | issued
deriving DecidableEq

def Family.all : List Family := [.storeFailures, .revocations, .verifications, .issued]

def Family.name : Family → String
  | .storeFailures => "auth_revocation_store_failures_total"
  | .revocations => "auth_token_revocations_total"
  | .verifications => "auth_token_verifications_total"
  | .issued => "auth_tokens_issued_total"

def Family.help : Family → String
  | .storeFailures => "Revocation store operations that failed after retries"
  | .revocations => "Token revocations by reason"
  | .verifications => "Token verifications by expected type and outcome"
  | .issued => "Tokens issued by type"

/-- One counter: its family and its labels, each a name and a value, in the order of the names. -/
structure Series where
  family : Family
  labels : List (String × String)
deriving DecidableEq

/-- The counter of verifications with an outcome. -/
def verificationSeries (expected : TokenKind) (outcome : String) : Series :=
  ⟨.verifications, [("outcome", outcome), ("token_type", expected.name)]⟩

/-- The counter that an event moves. -/
def Event.series : Event → Series
  | .verification expected none => verificationSeries expected "accepted"
  | .verification expected (some reason) => verificationSeries expected reason.code
  | .issued kind => ⟨.issued, [("token_type", kind.name)]⟩
  | .revocation reason => ⟨.revocations, [("reason", reason)]⟩
  | .storeFailure operation => ⟨.storeFailures, [("operation", operation)]⟩

def Series.text (s : Series) : String :=
  let labels := s.labels.map fun l => l.1 ++ "=" ++ l.2
  s.family.name ++ "\x7b" ++ ",".intercalate labels ++ "\x7d"

/-- Counters with their counts, in the order in which they came to exist. -/
abbrev Counts := List (Series × Nat)

namespace Counts

/-- The count of a series, zero where it does not exist. -/
def get (counts : Counts) (s : Series) : Nat :=
  ((counts.find? (·.1 = s)).map Prod.snd).getD 0

/-- Adds to the count of a series, which exists from then on. -/
def add (counts : Counts) (s : Series) (n : Nat) : Counts :=
  if counts.any (·.1 = s) then counts.map fun c => if c.1 = s then (c.1, c.2 + n) else c
  else counts ++ [(s, n)]

def record (counts : Counts) (e : Event) : Counts := counts.add e.series 1

/-- The families that have a counter, by name. -/
def families (counts : Counts) : List Family :=
  Family.all.filter fun f => counts.any (·.1.family = f)

end Counts

end TokenAuthority.Metrics
