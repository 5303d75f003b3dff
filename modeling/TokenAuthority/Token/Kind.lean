/-!
# Kinds of tokens

What a token is for. A token of one kind is never accepted as another.
-/

namespace TokenAuthority

/-- What a token is for. -/
inductive TokenKind where
  /-- Presented with each request. -/
  | access
  /-- Exchanged for new access tokens. -/
  | refresh
  /-- Carried by a link that resets a password. -/
  | reset
deriving DecidableEq

namespace TokenKind

/-- The name of a kind, as tokens and counters carry it. -/
def name : TokenKind → String
  | .access => "access"
  | .refresh => "refresh"
  | .reset => "reset"

def ofName? : String → Option TokenKind
  | "access" => some .access
  | "refresh" => some .refresh
  | "reset" => some .reset
  | _ => none

@[simp]
theorem ofName?_name (k : TokenKind) : ofName? k.name = some k := by
  cases k <;> rfl

end TokenKind

end TokenAuthority
