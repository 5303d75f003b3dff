import TokenAuthority.Effect.RandomText

/-!
# Requests

What is known of the request that a verification is for.
-/

namespace TokenAuthority

/-- The request that a verification is for. -/
structure RequestContext where
  requestId : String
  /-- By what the client is throttled, for instance its address. -/
  client : Option String := none
deriving DecidableEq

namespace RequestContext

def generate : Action RequestContext := do
  let requestId ← RandomText.drawIdentifier
  return { requestId }

def withClient (c : RequestContext) (client : String) : RequestContext :=
  { c with client := some client }

end RequestContext

end TokenAuthority
