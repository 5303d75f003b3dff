import TokenAuthority.Cache.Scripted
import TokenAuthority.Simulation.TokenText
import TokenAuthority.Throttle

/-!
# Steps of a scenario

What a scenario can do: change and look at the surroundings of a service, and call the cache, the
throttle, the service, its store and its adapter.
-/

namespace TokenAuthority.Simulation

inductive ThrottleCall where
  | failures
  | check
  | record
  | reset

inductive ServiceCall where
  | issue (subject : Subject)
  | issueAccess (subject : Subject)
  | issueRefresh (subject : Subject)
  | issueReset (userId email : String)
  | verify (token : TokenText) (expected : TokenKind) (client : Option String)
  | refresh (token : TokenText) (client : Option String)
  | revoke (token : TokenText) (reason : Revocation.Reason)
  | health
  | policy

/-- What is to be kept of a token that is revoked; without a time, it is revoked now. -/
structure RevocationOrder where
  id : TokenId
  ttl : Span
  reason : Revocation.Reason
  revokedAt : Option Int64
  userId : Option String

inductive StoreCall where
  | isRevoked (id : TokenId)
  | revoke (id : TokenId) (ttl : Span)
  | revokeEntry (order : RevocationOrder)
  | lookup (id : TokenId)
  | remove (id : TokenId)
  | circuit

/-- The users that a directory knows: all of them, or why it cannot be asked. -/
inductive Users where
  | known (active inactive : List Int64)
  /-- The causes in words, the last one first. -/
  | broken (causes : List String)

inductive AdapterCall where
  | accessToken (userId : Int64) (email : String) (roles : List String)
  | refreshToken (userId : Int64) (email : String) (roles : List String)
  | tokenPair (userId : Int64) (email : String) (roles : List String)
  | verifyAccess (token : TokenText) (role : Option String)
  | verifyRefresh (token : TokenText) (role : Option String)
  | verifyFor (token : TokenText) (client role : Option String)
  | refresh (token : TokenText)
  | revoke (token : TokenText)
  | hashPassword (password other : String)
  | verifyPassword (password stored : String)
  | authenticate (token : TokenText) (client role : Option String) (users : Users)

/-- One thing that a scenario does. -/
inductive Step where
  /-- Replaces what is left of the script of the cache, and the default act if there is one. -/
  | script (acts : List Cache.Act) (default : Option Cache.Act)
  /-- The cache calls since they were last asked for. -/
  | calls
  /-- How many live entries the cache has. -/
  | size
  /-- Drops dead entries. -/
  | sweep
  /-- The counters. -/
  | counters
  /-- Sets the clock, then moves it on by seconds. -/
  | clock (time : Option Int64) (seconds : Int)
  /-- Moves the timer on. -/
  | timer (s : Span)
  /-- Moves both on by seconds. -/
  | pass (seconds : Nat)
  /-- Whether the service has been made. -/
  | initialized
  /-- The name of the cache. -/
  | backend
  | cache (request : Cache.Request)
  | throttle (call : ThrottleCall) (client : String)
  | service (call : ServiceCall)
  | store (call : StoreCall)
  | storeBulk (orders : List RevocationOrder)
  | adapter (call : AdapterCall)

end TokenAuthority.Simulation
