import TokenAuthority.Effect.Fault
import TokenAuthority.Time.Instant

/-!
# Caches

A cache keeps texts under keys for a time. This module holds the calls a cache understands, what
they answer, how they can fail, and what it takes to be a cache (`Cache.Backend`): each call starts at
once, takes a time that the cache decides, possibly for ever, and then acts and answers.
-/

namespace TokenAuthority.Cache

/-- How a cache call can fail. -/
inductive Error where
  /-- The cache cannot be reached. -/
  | unavailable (text : String)
  /-- The cache did not answer within a span. -/
  | timeout (limit : Span)
  /-- The cache answered something that makes no sense. -/
  | protocol (text : String)
deriving DecidableEq

def Error.message : Error → String
  | .unavailable text => "cache unavailable: " ++ text
  | .timeout limit => "cache operation timed out after " ++ limit.text
  | .protocol text => "cache protocol error: " ++ text

/-- Whether the same call may succeed when it is made again. -/
def Error.isTransient : Error → Bool
  | .protocol _ => false
  | _ => true

/-- A call of a cache. -/
inductive Request where
  /-- The text under a key. -/
  | get (key : String)
  /-- Stores a text under a key that has none, for a time. Answers whether it did. -/
  | setIfAbsent (key value : String) (ttl : Span)
  /-- Whether there is a text under a key. -/
  | contains (key : String)
  /-- Removes the text under a key. Answers whether there was one. -/
  | delete (key : String)
  /-- Adds one to the counter under a key; a new counter lives for a time. Answers the new count. -/
  | increment (key : String) (window : Span)
  /-- Nothing but an answer. -/
  | ping
deriving DecidableEq

/-- What a call answers when it does not fail. -/
abbrev Request.Value : Request → Type
  | .get _ => Option String
  | .setIfAbsent _ _ _ => Bool
  | .contains _ => Bool
  | .delete _ => Bool
  | .increment _ _ => UInt64
  | .ping => Unit

abbrev Request.Answer (r : Request) : Type := Except Error r.Value

/-- Something that has begun. -/
inductive Pending (σ ρ : Type) where
  /-- It acts and answers, at once or when a delay has passed. -/
  | acts (delay : Option Span) (finish : Instant → σ → Except Fault (ρ × σ))
  /-- It never answers. -/
  | never

/-- A cache with states of type `σ`. -/
structure Backend (σ : Type) where
  /-- The name by which the cache is reported. -/
  name : String
  /-- Starts a call. -/
  start : (r : Request) → Instant → σ → σ × Pending σ r.Answer

end TokenAuthority.Cache
