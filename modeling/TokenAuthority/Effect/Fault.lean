/-!
# Faults

The conditions under which a call ends without any answer, because a value does not fit the word it
is kept in. They are not errors of the domain: no caller can handle them.
-/

namespace TokenAuthority

/-- Why a call ended without an answer. -/
inductive Fault where
  /-- An expiry lies beyond the last instant of the timer. -/
  | instantRange
  /-- A counter is at its largest value. -/
  | counterRange
  /-- The remaining lifetime of a token does not fit a signed word. -/
  | lifetimeRange
  /-- A delay or a sum of delays is too long to be a span. -/
  | spanRange
deriving DecidableEq

end TokenAuthority
