/-!
# A clock moved by hand

A clock of whole seconds that stands still until it is set or moved on.
-/

namespace TokenAuthority

/-- A clock that reads a number of seconds since the start of 1970. -/
structure ManualClock where
  unix : Int64
deriving DecidableEq

namespace ManualClock

def startingAt (unix : Int64) : ManualClock := ⟨unix⟩

def set (_ : ManualClock) (unix : Int64) : ManualClock := ⟨unix⟩

/-- The clock moved on by the whole seconds of some milliseconds; a negative number moves it back. -/
def advance (c : ManualClock) (milliseconds : Int) : ManualClock :=
  ⟨c.unix + Int64.ofInt (milliseconds.tdiv 1000)⟩

end ManualClock

end TokenAuthority
