import TokenAuthority.Cache.Memory

/-!
# A scripted cache

A cache in memory behind a script of what its calls are to do: fail, wait, never answer, answer a given
text, or be passed on to the memory. It records each call when it starts.
-/

namespace TokenAuthority.Cache

/-- What a call is to do. -/
inductive Act where
  /-- It is passed on. -/
  | pass
  | fail (error : Error)
  /-- It never answers. -/
  | hang
  /-- A look-up answers this text; any other call is passed on. -/
  | answer (text : String)
  /-- It waits first. -/
  | after (delay : Span) (act : Act)
deriving DecidableEq

/-- A script before a cache in memory. -/
structure Scripted where
  script : List Act
  /-- What calls do that the script has no act for. -/
  default : Act
  /-- The calls made so far. -/
  calls : List Request
  memory : Memory

namespace Scripted

def empty (sweepEvery : Nat) : Scripted := ⟨[], .pass, [], Memory.empty sweepEvery⟩

def next (c : Scripted) : Act × Scripted :=
  match c.script with
  | act :: rest => (act, { c with script := rest })
  | [] => (c.default, c)

/-- Adds waiting time to a delay. -/
def addDelay (delay : Option Span) (s : Span) : Span :=
  ⟨s.nanoseconds + (delay.getD Span.zero).nanoseconds⟩

def passOn (r : Request) (now : Instant) (c : Scripted) : Except Fault (r.Answer × Scripted) := do
  let (answer, memory) ← c.memory.perform now r
  return (answer, { c with memory })

/-- What a call with an act does once it has waited for a delay. -/
def pending (act : Act) (delay : Option Span) (r : Request) : Pending Scripted r.Answer :=
  match act with
  | .pass => .acts delay (passOn r)
  | .fail e => .acts delay fun _ c => .ok (.error e, c)
  | .hang => .never
  | .answer text =>
    match r with
    | .get _ => .acts delay fun _ c => .ok (.ok (some text), c)
    | r => .acts delay (passOn r)
  | .after s act => pending act (some (addDelay delay s)) r

def backend (name : String) : Backend Scripted where
  name
  start r _ c :=
    let (act, c) := c.next
    ({ c with calls := c.calls ++ [r] }, pending act none r)

end Scripted

end TokenAuthority.Cache
