import TokenAuthority.Cache.Basic
import TokenAuthority.Text.Integer

/-!
# A cache in memory

Texts under keys, each until its time is over. An entry whose time is over counts as absent at once
and is dropped when its key is written, when it is deleted, or in a sweep: every so many writes, all
such entries are dropped, so keys that are never used again do not stay for ever.
-/

namespace TokenAuthority.Cache

/-- A text and when its time is over. -/
structure Memory.Entry where
  value : String
  expiresAt : Instant
deriving DecidableEq

structure Memory where
  /-- Every entry, live or not, under its key. -/
  entries : List (String × Memory.Entry)
  /-- How many writes there have been. -/
  writes : Nat
  /-- How many writes lie between two sweeps; none counts as one. -/
  sweepEvery : Nat

namespace Memory

def defaultSweepEvery : Nat := 1024

def empty (sweepEvery : Nat := defaultSweepEvery) : Memory := ⟨[], 0, max sweepEvery 1⟩

def Entry.isLive (now : Instant) (e : Entry) : Bool := now < e.expiresAt

def Entry.new? (now : Instant) (value : String) (ttl : Span) : Option Entry :=
  (now.after? (Span.ofSecs ttl.lifetimeSecs)).map fun t => ⟨value, t⟩

/-- The entry under a key, live or not. -/
def find? (m : Memory) (key : String) : Option Entry :=
  (m.entries.find? (·.1 = key)).map Prod.snd

def live? (m : Memory) (now : Instant) (key : String) : Option Entry :=
  (m.find? key).filter (Entry.isLive now)

/-- Puts an entry under a key, in the place of the one that was there. -/
def put (m : Memory) (key : String) (e : Entry) : Memory :=
  let others := m.entries.filter (·.1 ≠ key)
  { m with entries := (key, e) :: others }

/-- Drops every entry whose time is over. -/
def sweep (m : Memory) (now : Instant) : Memory :=
  { m with entries := m.entries.filter (·.2.isLive now) }

/-- Drops every entry whose time is over, and answers how many there were. -/
def purge (m : Memory) (now : Instant) : Nat × Memory :=
  let swept := m.sweep now
  (m.entries.length - swept.entries.length, swept)

/-- How many entries are live. -/
def size (m : Memory) (now : Instant) : Nat := (m.entries.filter (·.2.isLive now)).length

/-- Counts a write, and sweeps if it is time to. -/
def noteWrite (m : Memory) (now : Instant) : Memory :=
  let m := { m with writes := m.writes + 1 }
  if m.writes % m.sweepEvery = 0 then m.sweep now else m

/-- Stores a text under a key that has no live entry. -/
def setIfAbsent (m : Memory) (now : Instant) (key value : String) (ttl : Span) :
    Except Fault (Bool × Memory) :=
  match m.live? now key with
  | some _ => .ok (false, m.noteWrite now)
  | none =>
    match Entry.new? now value ttl with
    | some e => .ok (true, (m.put key e).noteWrite now)
    | none => .error .instantRange

def delete (m : Memory) (now : Instant) (key : String) : Bool × Memory :=
  ((m.live? now key).isSome, { m with entries := m.entries.filter (·.1 ≠ key) })

/-- The counter under a key, or a new one at zero. -/
def counter (m : Memory) (now : Instant) (key : String) (window : Span) : Except Fault Entry :=
  match m.live? now key with
  | some e => .ok e
  | none =>
    match Entry.new? now "0" window with
    | some e => .ok e
    | none => .error .instantRange

/-- Adds one to the counter under a key. A live entry keeps its time; one that is no number is left
as it is. -/
def increment (m : Memory) (now : Instant) (key : String) (window : Span) :
    Except Fault (Except Error UInt64 × Memory) := do
  let e ← m.counter now key window
  match Integer.uint64? e.value with
  | none => return (.error (.protocol ("value at " ++ key ++ " is not a counter")), m.put key e)
  | some n =>
    if n.toNat + 1 < 2 ^ 64 then
      let n := n + 1
      return (.ok n, (m.put key { e with value := toString n.toNat }).noteWrite now)
    else .error .counterRange

def perform (m : Memory) (now : Instant) : (r : Request) → Except Fault (r.Answer × Memory)
  | .get key => .ok (.ok ((m.live? now key).map Entry.value), m)
  | .setIfAbsent key value ttl => do
    let (stored, m) ← m.setIfAbsent now key value ttl
    return (.ok stored, m)
  | .contains key => .ok (.ok (m.live? now key).isSome, m)
  | .delete key =>
    let (removed, m) := m.delete now key
    .ok (.ok removed, m)
  | .increment key window => m.increment now key window
  | .ping => .ok (.ok (), m)

/-- A cache in memory acts at once. -/
def backend : Backend Memory where
  name := "memory"
  start r _ m := (m, .acts none fun now m => m.perform now r)

end Memory

end TokenAuthority.Cache
