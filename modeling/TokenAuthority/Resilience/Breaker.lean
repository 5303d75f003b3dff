import TokenAuthority.Time.Instant

/-!
# Circuit breaker

A breaker counts failures in a row. Closed, it lets every call through; enough failures open it, and
open it refuses calls until its recovery time has passed; then, half-open, it lets a few probes
through, of which the first answer decides. Probes that are never answered are written off after
another recovery time, so a breaker cannot refuse for ever.
-/

namespace TokenAuthority

/-- What a breaker does with calls. -/
inductive Circuit where
  | closed
  | opened
  | halfOpen
deriving DecidableEq

def Circuit.name : Circuit → String
  | .closed => "closed"
  | .opened => "open"
  | .halfOpen => "half_open"

namespace Breaker

/-- When a breaker opens and how it recovers. -/
structure Config where
  /-- Failures in a row that open the circuit; none counts as one. -/
  failureThreshold : UInt32 := 5
  /-- How long an open circuit refuses calls. -/
  recoveryTimeout : Span := Span.ofSecs 60
  /-- How many probes a half-open circuit admits at a time; none counts as one. -/
  halfOpenCalls : UInt32 := 1
deriving DecidableEq

/-- What a breaker remembers. -/
structure State where
  circuit : Circuit
  /-- Failures in a row. -/
  failures : UInt32
  /-- When the circuit opened, or its probes were last admitted. -/
  openedAt : Option Instant
  /-- Probes admitted since then. -/
  probes : UInt32
deriving DecidableEq

/-- A breaker that has seen no call. -/
def State.initial : State := ⟨.closed, 0, none, 0⟩

/-- The failures in a row after one more. Their count stays at its largest value. -/
def State.nextFailures (s : State) : UInt32 := UInt32.ofNatClamp (s.failures.toNat + 1)

/-- Lets time act: once the recovery time has passed since the circuit opened, or since its probes
were last admitted, a new window of probes starts. -/
def refresh (config : Config) (now : Instant) (s : State) : State :=
  match s.circuit, s.openedAt with
  | .closed, _ => s
  | _, none => s
  | _, some since =>
    if now.since since < config.recoveryTimeout then s
    else { s with circuit := .halfOpen, openedAt := some now, probes := 0 }

/-- Asks for permission to make one call. -/
def tryAcquire (config : Config) (now : Instant) (s : State) : Bool × State :=
  let s := refresh config now s
  match s.circuit with
  | .closed => (true, s)
  | .opened => (false, s)
  | .halfOpen =>
    if s.probes < max config.halfOpenCalls 1 then (true, { s with probes := s.probes + 1 })
    else (false, s)

/-- Reports that a permitted call succeeded. -/
def recordSuccess (_ : State) : State := .initial

/-- Reports that a permitted call failed. -/
def recordFailure (config : Config) (now : Instant) (s : State) : State :=
  let failures := s.nextFailures
  let opens := match s.circuit with
    | .halfOpen => true
    | .closed => decide (config.failureThreshold ≤ failures)
    | .opened => false
  if opens then ⟨.opened, failures, some now, 0⟩ else { s with failures }

/-- The circuit as it is now. -/
def observe (config : Config) (now : Instant) (s : State) : Circuit × State :=
  let s := refresh config now s
  (s.circuit, s)

/-- What can be asked of or reported to a breaker. -/
inductive Op where
  | acquire
  | success
  | failure
  | state
deriving DecidableEq

abbrev Op.Answer : Op → Type
  | .acquire => Bool
  | .success => Unit
  | .failure => Unit
  | .state => Circuit

def step (config : Config) (now : Instant) (s : State) : (op : Op) → op.Answer × State
  | .acquire => tryAcquire config now s
  | .success => ((), recordSuccess s)
  | .failure => ((), recordFailure config now s)
  | .state => observe config now s

end Breaker

/-- A breaker under a name. -/
structure Breaker where
  name : String
  config : Breaker.Config
  state : Breaker.State

end TokenAuthority
