import TokenAuthority.Effect.Flow

/-!
# Worlds

A `World` is what answers the questions of an action: the timer, the service clock, a source of random
octets, the circuit breaker, the counters and the state of a cache. `Flow.run` answers a flow to its
end, one question after the other; where all of it waits, the timer moves to the next tick at which
something happens. What is due on a tick counts as finished before any deadline on that tick, and an
inner deadline comes before an outer one.
-/

namespace TokenAuthority

/-- Where random values come from; each draw has its own number. -/
structure Randomness where
  /-- The octets of a draw, as many as asked for. -/
  octets : (draw count : Nat) → List UInt8
  /-- The factor of a draw. -/
  factor : (draw : Nat) → Binary64

/-- What answers the questions of an action. -/
structure World (σ : Type) where
  /-- The reading of the timer. -/
  now : Instant
  /-- What the service clock reads when the timer reads this. -/
  clock : Instant → Int64
  random : Randomness
  /-- How many random values have been drawn. -/
  draws : Nat
  breaker : Breaker
  counts : Metrics.Counts
  cache : σ

/-- How an action ends. -/
inductive Ending (α : Type) where
  | value (value : α)
  | fault (fault : Fault)
  /-- It waits for something that never happens. -/
  | endless

/-- A wait that has begun: the tick on which it is due with what happens then, if it ever is, and the
deadlines around it. -/
structure Waiting (σ : Type) (w : Wait) where
  due : Option (Nat × (Instant → σ → Except Fault (w.Answer × σ)))
  deadlines : List Nat

namespace World

variable {σ : Type}

/-- Answers a question that needs no time. -/
def answer (w : World σ) : (q : Query) → q.Answer × World σ
  | .timer => (w.now, w)
  | .clock => (w.clock w.now, w)
  | .draw count => (w.random.octets w.draws count, { w with draws := w.draws + 1 })
  | .factor => (w.random.factor w.draws, { w with draws := w.draws + 1 })
  | .circuit op =>
    let (x, s) := Breaker.step w.breaker.config w.now w.breaker.state op
    (x, { w with breaker := { w.breaker with state := s } })
  | .count e => ((), { w with counts := w.counts.record e })

/-- Starts what a wait is for. -/
def begin (w : World σ) (backend : Cache.Backend σ) :
    (wait : Wait) → World σ × Cache.Pending σ wait.Answer
  | .sleep s => (w, .acts (some s) fun _ c => .ok ((), c))
  | .never => (w, .never)
  | .cache r =>
    let (c, pending) := backend.start r w.now w.cache
    ({ w with cache := c }, pending)

/-- Starts a wait under deadlines. -/
def await (w : World σ) (backend : Cache.Backend σ) (wait : Wait) (deadlines : List Nat) :
    World σ × Waiting σ wait :=
  match w.begin backend wait with
  | (w', .acts none finish) => (w', ⟨some (w.now.tick, finish), deadlines⟩)
  | (w', .acts (some s) finish) => (w', ⟨some (w.now.deadlineTick s, finish), deadlines⟩)
  | (w', .never) => (w', ⟨none, deadlines⟩)

def advanceTo (w : World σ) (tick : Nat) : World σ :=
  { w with now := w.now.advanceTo tick }

def advance (w : World σ) (s : Span) : World σ :=
  { w with now := w.now.after s }

end World

namespace Waiting

variable {σ : Type} {wait : Wait}

/-- The first tick on which something happens to the wait. -/
def wakeTick? (x : Waiting σ wait) : Option Nat :=
  ((x.due.map Prod.fst).toList ++ x.deadlines).min?

/-- What has happened to the wait by now: it is over, one of its deadlines has passed, or nothing. -/
def settle? (x : Waiting σ wait) (w : World σ) : Option (Except Interruption wait.Answer × World σ) :=
  let passed := x.deadlines.findIdx? (· ≤ w.now.tick)
  let expired := passed.map fun i => (Except.error (Interruption.deadline i), w)
  match x.due with
  | some (tick, finish) =>
    if tick ≤ w.now.tick then
      some <| match finish w.now w.cache with
        | .ok (a, c) => (.ok a, { w with cache := c })
        | .error f => (.error (.fault f), w)
    else expired
  | none => expired

end Waiting

/-- Answers a flow to its end. -/
def Flow.run {σ α : Type} (backend : Cache.Backend σ) : Flow α → World σ → Ending α × World σ
  | .done a, w => (.value a, w)
  | .fault f, w => (.fault f, w)
  | .ask q next, w =>
    let (x, w) := w.answer q
    (next x).run backend w
  | .await wait deadlines next, w =>
    let (w, waiting) := w.await backend wait deadlines
    match waiting.wakeTick? with
    | none => (.endless, w)
    | some tick =>
      let w := w.advanceTo tick
      match waiting.settle? w with
      | none => (.endless, w)
      | some (x, w) => (next x).run backend w

/-- Answers an action to its end. -/
def Action.run {σ α : Type} (backend : Cache.Backend σ) (a : Action α) (w : World σ) :
    Ending α × World σ :=
  match a.start.run backend w with
  | (.value (some x), w) => (.value x, w)
  | (.value none, w) => (.endless, w)
  | (.fault f, w) => (.fault f, w)
  | (.endless, w) => (.endless, w)

end TokenAuthority
