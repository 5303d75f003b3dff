import TokenAuthority.Cache.Basic
import TokenAuthority.Resilience.Backoff
import TokenAuthority.Resilience.Breaker
import TokenAuthority.Metrics

/-!
# Actions

A call of the library is an `Action`: a tree of questions to its surroundings, whose branches are the
possible answers. Some questions are answered at once (`Query`), some take time (`Wait`). A part of a
task may stand under a deadline (`Action.within`), and a part that holds something may say what happens
when it is interrupted (`Action.guarded`). The tree says nothing about how the questions are
answered, so a statement about all answers is a statement about the tree.
-/

namespace TokenAuthority

/-- A question that is answered at once. -/
inductive Query where
  /-- What does the timer read? -/
  | timer
  /-- What does the service clock read, in seconds since the start of 1970? -/
  | clock
  /-- Fresh random octets. -/
  | draw (count : Nat)
  /-- A random factor for a delay. -/
  | factor
  /-- One step of the circuit breaker. -/
  | circuit (op : Breaker.Op)
  /-- Counts an event. -/
  | count (event : Metrics.Event)

abbrev Query.Answer : Query → Type
  | .timer => Instant
  | .clock => Int64
  | .draw _ => List UInt8
  | .factor => Binary64
  | .circuit op => op.Answer
  | .count _ => Unit

/-- A question whose answer may take time. -/
inductive Wait where
  /-- Waits for a span. -/
  | sleep (s : Span)
  /-- Waits for ever. -/
  | never
  /-- Calls the cache. -/
  | cache (request : Cache.Request)

abbrev Wait.Answer : Wait → Type
  | .sleep _ => Unit
  | .never => Empty
  | .cache request => request.Answer

/-- A call that ends with a value of type `α`. -/
inductive Action : Type → Type 1 where
  /-- Ends with a value. -/
  | done {α : Type} (value : α) : Action α
  /-- Ends without one. -/
  | fault {α : Type} (fault : Fault) : Action α
  /-- Asks, and goes on with the answer. -/
  | ask {α : Type} (query : Query) (next : query.Answer → Action α) : Action α
  /-- Waits, and goes on with the answer. -/
  | await {α : Type} (wait : Wait) (next : wait.Answer → Action α) : Action α
  /-- Goes on with the value of `body`, or with none when that takes longer than `limit`. -/
  | within {α β : Type} (limit : Span) (body : Action β) (next : Option β → Action α) : Action α
  /-- Goes on with the value of `body`. If `body` is interrupted, by a deadline around it or by a fault of its
  own, the questions of `abandoned` are still asked. -/
  | guarded {α β : Type} (abandoned : List Query) (body : Action β) (next : β → Action α) : Action α

namespace Action

def bind {α β : Type} : Action α → (α → Action β) → Action β
  | .done a, f => f a
  | .fault e, _ => .fault e
  | .ask q next, f => .ask q fun x => (next x).bind f
  | .await w next, f => .await w fun x => (next x).bind f
  | .within limit body next, f => .within limit body fun x => (next x).bind f
  | .guarded abandoned body next, f => .guarded abandoned body fun x => (next x).bind f

instance : Monad Action where
  pure := Action.done
  bind := Action.bind

def query (q : Query) : Action q.Answer := .ask q .done

def wait (w : Wait) : Action w.Answer := .await w .done

/-- The value of an action, or none when it takes longer than a span. -/
def timeout {α : Type} (limit : Span) (body : Action α) : Action (Option α) :=
  .within limit body .done

/-- The value of an action; the questions are asked if the action is interrupted. -/
def reporting {α : Type} (abandoned : List Query) (body : Action α) : Action α :=
  .guarded abandoned body .done

/-- Reads the service clock. -/
def now : Action Int64 := query .clock

def cache (r : Cache.Request) : Action r.Answer := wait (.cache r)

def count (e : Metrics.Event) : Action Unit := query (.count e)

def sleep (s : Span) : Action Unit := wait (.sleep s)

/-- Lifts a value that may be missing; where it is, the action ends without one. -/
def orFault {α : Type} (f : Fault) : Option α → Action α
  | some a => .done a
  | none => .fault f

end Action

end TokenAuthority
