import TokenAuthority.Effect.Action

/-!
# Flows

An action under deadlines becomes a flow: a tree of the same questions in which each waiting question
carries the deadlines around it, innermost first, and may be interrupted by one of them having
passed or by a fault of what it waits for. Deadlines, faults and what is abandoned for them live in
`Action.flow` alone; whoever answers a flow only has to say what interrupted a wait.
-/

namespace TokenAuthority

/-- What ends a part of a call before it has a value. -/
inductive Interruption where
  /-- The deadline at this position has passed, counted from the innermost one. The position after the last
  one means that the caller itself has gone. -/
  | deadline (position : Nat)
  /-- A fault, which no deadline stops. -/
  | fault (fault : Fault)
deriving DecidableEq

/-- A tree of questions whose waiting questions may be interrupted. -/
inductive Flow (α : Type) : Type where
  /-- Ends with a value. -/
  | done (value : α)
  /-- Ends without one. -/
  | fault (fault : Fault)
  /-- Asks, and goes on with the answer. -/
  | ask (query : Query) (next : query.Answer → Flow α)
  /-- Waits, and goes on with the answer or with what has interrupted the wait. -/
  | await (wait : Wait) (deadlines : List Nat) (next : Except Interruption wait.Answer → Flow α)

namespace Flow

/-- Asks questions one after the other and drops the answers. -/
def askAll {α : Type} (queries : List Query) (rest : Flow α) : Flow α :=
  queries.foldr (fun q rest => .ask q fun _ => rest) rest

end Flow

/-- The flow of an action under deadlines, given as ticks of the timer. What follows it is told the value,
or what has interrupted the action. -/
def Action.flow {γ : Type} :
    {α : Type} → Action α → (deadlines : List Nat) → (Except Interruption α → Flow γ) → Flow γ
  | _, .done a, _, k => k (.ok a)
  | _, .fault f, _, k => k (.error (.fault f))
  | _, .ask q next, ds, k => .ask q fun x => (next x).flow ds k
  | _, .await w next, ds, k =>
    .await w ds fun
      | .ok x => (next x).flow ds k
      | .error i => k (.error i)
  | _, .within limit body next, ds, k =>
    .ask .timer fun t =>
      body.flow (t.deadlineTick limit :: ds) fun
        | .ok b => (next (some b)).flow ds k
        | .error (.deadline 0) => (next none).flow ds k
        | .error (.deadline (i + 1)) => k (.error (.deadline i))
        | .error (.fault f) => k (.error (.fault f))
  | _, .guarded abandoned body next, ds, k =>
    body.flow ds fun
      | .ok b => (next b).flow ds k
      | .error i => Flow.askAll abandoned (k (.error i))

/-- The flow of an action without a deadline around it. It ends with none only if its caller has gone. -/
def Action.start {α : Type} (t : Action α) : Flow (Option α) :=
  t.flow [] fun
    | .ok a => .done (some a)
    | .error (.deadline _) => .done none
    | .error (.fault f) => .fault f

end TokenAuthority
