import TokenAuthority.Proofs.Effect.History

/-!
# Complete histories

An action that is run by itself has its own histories, from its first question to its value. Whatever an
action is followed by, what is seen of it there is one of these, and no other one begins in the same way.

* `Action.Completes` — a history of an action that is run by itself, with the value at its end.
* `Action.Completes.unique` — a history has one such beginning at most.
* `Action.ensures_completes` — what is seen of an action before all that follows it is such a history.
-/

namespace TokenAuthority

namespace Flow

variable {α β : Type}

/-- A flow, and what is done with its value. -/
def bind : Flow α → (α → Flow β) → Flow β
  | .done a, k => k a
  | .fault e, _ => .fault e
  | .ask q next, k => .ask q fun x => (next x).bind k
  | .await w ds next, k => .await w ds fun x => (next x).bind k

theorem bind_askAll {queries : List Query} {rest : Flow α} {k : α → Flow β} :
    (askAll queries rest).bind k = askAll queries (rest.bind k) := by
  induction queries with
  | nil => rfl
  | cons q queries ih =>
      change Flow.ask q (fun _ => (askAll queries rest).bind k) = _
      rw [ih]
      rfl

/-- However a flow goes on, it ends with a value. -/
def Faultless : Flow α → Prop
  | .done _ => True
  | .fault _ => False
  | .ask _ next => ∀ x, (next x).Faultless
  | .await _ _ next => ∀ x, (next x).Faultless

theorem faultless_askAll {queries : List Query} {rest : Flow α} (faultless : rest.Faultless) :
    (askAll queries rest).Faultless := by
  induction queries with
  | nil => exact faultless
  | cons q queries ih => exact fun _ => ih

/-- What is done with the value of a flow comes after a history that leads to it. -/
theorem meets_bind {Q : History → Except Fault β → Prop} {f : Flow α} {k : α → Flow β} {h : History}
    (faultless : f.Faultless)
    (rest : ∀ tail x, f.Sees tail (.done x) → (k x).Meets Rule.free Q (h ++ tail)) :
    (f.bind k).Meets Rule.free Q h := by
  induction f generalizing h with
  | done a =>
      have rest := rest [] a (.nil _)
      rwa [List.append_nil] at rest
  | fault e => exact faultless.elim
  | ask q next ih =>
      intro time x
      refine ⟨trivial, ih x (faultless x) fun tail y sees => ?_⟩
      rw [List.append_assoc]
      exact rest _ y (.cons (.ask time x) sees)
  | await w ds next ih =>
      intro time x
      refine ⟨trivial, ih x (faultless x) fun tail y sees => ?_⟩
      rw [List.append_assoc]
      exact rest _ y (.cons (.await time x) sees)

/-- What is left of a flow is told by what it has seen. -/
theorem Step.unique {f g g' : Flow α} {e : Event} (step : Step f e g) (step' : Step f e g') : g = g' := by
  cases step with
  | ask time x =>
      cases step'
      rfl
  | await time x =>
      cases step'
      rfl

/-- Of two histories that lead to a value neither goes on after the other. -/
theorem Sees.unique {f : Flow α} {h h' rest rest' : History} {x x' : α} (sees : f.Sees h (.done x))
    (sees' : f.Sees h' (.done x')) (same : h ++ rest = h' ++ rest') : h = h' ∧ x = x' := by
  induction h generalizing f h' with
  | nil =>
      cases sees
      cases sees' with
      | nil => exact ⟨rfl, rfl⟩
      | cons impossible _ => cases impossible
  | cons e h ih =>
      cases sees with
      | cons step sees =>
          cases sees' with
          | nil => cases step
          | cons step' sees' =>
              obtain ⟨rfl, tails⟩ := List.cons.inj same
              cases step.unique step'
              obtain ⟨rfl, rfl⟩ := ih sees sees' tails
              exact ⟨rfl, rfl⟩

end Flow

namespace Action

variable {α γ δ : Type}

/-- What follows a flow of an action may be put after it. -/
theorem flow_then (a : Action α) (ds : List Nat) (k : Except Interruption α → Flow γ) (next : γ → Flow δ) :
    a.flow ds (fun r => (k r).bind next) = (a.flow ds k).bind next := by
  induction a generalizing ds with
  | done a => rfl
  | fault e => rfl
  | ask q rest ih => simp only [Action.flow, Flow.bind, ih]
  | await w rest ih =>
      simp only [Action.flow, Flow.bind]
      congr 1
      funext x
      cases x with
      | ok x => exact ih x ds k
      | error i => rfl
  | within limit body rest ih ih' =>
      simp only [Action.flow, Flow.bind, ← ih]
      congr 1
      funext t
      congr 1
      funext r
      rcases r with ((_ | i) | f) | b
      · exact ih' none ds k
      · rfl
      · rfl
      · exact ih' (some b) ds k
  | guarded abandoned body rest ih ih' =>
      simp only [Action.flow, ← ih]
      congr 1
      funext r
      cases r with
      | ok b => exact ih' b ds k
      | error i => exact Flow.bind_askAll.symm

/-- The flow of an action ends in a fault only where what follows the action does. -/
theorem faultless_flow {a : Action α} {ds : List Nat} {k : Except Interruption α → Flow γ}
    (faultless : ∀ r, (k r).Faultless) : (a.flow ds k).Faultless := by
  induction a generalizing ds with
  | done a => exact faultless _
  | fault e => exact faultless _
  | ask q next ih => exact fun x => ih x faultless
  | await w next ih =>
      simp only [flow, Flow.Faultless]
      intro x
      cases x with
      | ok x => exact ih x faultless
      | error i => exact faultless _
  | within limit body next ih ih' =>
      simp only [flow, Flow.Faultless]
      refine fun t => ih fun r => ?_
      rcases r with ((_ | i) | f) | b
      · exact ih' none faultless
      · exact faultless _
      · exact faultless _
      · exact ih' (some b) faultless
  | guarded abandoned body next ih ih' =>
      simp only [flow]
      refine ih fun r => ?_
      cases r with
      | ok b => exact ih' b faultless
      | error i => exact Flow.faultless_askAll (faultless _)

/-- An action that is run by itself has seen all of a history, and is over with a value. -/
def Completes (a : Action α) (h : History) (x : α) : Prop := (a.flow [] .done).Sees h (.done (.ok x))

/-- One history has one complete history of an action at its beginning, at most. -/
theorem Completes.unique {a : Action α} {h h' rest rest' : History} {x x' : α}
    (completes : a.Completes h x) (completes' : a.Completes h' x')
    (same : h ++ rest = h' ++ rest') : h = h' ∧ x = x' := by
  obtain ⟨alike, ended⟩ := Flow.Sees.unique completes completes' same
  exact ⟨alike, Except.ok.inj ended⟩

/-- What is seen of an action is a complete history of it, if it has a value at the end. -/
theorem ensures_completes {a : Action α} {h : History} :
    a.Ensures Rule.free [] h fun tail r => ∀ x, r = .ok x → a.Completes tail x := by
  refine ⟨fun Q k met => ?_⟩
  have whole : a.flow [] k = (a.flow [] Flow.done).bind k := a.flow_then [] Flow.done k
  rw [whole]
  refine Flow.meets_bind (faultless_flow fun r => trivial) fun tail r sees =>
    met tail r ?_ fun f _ => Rule.raised_free
  rintro x rfl
  exact sees

end Action

end TokenAuthority
