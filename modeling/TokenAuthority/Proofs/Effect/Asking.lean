import TokenAuthority.Proofs.Effect.Prompt

/-!
# Actions that only ask

An action that never waits is answered by the world alone: no cache, no deadline and no other call has a
part in it.

* `Action.answers?` — the value of such an action and the world that it leaves.
* `Action.answers_bind` — one action after another.
* `Action.run_of_answers` — over every cache this is what running the action gives.
* `Action.yields_of_answers` — over a cache in memory this is also what it yields.
-/

namespace TokenAuthority.Action

variable {σ α β : Type}

/-- The value of an action and the world that it leaves; none if it waits or ends in a fault. -/
def answers? : {α : Type} → Action α → World σ → Option (α × World σ)
  | _, .done a, w => some (a, w)
  | _, .ask q next, w => (next (w.answer q).1).answers? (w.answer q).2
  | _, .fault _, _ => none
  | _, .await _ _, _ => none
  | _, .within _ _ _, _ => none
  | _, .guarded _ _ _, _ => none

variable {a : Action α} {w w' : World σ} {x : α}

/-- What the service clock reads and what is done with it. -/
theorem answers_now {f : Int64 → Action α} :
    (now >>= f).answers? w = (f (w.clock w.now)).answers? w := rfl

theorem answers_bind {a : Action β} {f : β → Action α} {y : β} (first : a.answers? w = some (y, w')) :
    (a >>= f).answers? w = (f y).answers? w' := by
  change (a.bind f).answers? w = _
  induction a generalizing w with
  | done a =>
      cases first
      rfl
  | ask q next ih => exact ih _ first
  | fault e => cases first
  | await wait next _ => cases first
  | within limit body next _ _ => cases first
  | guarded abandoned body next _ _ => cases first

theorem run_of_answers (backend : Cache.Backend σ) (answers : a.answers? w = some (x, w')) :
    a.run backend w = (.value x, w') := by
  induction a generalizing w with
  | done a =>
      cases answers
      rfl
  | ask q next ih => exact ih _ answers
  | fault e => cases answers
  | await wait next _ => cases answers
  | within limit body next _ _ => cases answers
  | guarded abandoned body next _ _ => cases answers

/-- Over a cache in memory an action yields what it is answered. -/
theorem yields_of_answers {w w' : World Cache.Memory}
    {post : Except Fault α → World Cache.Memory → Prop} (answers : a.answers? w = some (x, w'))
    (holds : post (.ok x) w') : a.Yields w post := by
  induction a generalizing w with
  | done a =>
      cases answers
      exact holds
  | ask q next ih => exact ih _ answers holds
  | fault e => cases answers
  | await wait next _ => cases answers
  | within limit body next _ _ => cases answers
  | guarded abandoned body next _ _ => cases answers

end TokenAuthority.Action
