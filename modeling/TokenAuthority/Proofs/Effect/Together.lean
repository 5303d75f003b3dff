import TokenAuthority.Effect.Pool
import TokenAuthority.Proofs.Effect.Prompt

/-!
# Side by side over a cache that answers at once

Actions that never sleep have nothing to wait for over a cache in memory, so each one that is started next
to others ends before the next one starts.

* `Action.inTurn` — actions one after the other, as one action.
* `Pool.isPrompt_takeIn` — a pool of flows that have ended takes in one more at once.
* `Action.runAll_of_yields` — side by side, actions end as they do in turn.
-/

namespace TokenAuthority

namespace Pool

variable {σ α : Type} {backend : Cache.Backend σ} {w : World σ} {ms : List (Member σ α)}

/-! ### Runs of a pool -/

theorem run_of_step {mayWait : Bool} {r : List (Member σ α) × World σ}
    (steps : step? backend ms w = some (.ok r)) :
    run backend mayWait ms w = run backend mayWait r.1 r.2 := by
  rw [run]
  split <;> rename_i outcome
  · rw [steps] at outcome
    cases outcome
    rfl
  · rw [steps] at outcome
    cases outcome
  · rw [steps] at outcome
    cases outcome

theorem run_of_fault {mayWait : Bool} {e : Fault} (steps : step? backend ms w = some (.error e)) :
    run backend mayWait ms w = .error e := by
  rw [run]
  split <;> rename_i outcome
  · rw [steps] at outcome
    cases outcome
  · rw [steps] at outcome
    cases outcome
    rfl
  · rw [steps] at outcome
    cases outcome

/-- A run is over when no member can go on, now or when the timer has moved on. -/
theorem run_of_still {mayWait : Bool} (still : step? backend ms w = none)
    (waits : mayWait = true → step? backend ms (wake ms w) = none) :
    run backend mayWait ms w = .ok (ms, w) := by
  rw [run]
  split <;> rename_i outcome
  · rw [still] at outcome
    cases outcome
  · rw [still] at outcome
    cases outcome
  · split
    · split <;> rename_i later
      · rw [waits ‹_›] at later
        cases later
      · rw [waits ‹_›] at later
        cases later
      · rfl
    · rfl

/-! ### Pools of flows that have ended -/

/-- Members that have ended with values. -/
def settled (xs : List α) : List (Member σ α) := xs.map .ended

variable {xs : List α}

/-- Members that have ended take no step; the one after them does. -/
theorem step?_settled (m : Member σ α) : step? backend (settled xs ++ [m]) w =
    match m.advance? w with
    | some (f, w) => some ((Member.enter backend f w).map fun r => (settled xs ++ [r.1], r.2))
    | none => none := by
  induction xs with
  | nil =>
      simp only [settled, List.map_nil, List.nil_append, step?]
      cases m.advance? w with
      | none => rfl
      | some r => rfl
  | cons x xs ih =>
      change (step? backend (settled xs ++ [m]) w).map _ = _
      rw [ih]
      cases m.advance? w with
      | none => rfl
      | some r => cases entered : Member.enter backend r.1 r.2 <;> simp [entered, Except.map, settled]

/-- A pool whose members have ended stays as it is. -/
theorem run_settled {mayWait : Bool} : run backend mayWait (settled xs) w = .ok (settled xs, w) := by
  have still (w : World σ) : step? backend (settled xs) w = none := by
    induction xs with
    | nil => rfl
    | cons x xs ih =>
        change (step? backend (settled xs) w).map _ = none
        rw [ih]
        rfl
  exact run_of_still (still w) fun _ => still _

/-- Takes one more flow into a pool whose members have ended. -/
def takeIn (backend : Cache.Backend σ) (xs : List α) (f : Flow α) (w : World σ) :
    Except Fault (List (Member σ α) × World σ) := do
  let (m, w) ← Member.enter backend f w
  run backend false (settled xs ++ [m]) w

/-- A flow that is started next comes before the rest. -/
theorem startAll_cons {f : Flow α} {fs : List (Flow α)} : startAll backend (settled xs) (f :: fs) w =
    (takeIn backend xs f w >>= fun r => startAll backend r.1 fs r.2) := by
  rw [startAll, takeIn]
  cases Member.enter backend f w <;> rfl

/-- A flow that has ended ends the pool. -/
theorem takeIn_done {a : α} : takeIn backend xs (.done a) w = .ok (settled (xs ++ [a]), w) := by
  have joins : (settled xs ++ [.ended a] : List (Member σ α)) = settled (xs ++ [a]) := by simp [settled]
  change run backend false (settled xs ++ [.ended a]) w = _
  rw [joins, run_settled]

/-- A member that goes on at once is a flow that is taken in there. -/
theorem run_advance {m : Member σ α} {f : Flow α} {w' : World σ}
    (goes : m.advance? w = some (f, w')) :
    run backend false (settled xs ++ [m]) w = takeIn backend xs f w' := by
  have step : step? backend (settled xs ++ [m]) w = _ := step?_settled m
  simp only [goes] at step
  rw [takeIn]
  cases entered : Member.enter backend f w' with
  | error e =>
      rw [entered] at step
      exact run_of_fault step
  | ok r =>
      rw [entered] at step
      exact run_of_step step

/-- Over a cache in memory a flow is taken in promptly. -/
theorem isPrompt_takeIn (xs : List α) :
    Action.IsPrompt (takeIn Cache.Memory.backend xs) where
  ask _ _ _ := run_advance rfl
  call r ds next w _ := by
    let m : Member Cache.Memory α :=
      .waiting (.cache r) ⟨some (w.now.tick, fun now c => c.perform now r), ds⟩ next
    change run Cache.Memory.backend false (settled xs ++ [m]) w = _
    cases performs : w.cache.perform w.now r <;>
      exact run_advance (by simp [m, Member.advance?, Waiting.settle?, performs])

end Pool

namespace Action

variable {α β : Type} {w : World Cache.Memory}

/-- Actions one after the other, with their values in the same order. -/
def inTurn : List (Action α) → Action (List α)
  | [] => pure []
  | a :: as => do
    let x ← a
    let xs ← inTurn as
    return x :: xs

/-- What every one of some actions keeps, they keep in turn. -/
theorem yields_inTurn {as : List (Action α)} {keeps : World Cache.Memory → Prop} (holds : keeps w)
    (each : ∀ a ∈ as, ∀ w, keeps w → a.Yields w fun r w' => ∀ x, r = .ok x → keeps w') :
    (inTurn as).Yields w fun r w' => ∀ xs, r = .ok xs → keeps w' := by
  induction as generalizing w with
  | nil => exact Yields.done fun _ _ => holds
  | cons a as ih =>
      refine Yields.bind _ (each a List.mem_cons_self w holds) ?_ fun f w' _ xs impossible => by
        cases impossible
      intro x w₁ kept
      have rest := ih (kept x rfl) fun a mem => each a (List.mem_cons_of_mem _ mem)
      refine Yields.bind _ rest ?_ fun f w' _ xs impossible => by cases impossible
      exact fun xs w' kept => Yields.done fun _ _ => kept xs rfl

/-- Flows that are started next to others which have ended come to their ends in turn. -/
theorem startAll_of_yields {as : List (Action α)} (xs : List α)
    {post : Except Fault (List α) → World Cache.Memory → Prop} (yields : (inTurn as).Yields w post) :
    ∃ r w', post r w' ∧
      Pool.startAll Cache.Memory.backend (Pool.settled (xs.map some)) (as.map start) w =
        r.map fun ys => (Pool.settled ((xs ++ ys).map some), w') := by
  induction as generalizing w xs post with
  | nil => exact ⟨.ok [], w, yields, by simp [Pool.startAll, Except.map]⟩
  | cons a as ih =>
      obtain ⟨r, w₁, held, _, runs⟩ := (Pool.isPrompt_takeIn (xs.map some)).flow (yields_bind.mp yields)
        fun d none => (List.not_mem_nil none).elim
      rw [List.map_cons, Pool.startAll_cons]
      cases r with
      | error e =>
          have started : Pool.takeIn Cache.Memory.backend (xs.map some) a.start w = .error e := runs _
          rw [started]
          exact ⟨.error e, w₁, held, rfl⟩
      | ok x =>
          have started : Pool.takeIn Cache.Memory.backend (xs.map some) a.start w =
              Pool.takeIn Cache.Memory.backend (xs.map some) (.done (some x)) w₁ := runs _
          have rest : (inTurn as).Yields w₁ fun r w' => post (r.map (x :: ·)) w' := by
            refine (yields_bind.mp held).mono fun r w' held => ?_
            cases r with
            | ok ys => exact held
            | error e => exact held
          obtain ⟨r, w', held, starts⟩ := ih (xs ++ [x]) rest
          refine ⟨r.map (x :: ·), w', held, ?_⟩
          have joins : xs.map some ++ [some x] = (xs ++ [x]).map some := by simp
          rw [started, Pool.takeIn_done, joins]
          refine starts.trans ?_
          cases r with
          | ok ys => simp [Except.map]
          | error e => rfl

/-- Over a cache in memory actions that are answered side by side end as they do in turn. -/
theorem runAll_of_yields {as : List (Action α)} {post : Except Fault (List α) → World Cache.Memory → Prop}
    (yields : (inTurn as).Yields w post) :
    ∃ r w', post r w' ∧ runAll Cache.Memory.backend as w = r.map fun xs => (xs.map some, w') := by
  obtain ⟨r, w', held, starts⟩ := startAll_of_yields [] yields
  refine ⟨r, w', held, ?_⟩
  have starts : Pool.startAll Cache.Memory.backend [] (as.map start) w = _ := starts
  rw [runAll, starts]
  cases r with
  | error e => rfl
  | ok xs =>
      change (Pool.run Cache.Memory.backend true (Pool.settled (([] ++ xs).map some)) w' >>= _) = _
      rw [Pool.run_settled]
      have values : (Pool.settled (xs.map some)).map (fun m : Pool.Member Cache.Memory (Option α) =>
          m.value?.join) = xs.map some := by
        simp [Pool.settled, Pool.Member.value?]
      change Except.ok ((Pool.settled (([] ++ xs).map some)).map _, w') = Except.ok (xs.map some, w')
      rw [List.nil_append, values]

/-- Actions that have run side by side to values yield these in turn. -/
theorem Yields.of_runAll {as : List (Action α)} {post : Except Fault (List α) → World Cache.Memory → Prop}
    {xs : List α} {w' : World Cache.Memory} (yields : (inTurn as).Yields w post)
    (runs : runAll Cache.Memory.backend as w = .ok (xs.map some, w')) : post (.ok xs) w' := by
  obtain ⟨r, w₁, held, ran⟩ := runAll_of_yields yields
  rw [runs] at ran
  cases r with
  | error e => cases ran
  | ok ys =>
      obtain ⟨same, rfl⟩ := Prod.mk.inj (Except.ok.inj ran)
      rw [(List.map_inj_right fun _ _ => Option.some.inj).mp same]
      exact held

end Action

end TokenAuthority
