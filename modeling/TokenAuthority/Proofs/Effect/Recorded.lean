import TokenAuthority.Effect.Pool
import TokenAuthority.Proofs.Effect.History

/-!
# Recorded runs

A run of a call over a world, together with the history that the call sees.

* `Flow.record`, `Action.history` — the recorded run; `Flow.record_snd` says that recording does not
  change it.
* `Flow.sees_record` — what is recorded is a history of the call.
* `Action.truthful_history` — the timer and the service clock answer what the world says.
* `Action.punctual_history` — a wait that ends with an answer ends before all deadlines around it.
* `Action.Ensures.run_value` — what an action ensures holds of its recorded run.
* `Action.not_endless` — a call ends if each of its waits is a sleep or has a deadline.
-/

namespace TokenAuthority

def Ending.error? {ε α : Type} : Ending (Except ε α) → Option ε
  | .value (.error e) => some e
  | _ => none

theorem Ending.eq_of_error? {ε α : Type} {ending : Ending (Except ε α)} {e : ε}
    (ended : ending.error? = some e) : ending = .value (.error e) := by
  unfold error? at ended
  split at ended
  · cases ended
    rfl
  · cases ended

variable {σ α : Type} (backend : Cache.Backend σ)

/-! ### What worlds keep -/

namespace World

@[simp]
theorem now_answer (w : World σ) (q : Query) : (w.answer q).2.now = w.now := by
  cases q <;> rfl

@[simp]
theorem clock_answer (w : World σ) (q : Query) : (w.answer q).2.clock = w.clock := by
  cases q <;> rfl

@[simp]
theorem cache_answer (w : World σ) (q : Query) : (w.answer q).2.cache = w.cache := by
  cases q <;> rfl

theorem await_fst (w : World σ) (wait : Wait) (ds : List Nat) :
    (w.await backend wait ds).1 = (w.begin backend wait).1 := by
  unfold await
  split <;> rename_i begun <;> rw [begun]

@[simp]
theorem now_await (w : World σ) (wait : Wait) (ds : List Nat) :
    (w.await backend wait ds).1.now = w.now := by
  rw [await_fst]
  cases wait <;> rfl

@[simp]
theorem clock_await (w : World σ) (wait : Wait) (ds : List Nat) :
    (w.await backend wait ds).1.clock = w.clock := by
  rw [await_fst]
  cases wait <;> rfl

-- `rfl` would compare whole worlds here, and count the nanoseconds of a tick one by one.
@[simp]
theorem clock_advanceTo (w : World σ) (tick : Nat) : (w.advanceTo tick).clock = w.clock := by
  rw [advanceTo]

@[simp]
theorem now_advanceTo (w : World σ) (tick : Nat) : (w.advanceTo tick).now = w.now.advanceTo tick := by
  rw [advanceTo]

@[simp]
theorem tick_advanceTo (w : World σ) (tick : Nat) :
    (w.advanceTo tick).now.tick = max w.now.tick tick := by
  rw [now_advanceTo, Instant.tick_advanceTo]

/-- From one world to another no draw is made again: the random values come from one source, and its draws are
counted on. -/
structure Draws (w w' : World σ) : Prop where
  random : w'.random = w.random
  draws : w.draws ≤ w'.draws

theorem draws_self (w : World σ) : w.Draws w := ⟨rfl, Nat.le_refl _⟩

theorem Draws.trans {w w' w'' : World σ} (first : w.Draws w') (second : w'.Draws w'') : w.Draws w'' :=
  ⟨second.random.trans first.random, Nat.le_trans first.draws second.draws⟩

theorem draws_answer (w : World σ) (q : Query) : w.Draws (w.answer q).2 := by
  cases q with
  | draw count => exact ⟨rfl, Nat.le_succ _⟩
  | factor => exact ⟨rfl, Nat.le_succ _⟩
  | timer => exact w.draws_self
  | clock => exact w.draws_self
  | circuit op => exact ⟨rfl, Nat.le_refl _⟩
  | count e => exact ⟨rfl, Nat.le_refl _⟩

theorem draws_await (w : World σ) (wait : Wait) (ds : List Nat) : w.Draws (w.await backend wait ds).1 := by
  rw [await_fst]
  cases wait <;> exact ⟨rfl, Nat.le_refl _⟩

theorem draws_advanceTo (w : World σ) (tick : Nat) : w.Draws (w.advanceTo tick) := by
  rw [advanceTo]
  exact ⟨rfl, Nat.le_refl _⟩

end World

/-! ### How a wait is settled -/

namespace Waiting

variable {backend} {wait : Wait} {x : Waiting σ wait} {w w' : World σ}

/-- The ways in which a wait ends: what it waits for is due, and is done or fails, or a deadline
has passed. -/
theorem settle?_cases {r : Except Interruption wait.Answer} (settled : x.settle? w = some (r, w')) :
    (∃ tick finish, x.due = some (tick, finish) ∧ tick ≤ w.now.tick ∧
      ((∃ a c, finish w.now w.cache = .ok (a, c) ∧ r = .ok a ∧ w' = { w with cache := c }) ∨
        ∃ f, finish w.now w.cache = .error f ∧ r = .error (.fault f) ∧ w' = w)) ∨
      ∃ i, x.deadlines.findIdx? (· ≤ w.now.tick) = some i ∧ r = .error (.deadline i) ∧ w' = w := by
  have expired (passed : (x.deadlines.findIdx? (· ≤ w.now.tick)).map
      (fun i => (Except.error (Interruption.deadline i), w)) = some (r, w')) :
      ∃ i, x.deadlines.findIdx? (· ≤ w.now.tick) = some i ∧ r = .error (.deadline i) ∧ w' = w := by
    obtain ⟨i, found, same⟩ := Option.map_eq_some_iff.mp passed
    cases same
    exact ⟨i, found, rfl, rfl⟩
  unfold settle? at settled
  dsimp only at settled
  split at settled
  · rename_i tick finish due
    split at settled
    · rename_i reached
      refine .inl ⟨tick, finish, due, reached, ?_⟩
      have same := Option.some.inj settled
      split at same <;> rename_i finished <;> cases same
      · exact .inl ⟨_, _, finished, rfl, rfl⟩
      · exact .inr ⟨_, finished, rfl, rfl⟩
    · exact .inr (expired settled)
  · exact .inr (expired settled)

/-- A wait that ends with an answer was due by then. -/
theorem settle?_ok {a : wait.Answer} (settled : x.settle? w = some (.ok a, w')) :
    ∃ tick finish c, x.due = some (tick, finish) ∧ tick ≤ w.now.tick ∧
      finish w.now w.cache = .ok (a, c) ∧ w' = { w with cache := c } := by
  rcases settle?_cases settled with
    ⟨tick, finish, due, reached, ⟨_, c, finished, ⟨⟩, rfl⟩ | ⟨_, _, impossible, _⟩⟩ | ⟨_, _, impossible, _⟩
  · exact ⟨tick, finish, c, due, reached, finished, rfl⟩
  · cases impossible
  · cases impossible

/-- A wait that is interrupted leaves the world alone. -/
theorem settle?_error {i : Interruption} (settled : x.settle? w = some (.error i, w')) : w' = w := by
  rcases settle?_cases settled with
    ⟨_, _, _, _, ⟨_, _, _, impossible, _⟩ | ⟨_, _, _, rfl⟩⟩ | ⟨_, _, _, rfl⟩
  · cases impossible
  · rfl
  · rfl

/-- A deadline that cuts a wait is one of those around it, and has passed. -/
theorem settle?_deadline {i : Nat} (settled : x.settle? w = some (.error (.deadline i), w')) :
    x.deadlines.findIdx? (· ≤ w.now.tick) = some i := by
  rcases settle?_cases settled with
    ⟨_, _, _, _, ⟨_, _, _, impossible, _⟩ | ⟨_, _, impossible, _⟩⟩ | ⟨_, passed, ⟨⟩, _⟩
  · cases impossible
  · cases impossible
  · exact passed

/-- A wait that ends in a fault was due, and what it waited for has failed. -/
theorem settle?_fault {f : Fault} (settled : x.settle? w = some (.error (.fault f), w')) :
    ∃ tick finish, x.due = some (tick, finish) ∧ finish w.now w.cache = .error f := by
  rcases settle?_cases settled with
    ⟨tick, finish, due, _, ⟨_, _, _, impossible, _⟩ | ⟨_, finished, ⟨⟩, _⟩⟩ | ⟨_, _, impossible, _⟩
  · cases impossible
  · exact ⟨tick, finish, due, finished⟩
  · cases impossible

theorem settle?_draws {r : Except Interruption wait.Answer} (settled : x.settle? w = some (r, w')) :
    w.Draws w' := by
  cases r with
  | ok a =>
      obtain ⟨_, _, _, _, _, _, rfl⟩ := settle?_ok settled
      exact ⟨rfl, Nat.le_refl _⟩
  | error i =>
      rw [settle?_error settled]
      exact w.draws_self

/-- A wait that is over leaves the timer and the clock alone. -/
theorem settle?_keeps {r : Except Interruption wait.Answer} (settled : x.settle? w = some (r, w')) :
    w'.now = w.now ∧ w'.clock = w.clock := by
  cases r with
  | ok a =>
      obtain ⟨_, _, _, _, _, _, rfl⟩ := settle?_ok settled
      exact ⟨rfl, rfl⟩
  | error i =>
      rw [settle?_error settled]
      exact ⟨rfl, rfl⟩

/-- A wait is woken before all its deadlines. -/
theorem wakeTick?_le {tick : Nat} (wakes : x.wakeTick? = some tick) : ∀ d ∈ x.deadlines, tick ≤ d := by
  intro d hd
  exact (List.min?_eq_some_iff.mp wakes).2 d (List.mem_append_right _ hd)

/-- When a wait is woken none of its deadlines has passed that had not passed when it began. -/
theorem tick_le_of_wakes {ds : List Nat} {tick : Nat} (begun : ∀ d ∈ ds, w.now.tick ≤ d)
    (wakes : (w.await backend wait ds).2.wakeTick? = some tick) :
    ∀ d ∈ ds, (w.now.advanceTo tick).tick ≤ d := by
  intro d mem
  rw [Instant.tick_advanceTo]
  exact Nat.max_le.mpr ⟨begun d mem, wakeTick?_le wakes d (by rwa [Pool.deadlines_await])⟩

/-- A wait that is cut is cut by one of the deadlines under which it began. -/
theorem lt_length_of_cut {ds : List Nat} {i : Nat} {v : World σ}
    (settled : (w.await backend wait ds).2.settle? v = some (.error (.deadline i), w')) :
    i < ds.length := by
  have passed := settle?_deadline settled
  rw [Pool.deadlines_await] at passed
  exact (List.findIdx?_eq_some_iff_getElem.mp passed).1

/-- A cache call that has begun finishes as the cache has said. -/
theorem acts_of_due {r : Cache.Request} {ds : List Nat} {tick : Nat}
    {finish : Instant → σ → Except Fault (r.Answer × σ)}
    (due : (w.await backend (.cache r) ds).2.due = some (tick, finish)) :
    ∃ delay, (backend.start r w.now w.cache).2 = .acts delay finish := by
  cases started : backend.start r w.now w.cache with
  | mk c pending =>
      simp only [World.await, World.begin, started] at due
      cases pending with
      | never => cases due
      | acts delay finish' =>
          refine ⟨delay, ?_⟩
          cases delay with
          | none =>
              simp only [Option.some.injEq, Prod.mk.injEq] at due
              rw [due.2]
          | some s =>
              simp only [Option.some.injEq, Prod.mk.injEq] at due
              rw [due.2]

/-- On the tick for which a wait is woken something happens to it. -/
theorem settle?_isSome {tick : Nat} (wakes : x.wakeTick? = some tick) (reached : tick ≤ w.now.tick) :
    (x.settle? w).isSome := by
  obtain ⟨due, ds⟩ := x
  have first := (List.min?_eq_some_iff.mp wakes).1
  have expires (passed : tick ∈ ds) : (ds.findIdx? (· ≤ w.now.tick)).isSome := by
    rw [List.findIdx?_isSome]
    exact List.any_eq_true.mpr ⟨tick, passed, decide_eq_true reached⟩
  match due with
  | none =>
      simp only [settle?, Option.isSome_map]
      exact expires (by simpa using first)
  | some (due, finish) =>
      simp only [settle?]
      by_cases elapsed : due ≤ w.now.tick
      · rw [if_pos elapsed]
        rfl
      · rw [if_neg elapsed, Option.isSome_map]
        refine expires ?_
        rcases List.mem_append.mp first with same | passed
        · have : tick = due := by simpa using same
          omega
        · exact passed

end Waiting

/-! ### Recording -/

/-- Answers a flow to its end and records what it has seen. -/
def Flow.record (backend : Cache.Backend σ) : Flow α → World σ → History × Ending α × World σ
  | .done a, w => ([], .value a, w)
  | .fault f, w => ([], .fault f, w)
  | .ask q next, w =>
    let r := (next (w.answer q).1).record backend (w.answer q).2
    (.answered w.now q (w.answer q).1 :: r.1, r.2)
  | .await wait ds next, w =>
    let begun := w.await backend wait ds
    match begun.2.wakeTick? with
    | none => ([], .endless, begun.1)
    | some tick =>
      let woken := begun.1.advanceTo tick
      match begun.2.settle? woken with
      | none => ([], .endless, woken)
      | some (x, settled) =>
        let r := (next x).record backend settled
        (.ended woken.now wait ds x :: r.1, r.2)

/-- The history of an action that is answered to its end. -/
def Action.history (backend : Cache.Backend σ) (a : Action α) (w : World σ) : History :=
  (a.start.record backend w).1

namespace Flow

theorem record_snd (f : Flow α) (w : World σ) : (f.record backend w).2 = f.run backend w := by
  induction f generalizing w with
  | done a => rfl
  | fault e => rfl
  | ask q next ih => exact ih _ _
  | await wait ds next ih =>
      unfold record run
      cases wakes : (w.await backend wait ds).2.wakeTick? with
      | none => simp only [wakes]
      | some tick =>
          simp only [wakes]
          cases settles : (w.await backend wait ds).2.settle?
              ((w.await backend wait ds).1.advanceTo tick) with
          | none => rfl
          | some r => exact ih r.1 r.2

/-- The timer never goes back. -/
theorem now_le_run (f : Flow α) (w : World σ) : w.now ≤ (f.run backend w).2.now := by
  induction f generalizing w with
  | done a => exact Nat.le_refl _
  | fault e => exact Nat.le_refl _
  | ask q next ih =>
      have rest := ih (w.answer q).1 (w.answer q).2
      rwa [World.now_answer] at rest
  | await wait ds next ih =>
      have moved (tick : Nat) : w.now ≤ ((w.await backend wait ds).1.advanceTo tick).now := by
        rw [World.now_advanceTo, World.now_await]
        exact Instant.le_advanceTo w.now tick
      have still : w.now ≤ (w.await backend wait ds).1.now := by
        rw [World.now_await]
        exact Nat.le_refl _
      simp only [run]
      split
      · exact still
      · rename_i tick _
        split
        · exact moved tick
        · rename_i x settled settles
          have later := moved tick
          rw [← (Waiting.settle?_keeps settles).1] at later
          exact Nat.le_trans later (ih x settled)

theorem draws_run (f : Flow α) (w : World σ) : w.Draws (f.run backend w).2 := by
  induction f generalizing w with
  | done a => exact w.draws_self
  | fault e => exact w.draws_self
  | ask q next ih => exact (w.draws_answer q).trans (ih _ _)
  | await wait ds next ih =>
      have begun := w.draws_await backend wait ds
      simp only [run]
      split
      · exact begun
      · rename_i tick _
        have moved := begun.trans ((w.await backend wait ds).1.draws_advanceTo tick)
        split
        · exact moved
        · rename_i x settled settles
          exact (moved.trans (Waiting.settle?_draws settles)).trans (ih x settled)

/-- How a wait at the front of a flow is recorded. -/
theorem record_await {wait : Wait} {ds : List Nat} (next : Except Interruption wait.Answer → Flow α)
    (w : World σ) :
    ((Flow.await wait ds next).record backend w).1 = [] ∧
        ((Flow.await wait ds next).record backend w).2.1 = .endless ∨
      ∃ tick x settled, (w.await backend wait ds).2.wakeTick? = some tick ∧
        (w.await backend wait ds).2.settle? ((w.await backend wait ds).1.advanceTo tick) =
          some (x, settled) ∧
        (Flow.await wait ds next).record backend w =
          (.ended (w.now.advanceTo tick) wait ds x :: ((next x).record backend settled).1,
            ((next x).record backend settled).2) := by
  cases wakes : (w.await backend wait ds).2.wakeTick? with
  | none => exact .inl (by simp [record, wakes])
  | some tick =>
      cases settles : (w.await backend wait ds).2.settle?
          ((w.await backend wait ds).1.advanceTo tick) with
      | none => exact .inl (by simp [record, wakes, settles])
      | some r =>
          refine .inr ⟨tick, r.1, r.2, rfl, settles, ?_⟩
          simp only [record, wakes, settles, World.now_advanceTo, World.now_await]

/-- What is recorded is a history of the flow, and all of it if the run ends. -/
theorem sees_record (f : Flow α) (w : World σ) :
    ∃ g, f.Sees (f.record backend w).1 g ∧ (∀ a, (f.record backend w).2.1 = .value a → g = .done a) ∧
      ∀ e, (f.record backend w).2.1 = .fault e → g = .fault e := by
  induction f generalizing w with
  | done a =>
      exact ⟨.done a, .nil _, fun a' same => by cases same; rfl, fun e impossible => by cases impossible⟩
  | fault e =>
      exact ⟨.fault e, .nil _, fun a impossible => (by cases impossible), fun e' same => by cases same; rfl⟩
  | ask q next ih =>
      obtain ⟨g, sees, ends⟩ := ih (w.answer q).1 (w.answer q).2
      exact ⟨g, .cons (.ask w.now (w.answer q).1) sees, ends⟩
  | await wait ds next ih =>
      rcases record_await backend next w with
        ⟨nothing, endless⟩ | ⟨tick, x, settled, _, _, recorded⟩
      · refine ⟨.await wait ds next, by rw [nothing]; exact .nil _, fun a same => ?_, fun e same => ?_⟩
        · rw [endless] at same
          cases same
        · rw [endless] at same
          cases same
      · obtain ⟨g, sees, ends⟩ := ih x settled
        rw [recorded]
        exact ⟨g, .cons (.await _ x) sees, ends⟩

/-- A run ends with a value of which every history of the flow with such an end tells. -/
theorem Meets.record {R : Rule} {Q : History → Except Fault α → Prop} {f : Flow α} {w : World σ} {a : α}
    (meets : f.Meets R Q []) (ended : (f.record backend w).2.1 = .value a) :
    Q (f.record backend w).1 (.ok a) := by
  obtain ⟨g, sees, value, _⟩ := f.sees_record backend w
  rw [value a ended] at sees
  exact meets.value sees

end Flow

/-- The world once some questions have been answered. -/
def World.answerAll (w : World σ) (queries : List Query) : World σ :=
  queries.foldl (fun w q => (w.answer q).2) w

@[simp]
theorem World.now_answerAll (w : World σ) (queries : List Query) : (w.answerAll queries).now = w.now := by
  induction queries generalizing w with
  | nil => rfl
  | cons q queries ih => exact (ih (w.answer q).2).trans (w.now_answer q)

theorem Flow.run_askAll (queries : List Query) (rest : Flow α) (w : World σ) :
    (Flow.askAll queries rest).run backend w = rest.run backend (w.answerAll queries) := by
  induction queries generalizing w with
  | nil => rfl
  | cons q queries ih => exact ih (w.answer q).2

/-- The timer does not go back while an action is run. -/
theorem Action.now_le_run (a : Action α) (w : World σ) : w.now ≤ (a.run backend w).2.now := by
  have later := Flow.now_le_run backend a.start w
  unfold Action.run
  split <;> rename_i ran <;> rwa [ran] at later

theorem Action.draws_run (a : Action α) (w : World σ) : w.Draws (a.run backend w).2 := by
  have drawn := Flow.draws_run backend a.start w
  unfold Action.run
  split <;> rename_i ran <;> rwa [ran] at drawn

/-! ### True answers -/

/-- What the timer and the service clock have answered is true in a world with this clock. -/
def Event.IsTruthful (clock : Instant → Int64) : Event → Prop
  | .answered time .timer t => t = time
  | .answered time .clock x => x = clock time
  | _ => True

/-- The timer and the service clock answer what the world says. -/
theorem Flow.truthful_record (f : Flow α) (w : World σ) :
    ∀ e ∈ (f.record backend w).1, e.IsTruthful w.clock := by
  induction f generalizing w with
  | done a => intro e none; cases none
  | fault e => intro e none; cases none
  | ask q next ih =>
      have rest := ih (w.answer q).1 (w.answer q).2
      rw [World.clock_answer] at rest
      refine List.forall_mem_cons.mpr ⟨?_, rest⟩
      cases q <;> first | rfl | trivial
  | await wait ds next ih =>
      rcases record_await backend next w with
        ⟨nothing, _⟩ | ⟨tick, x, settled, _, settles, recorded⟩
      · rw [nothing]
        intro e none
        cases none
      · have rest := ih x settled
        rw [(Waiting.settle?_keeps settles).2, World.clock_advanceTo, World.clock_await] at rest
        rw [recorded]
        exact List.forall_mem_cons.mpr ⟨trivial, rest⟩

/-! ### Deadlines -/

/-- A deadline is not set before the tick on which it is set. -/
theorem Instant.tick_le_deadlineTick (t : Instant) (s : Span) : t.tick ≤ t.deadlineTick s := by
  have later (u : Instant) (notBefore : t.nanoseconds ≤ u.nanoseconds) : t.tick ≤ u.ceilTick :=
    Nat.div_le_div_right (by omega)
  unfold deadlineTick after?
  split
  · exact later _ (Nat.le_add_right _ _)
  · exact later _ (Nat.le_add_right _ _)

/-- A wait that has ended with an answer has done so by all deadlines around it. -/
def Event.IsPunctual : Event → Prop
  | .ended time _ ds (.ok _) => ∀ d ∈ ds, time.tick ≤ d
  | _ => True

/-- All events of a recorded run are punctual, and its value satisfies `Q`. -/
def Punctual (Q : α → Prop) (r : History × Ending α × World σ) : Prop :=
  (∀ e ∈ r.1, e.IsPunctual) ∧ ∀ a, r.2.1 = .value a → Q a

section Punctual

variable {γ : Type} {Q : γ → Prop}

/-- A question does not spoil a run. -/
theorem Flow.punctual_ask {q : Query} {next : q.Answer → Flow γ} {w : World σ}
    (tail : Punctual Q ((next (w.answer q).1).record backend (w.answer q).2)) :
    Punctual Q ((Flow.ask q next).record backend w) :=
  ⟨List.forall_mem_cons.mpr ⟨trivial, tail.1⟩, tail.2⟩

/-- Questions asked only for their effect do not spoil a run. -/
theorem Flow.punctual_askAll {queries : List Query} {rest : Flow γ} {w : World σ}
    (met : ∀ w' : World σ, w'.now = w.now → Punctual Q (rest.record backend w')) :
    Punctual Q ((Flow.askAll queries rest).record backend w) := by
  induction queries generalizing w with
  | nil => exact met w rfl
  | cons q queries ih =>
      refine Flow.punctual_ask backend (ih fun w' same => met w' ?_)
      rw [same, World.now_answer]

/-- A wait that begins before all deadlines around it does not spoil a run if what follows does not, be it
answered or interrupted. -/
theorem Flow.punctual_await {wait : Wait} {ds : List Nat}
    {next : Except Interruption wait.Answer → Flow γ} {w : World σ} (begun : ∀ d ∈ ds, w.now.tick ≤ d)
    (rest : ∀ r (w' : World σ), (∀ d ∈ ds, w'.now.tick ≤ d) →
      (∀ i, r = .error (.deadline i) → i < ds.length) → Punctual Q ((next r).record backend w')) :
    Punctual Q ((Flow.await wait ds next).record backend w) := by
  rcases Flow.record_await backend next w with
    ⟨nothing, endless⟩ | ⟨tick, r, settled, wakes, settles, recorded⟩
  · refine ⟨by rw [nothing]; exact fun e none => (List.not_mem_nil none).elim, fun a same => ?_⟩
    rw [endless] at same
    cases same
  · have woken := Waiting.tick_le_of_wakes begun wakes
    have reached : ∀ d ∈ ds, settled.now.tick ≤ d := by
      rwa [(Waiting.settle?_keeps settles).1, World.now_advanceTo, World.now_await]
    have tail := rest r settled reached fun i same => by
      cases same
      exact Waiting.lt_length_of_cut settles
    rw [recorded]
    refine ⟨List.forall_mem_cons.mpr ⟨?_, tail.1⟩, tail.2⟩
    cases r with
    | ok x => exact woken
    | error i => trivial

/-- An action that begins before all deadlines around it is punctual and ends before them. If the outcome of
with which it ends names a deadline, that is one of these. -/
theorem Action.punctual_flow (a : Action α) (ds : List Nat) (k : Except Interruption α → Flow γ)
    (w : World σ) (begun : ∀ d ∈ ds, w.now.tick ≤ d)
    (rest : ∀ r (w' : World σ), (∀ d ∈ ds, w'.now.tick ≤ d) →
      (∀ i, r = .error (.deadline i) → i < ds.length) → Punctual Q ((k r).record backend w')) :
    Punctual Q ((a.flow ds k).record backend w) := by
  induction a generalizing ds w with
  | done a =>
      simp only [flow]
      exact rest (.ok a) w begun (fun i impossible => by cases impossible)
  | fault e =>
      simp only [flow]
      exact rest (.error (.fault e)) w begun (fun i impossible => by cases impossible)
  | ask q next ih =>
      simp only [flow]
      exact Flow.punctual_ask backend (ih (w.answer q).1 ds k (w.answer q).2 (by simpa using begun) rest)
  | await wait next ih =>
      simp only [flow]
      refine Flow.punctual_await backend begun fun r settled early named => ?_
      cases r with
      | ok x => exact ih x ds k settled early rest
      | error i => exact rest (.error i) settled early fun j same => named j (by cases same; rfl)
  | within limit body next ihBody ih =>
      simp only [flow]
      refine Flow.punctual_ask backend (ihBody (w.now.deadlineTick limit :: ds) _ w
        (List.forall_mem_cons.mpr ⟨w.now.tick_le_deadlineTick limit, begun⟩) fun r w' early named => ?_)
      have outer := (List.forall_mem_cons.mp early).2
      rcases r with ((_ | i) | f) | b
      · exact ih none ds k w' outer rest
      · exact rest (.error (.deadline i)) w' outer fun j same => by
          cases same
          exact Nat.lt_of_succ_lt_succ (named (i + 1) rfl)
      · exact rest (.error (.fault f)) w' outer fun j impossible => by cases impossible
      · exact ih (some b) ds k w' outer rest
  | guarded abandoned body next ihBody ih =>
      simp only [flow]
      refine ihBody ds _ w begun fun r w' early named => ?_
      cases r with
      | ok b => exact ih b ds k w' early rest
      | error i =>
          refine Flow.punctual_askAll backend fun w'' same => rest (.error i) w'' (by rwa [same]) ?_
          exact fun j same => named j (by cases same; rfl)

/-- A whole run is punctual, and its caller does not go. -/
theorem Action.punctual_start (a : Action α) (w : World σ) :
    Punctual (fun r => r.isSome) (a.start.record backend w) := by
  refine a.punctual_flow backend [] _ w (fun d none => (List.not_mem_nil none).elim) fun r w' _ named => ?_
  rcases r with (i | f) | x
  · exact absurd (named i rfl) (Nat.not_lt_zero i)
  · exact ⟨fun e none => (List.not_mem_nil none).elim, fun r impossible => by cases impossible⟩
  · exact ⟨fun e none => (List.not_mem_nil none).elim, fun r same => by cases same; rfl⟩

end Punctual

/-! ### Ends -/

/-- A wait that is a sleep or has a deadline. -/
def Event.IsLimited : Event → Prop
  | .ended _ wait ds _ => ds ≠ [] ∨ ∃ s, wait = .sleep s
  | _ => True

/-- The rule that all waits are limited, and all faults of some kind. -/
def Rule.limited (faults : Fault → Prop) : Rule := ⟨fun _ e => e.IsLimited, fun _ f => faults f⟩

/-- A limited wait is woken. -/
theorem World.wakeTick?_isSome (w : World σ) {wait : Wait} {ds : List Nat}
    (limited : ds ≠ [] ∨ ∃ s, wait = .sleep s) : (w.await backend wait ds).2.wakeTick?.isSome := by
  rw [Waiting.wakeTick?, List.isSome_min?_iff, Pool.deadlines_await]
  rcases limited with some | ⟨s, rfl⟩
  · exact List.append_ne_nil_of_right_ne_nil _ some
  · exact List.cons_ne_nil _ _

/-- A flow ends if its waits are limited. -/
theorem Flow.not_endless {Q : History → Except Fault α → Prop} {f : Flow α} {h : History}
    {faults : Fault → Prop} (meets : f.Meets (.limited faults) Q h) (w : World σ) :
    (f.run backend w).1 ≠ .endless := by
  induction f generalizing h w with
  | done a => exact fun impossible => by cases impossible
  | fault e => exact fun impossible => by cases impossible
  | ask q next ih => exact ih _ (meets w.now _).2 _
  | await wait ds next ih =>
      obtain ⟨tick, wakes⟩ := Option.isSome_iff_exists.mp
        (World.wakeTick?_isSome backend w (meets w.now (.error (.deadline 0))).1)
      have reached : tick ≤ ((w.await backend wait ds).1.advanceTo tick).now.tick := by
        rw [World.tick_advanceTo]
        exact Nat.le_max_right _ _
      obtain ⟨⟨x, settled⟩, settles⟩ := Option.isSome_iff_exists.mp
        (Waiting.settle?_isSome wakes reached)
      simp only [run, wakes, settles]
      exact ih x (meets w.now x).2 settled

/-- Some call of the cache can end in a fault. -/
def Cache.Backend.Faults (f : Fault) : Prop :=
  ∃ request started before delay finish now c,
    (backend.start request started before).2 = .acts delay finish ∧ finish now c = .error f

/-- A wait that ends in a fault is a call of the cache that does. -/
theorem Waiting.faults_of_settle? {wait : Wait} {w w' w'' : World σ} {ds : List Nat} {f : Fault}
    (settled : (w.await backend wait ds).2.settle? w' = some (.error (.fault f), w'')) :
    backend.Faults f := by
  obtain ⟨tick, finish, due, failed⟩ := settle?_fault settled
  cases wait with
  | sleep s =>
      cases due
      cases failed
  | never => cases due
  | cache r =>
      obtain ⟨delay, acts⟩ := acts_of_due due
      exact ⟨r, w.now, w.cache, delay, finish, w'.now, w'.cache, acts, failed⟩

/-- A fault in which a wait of a recorded run has ended is one of the cache. -/
theorem Flow.faults_of_record {f : Flow α} {w : World σ} {time : Instant} {wait : Wait} {ds : List Nat}
    {e : Fault} (mem : .ended time wait ds (.error (.fault e)) ∈ (f.record backend w).1) :
    backend.Faults e := by
  induction f generalizing w with
  | done a => cases mem
  | fault e' => cases mem
  | ask q next ih =>
      rcases List.mem_cons.mp mem with impossible | mem
      · cases impossible
      · exact ih _ mem
  | await wait' ds' next ih =>
      rcases record_await backend next w with ⟨nothing, _⟩ | ⟨tick, x, settled, _, settles, recorded⟩
      · rw [nothing] at mem
        cases mem
      · rw [recorded] at mem
        rcases List.mem_cons.mp mem with same | mem
        · cases same
          exact Waiting.faults_of_settle? backend settles
        · exact ih _ mem

/-- A run ends in a fault that its rule allows, or in one of the cache. -/
theorem Flow.Meets.run_fault {R : Rule} {Q : History → Except Fault α → Prop} {f : Flow α}
    {e : Fault} {w : World σ} (meets : f.Meets R Q []) (ended : (f.run backend w).1 = .fault e) :
    backend.Faults e ∨ ∃ h, R.fault h e := by
  obtain ⟨g, sees, _, faulted⟩ := f.sees_record backend w
  rw [faulted e (by rwa [record_snd])] at sees
  generalize recorded : (f.record backend w).1 = h at sees
  cases (meets.fault sees).1 with
  | allowed allowed _ => exact .inr ⟨_, allowed⟩
  | ended time wait ds _ =>
      have mem : .ended time wait ds (.error (.fault e)) ∈ (f.record backend w).1 := by
        rw [recorded]
        exact List.mem_append_right _ List.mem_cons_self
      exact .inl (f.faults_of_record backend mem)

/-! ### Actions -/

variable {a : Action α} {post : History → Except Interruption α → Prop} {w : World σ}

/-- The timer and the service clock answer what the world says. -/
theorem Action.truthful_history : ∀ e ∈ a.history backend w, e.IsTruthful w.clock :=
  Flow.truthful_record backend _ w

/-- A wait that ends with an answer ends by all deadlines around it. -/
theorem Action.punctual_history : ∀ e ∈ a.history backend w, e.IsPunctual :=
  (a.punctual_start backend w).1

/-- What an action ensures holds of its history and its value. -/
theorem Action.Ensures.run_value {R : Rule} {x : α} (ensures : a.Ensures R [] [] post)
    (ended : (a.run backend w).1 = .value x) : post (a.history backend w) (.ok x) := by
  refine ensures.start.record backend (w := w) (a := some x) ?_
  rw [Flow.record_snd]
  unfold run at ended
  split at ended <;> rename_i outcome
  · cases ended
    rw [outcome]
  · cases ended
  · cases ended
  · cases ended

/-- All that an action sees is allowed by its rule. -/
theorem Action.Ensures.allowed {R : Rule} {e : Event} (ensures : a.Ensures R [] [] post)
    (mem : e ∈ a.history backend w) : ∃ before, R.event before e := by
  obtain ⟨before, after, cut⟩ := List.append_of_mem mem
  obtain ⟨g, sees, _⟩ := a.start.sees_record backend w
  rw [Action.history] at cut
  rw [cut] at sees
  exact ⟨before, ensures.start.event sees⟩

/-- The fault of an action is one that its rule allows, or one of the cache. -/
theorem Action.Ensures.run_fault {R : Rule} {e : Fault} (ensures : a.Ensures R [] [] post)
    (ended : (a.run backend w).1 = .fault e) : backend.Faults e ∨ ∃ h, R.fault h e := by
  refine ensures.start.run_fault backend (w := w) ?_
  unfold run at ended
  split at ended <;> rename_i outcome
  · cases ended
  · cases ended
  · cases ended
    rw [outcome]
  · cases ended

/-- An action ends if its waits are limited. -/
theorem Action.not_endless {faults : Fault → Prop} (limited : a.Ensures (.limited faults) [] [] post) :
    (a.run backend w).1 ≠ .endless := by
  have stays := (a.punctual_start backend w).2
  have ends := Flow.not_endless backend limited.start w
  rw [Flow.record_snd] at stays
  unfold run
  rcases outcome : a.start.run backend w with ⟨(_ | x) | f | _, w'⟩
  · rw [outcome] at stays
    exact absurd (stays none rfl) Bool.false_ne_true
  · exact fun impossible => by cases impossible
  · exact fun impossible => by cases impossible
  · rw [outcome] at ends
    exact absurd rfl ends

end TokenAuthority
