import TokenAuthority.Cache.Memory
import TokenAuthority.Proofs.Effect.Recorded

/-!
# Actions over a cache that answers at once

Over a cache in memory an action that never sleeps ends at the instant at which it began,
whatever deadlines are around it.

* `Action.Yields` — what such an action ends with and what it leaves behind, with rules for the ways in
  which actions are put together.
* `Action.IsPrompt.flow` — whoever answers at once what can be answered at once goes through an action like
  that.
* `Action.run_of_yields` — this is what running the action gives.
-/

namespace TokenAuthority

/-- The timer need not move to a tick that it has reached. -/
theorem Instant.advanceTo_tick (t : Instant) : t.advanceTo t.tick = t := by
  unfold advanceTo
  rw [Nat.sub_self, Nat.mul_zero, Nat.add_zero]

/-- The ending with a value or a fault. -/
def Ending.of {α : Type} : Except Fault α → Ending α
  | .ok x => .value x
  | .error e => .fault e

/-- The value of an action that ended with one. -/
def Ending.value? {α : Type} : Ending α → Option α
  | .value x => some x
  | _ => none

@[simp]
theorem Ending.value?_of {α : Type} (r : Except Fault α) : (Ending.of r).value? = r.toOption := by
  cases r <;> rfl

theorem Ending.eq_of_value? {α : Type} {ending : Ending α} {x : α} (ended : ending.value? = some x) :
    ending = .value x := by
  cases ending <;> cases ended
  rfl

/-- An ending that gives a result is that result. -/
theorem Ending.eq_of_toOption {ε α : Type} {ending : Ending (Except ε α)} {x : α}
    (gives : ending.value?.bind Except.toOption = some x) : ending = .value (.ok x) := by
  obtain ⟨outcome, ended, result⟩ := Option.bind_eq_some_iff.mp gives
  rw [eq_of_value? ended]
  cases outcome <;> cases result
  rfl

namespace Action

variable {α β γ : Type}

/-- `a.Yields w post`: over a cache in memory `a` ends without waiting, and its value or its
fault and the world that it leaves satisfy `post`. -/
def Yields : {α : Type} → Action α → World Cache.Memory →
    (Except Fault α → World Cache.Memory → Prop) → Prop
  | _, .done a, w, post => post (.ok a) w
  | _, .fault e, w, post => post (.error e) w
  | _, .ask q next, w, post => (next (w.answer q).1).Yields (w.answer q).2 post
  | _, .await (.cache r) next, w, post =>
    match w.cache.perform w.now r with
    | .ok (a, c) => (next a).Yields { w with cache := c } post
    | .error e => post (.error e) w
  | _, .await (.sleep _) _, _, _ => False
  | _, .await .never _, _, _ => False
  | _, .within _ body next, w, post =>
    body.Yields w fun r w' =>
      match r with
      | .ok b => (next (some b)).Yields w' post
      | .error e => post (.error e) w'
  | _, .guarded abandoned body next, w, post =>
    body.Yields w fun r w' =>
      match r with
      | .ok b => (next b).Yields w' post
      | .error e => post (.error e) (w'.answerAll abandoned)

variable {w w' : World Cache.Memory} {a : Action α} {post mid : Except Fault α → World Cache.Memory → Prop}

/-- An action has one ending, a value or a fault, and leaves one world. -/
theorem Yields.unique (yields : a.Yields w post) : ∃ r w', ∀ post', a.Yields w post' ↔ post' r w' := by
  induction a generalizing w with
  | done a => exact ⟨.ok a, w, fun _ => Iff.rfl⟩
  | fault e => exact ⟨.error e, w, fun _ => Iff.rfl⟩
  | ask q next ih => exact ih _ yields
  | await wait next ih =>
      cases wait with
      | sleep s => exact yields.elim
      | never => exact yields.elim
      | cache r =>
          simp only [Yields] at yields ⊢
          split at yields
          · exact ih _ yields
          · exact ⟨_, _, fun _ => Iff.rfl⟩
  | within limit body next ih ih' =>
      simp only [Yields] at yields ⊢
      obtain ⟨r, w', comes⟩ := ih yields
      have held := (comes _).mp yields
      cases r with
      | error e => exact ⟨.error e, w', fun post' => comes _⟩
      | ok b =>
          obtain ⟨r', w'', comes'⟩ := ih' _ held
          exact ⟨r', w'', fun post' => (comes _).trans (comes' post')⟩
  | guarded abandoned body next ih ih' =>
      simp only [Yields] at yields ⊢
      obtain ⟨r, w', comes⟩ := ih yields
      have held := (comes _).mp yields
      cases r with
      | error e => exact ⟨.error e, w'.answerAll abandoned, fun post' => comes _⟩
      | ok b =>
          obtain ⟨r', w'', comes'⟩ := ih' _ held
          exact ⟨r', w'', fun post' => (comes _).trans (comes' post')⟩

theorem Yields.mono (yields : a.Yields w mid) (weaker : ∀ r w', mid r w' → post r w') :
    a.Yields w post := by
  obtain ⟨r, w', comes⟩ := yields.unique
  exact (comes post).mpr (weaker r w' ((comes mid).mp yields))

theorem Yields.and (yields : a.Yields w post) (yields' : a.Yields w mid) :
    a.Yields w fun r w' => post r w' ∧ mid r w' := by
  obtain ⟨r, w', comes⟩ := yields.unique
  exact (comes _).mpr ⟨(comes _).mp yields, (comes _).mp yields'⟩

/-- If there is always something that an action comes to, it is the same. -/
theorem Yields.choose {ι : Type} {post : ι → Except Fault α → World Cache.Memory → Prop}
    (yields : a.Yields w fun r w' => ∃ i, post i r w') : ∃ i, a.Yields w (post i) := by
  obtain ⟨r, w', comes⟩ := yields.unique
  obtain ⟨i, held⟩ := (comes _).mp yields
  exact ⟨i, (comes _).mpr held⟩

/-- Two actions, one after the other, end as the first one does with the second one behind it. -/
theorem yields_bind {a : Action β} {f : β → Action α} : (a >>= f).Yields w post ↔
    a.Yields w fun r w' =>
      match r with
      | .ok x => (f x).Yields w' post
      | .error e => post (.error e) w' := by
  change (a.bind f).Yields w post ↔ _
  have congr {γ : Type} {a : Action γ} {w : World Cache.Memory}
      {p q : Except Fault γ → World Cache.Memory → Prop} (same : ∀ r w', p r w' ↔ q r w') :
      a.Yields w p ↔ a.Yields w q :=
    ⟨fun yields => yields.mono fun r w' => (same r w').mp,
      fun yields => yields.mono fun r w' => (same r w').mpr⟩
  induction a generalizing w with
  | done a => exact Iff.rfl
  | fault e => exact Iff.rfl
  | ask q next ih => exact ih _
  | await wait next ih =>
      cases wait with
      | sleep s => exact Iff.rfl
      | never => exact Iff.rfl
      | cache r =>
          simp only [Action.bind, Yields]
          split
          · exact ih _
          · exact Iff.rfl
  | within limit body next _ ih =>
      simp only [Action.bind, Yields]
      refine congr fun r w' => ?_
      cases r with
      | ok b => exact ih _
      | error e => exact Iff.rfl
  | guarded abandoned body next _ ih =>
      simp only [Action.bind, Yields]
      refine congr fun r w' => ?_
      cases r with
      | ok b => exact ih _
      | error e => exact Iff.rfl

theorem Yields.bind {a : Action β} {f : β → Action α}
    (mid : Except Fault β → World Cache.Memory → Prop) (first : a.Yields w mid)
    (rest : ∀ x w', mid (.ok x) w' → (f x).Yields w' post)
    (faulty : ∀ e w', mid (.error e) w' → post (.error e) w') : (a >>= f).Yields w post := by
  refine yields_bind.mpr (first.mono fun r w' held => ?_)
  cases r with
  | ok x => exact rest x w' held
  | error e => exact faulty e w' held

namespace Yields

theorem done {x : α} (holds : post (.ok x) w) : (Action.done x).Yields w post := holds

theorem ask {q : Query} {f : q.Answer → Action α}
    (rest : (f (w.answer q).1).Yields (w.answer q).2 post) : (Action.query q >>= f).Yields w post :=
  rest

theorem cache {r : Cache.Request} {post : Except Fault r.Answer → World Cache.Memory → Prop}
    (answers : ∀ a c, w.cache.perform w.now r = .ok (a, c) → post (.ok a) { w with cache := c })
    (faulty : ∀ e, w.cache.perform w.now r = .error e → post (.error e) w) :
    (Action.cache r).Yields w post := by
  simp only [Action.cache, Action.wait, Yields]
  split
  · exact answers _ _ ‹_›
  · exact faulty _ ‹_›

/-- An action under a deadline of its own, which does not pass. -/
theorem timeout {limit : Span} {body : Action β} {mid : Except Fault β → World Cache.Memory → Prop}
    {post : Except Fault (Option β) → World Cache.Memory → Prop} (inner : body.Yields w mid)
    (holds : ∀ r w', mid r w' → post (r.map some) w') : (Action.timeout limit body).Yields w post := by
  simp only [Action.timeout, Yields]
  refine inner.mono fun r w' held => ?_
  cases r with
  | ok b => exact holds _ _ held
  | error e => exact holds _ _ held

/-- An action with questions that are asked when it ends in a fault. -/
theorem reporting {abandoned : List Query} {mid : Except Fault α → World Cache.Memory → Prop}
    (inner : a.Yields w mid) (holds : ∀ x w', mid (.ok x) w' → post (.ok x) w')
    (faulty : ∀ e w', mid (.error e) w' → post (.error e) (w'.answerAll abandoned)) :
    (Action.reporting abandoned a).Yields w post := by
  simp only [Action.reporting, Yields]
  refine inner.mono fun r w' held => ?_
  cases r with
  | ok b => exact holds b w' held
  | error e => exact faulty e w' held

/-- A value that may be missing, and what is done with it. -/
theorem orFault {f : Fault} {x? : Option β} {g : β → Action α} (missing : x? = none → post (.error f) w)
    (rest : ∀ x, x? = some x → (g x).Yields w post) : (Action.orFault f x? >>= g).Yields w post := by
  cases x? with
  | none => exact missing rfl
  | some x => exact rest x rfl

end Yields

/-- The first of some ticks is the one that has been reached, if no other has passed. -/
theorem min?_reached {tick : Nat} {ds : List Nat} (ahead : ∀ d ∈ ds, tick ≤ d) :
    (tick :: ds).min? = some tick := by
  refine List.min?_eq_some_iff.mpr ⟨List.mem_cons_self, ?_⟩
  exact List.forall_mem_cons.mpr ⟨Nat.le_refl _, ahead⟩

/-- A cache call whose deadlines have not passed is answered at once. -/
theorem run_await_cache {r : Cache.Request} {ds : List Nat}
    {next : Except Interruption (Wait.Answer (.cache r)) → Flow α} (ahead : ∀ d ∈ ds, w.now.tick ≤ d) :
    (Flow.await (.cache r) ds next).run Cache.Memory.backend w =
      match w.cache.perform w.now r with
      | .ok (a, c) => (next (.ok a)).run Cache.Memory.backend { w with cache := c }
      | .error e => (next (.error (.fault e))).run Cache.Memory.backend w := by
  have wakes : Waiting.wakeTick? (⟨some (w.now.tick, fun now m => m.perform now r), ds⟩ :
      Waiting Cache.Memory (.cache r)) = some w.now.tick :=
    min?_reached ahead
  have stays : w.advanceTo w.now.tick = w := by
    rw [World.advanceTo, Instant.advanceTo_tick]
  simp only [Flow.run, World.await, World.begin, Cache.Memory.backend, wakes, stays, Waiting.settle?,
    Nat.le_refl, if_true]
  cases w.cache.perform w.now r with
  | ok r => rfl
  | error e => rfl

/-- `IsPrompt finish`: over a cache in memory `finish` brings flows to an end, and answers at once whatever
asks, and whatever calls the cache before a deadline passes. -/
structure IsPrompt {ρ : Type} (finish : Flow γ → World Cache.Memory → ρ) : Prop where
  ask : ∀ q (next : q.Answer → Flow γ) w, finish (.ask q next) w = finish (next (w.answer q).1) (w.answer q).2
  call : ∀ r ds (next : Except Interruption (Wait.Answer (.cache r)) → Flow γ) w, (∀ d ∈ ds, w.now.tick ≤ d) →
    finish (.await (.cache r) ds next) w =
      match w.cache.perform w.now r with
      | .ok (a, c) => finish (next (.ok a)) { w with cache := c }
      | .error e => finish (next (.error (.fault e))) w

/-- Questions asked only for their effect are answered at once. -/
theorem IsPrompt.askAll {ρ : Type} {finish : Flow γ → World Cache.Memory → ρ} (prompt : IsPrompt finish)
    (queries : List Query) (rest : Flow γ) (w : World Cache.Memory) :
    finish (Flow.askAll queries rest) w = finish rest (w.answerAll queries) := by
  induction queries generalizing w with
  | nil => rfl
  | cons q queries ih => exact (prompt.ask q _ w).trans (ih _)

/-- Finishing what begins with an action: it goes on with the value or the fault of the action, in the world
that the action leaves and at the same instant. -/
theorem IsPrompt.flow {ρ : Type} {finish : Flow γ → World Cache.Memory → ρ} (prompt : IsPrompt finish)
    (yields : a.Yields w post) {ds : List Nat} (ahead : ∀ d ∈ ds, w.now.tick ≤ d) :
    ∃ r w', post r w' ∧ w'.now = w.now ∧ ∀ k : Except Interruption α → Flow γ,
      finish (a.flow ds k) w = finish (k (r.mapError .fault)) w' := by
  induction a generalizing w ds with
  | done a => exact ⟨.ok a, w, yields, rfl, fun _ => rfl⟩
  | fault e => exact ⟨.error e, w, yields, rfl, fun _ => rfl⟩
  | ask q next ih =>
      have still := w.now_answer q
      obtain ⟨r, w', held, now, runs⟩ := ih _ yields (by rwa [still])
      exact ⟨r, w', held, now.trans still, fun k => (prompt.ask _ _ w).trans (runs k)⟩
  | await wait next ih =>
      cases wait with
      | sleep s => exact yields.elim
      | never => exact yields.elim
      | cache r =>
          simp only [Yields] at yields
          simp only [Action.flow, prompt.call _ _ _ _ ahead]
          split at yields
          · rename_i a c _
            obtain ⟨r, w', held, now, runs⟩ := ih _ yields ahead
            exact ⟨r, w', held, now, fun k => runs k⟩
          · rename_i e _
            exact ⟨.error e, w, yields, rfl, fun _ => rfl⟩
  | within limit body next ih ih' =>
      simp only [Yields] at yields
      simp only [Action.flow, prompt.ask, World.answer]
      have ahead' : ∀ d ∈ w.now.deadlineTick limit :: ds, w.now.tick ≤ d :=
        List.forall_mem_cons.mpr ⟨w.now.tick_le_deadlineTick limit, ahead⟩
      obtain ⟨r, w', held, now, runs⟩ := ih yields ahead'
      cases r with
      | error e => exact ⟨.error e, w', held, now, fun _ => runs _⟩
      | ok b =>
          have ahead : ∀ d ∈ ds, w'.now.tick ≤ d := by rwa [now]
          obtain ⟨r', w'', held', now', runs'⟩ := ih' _ held ahead
          exact ⟨r', w'', held', now'.trans now, fun k => (runs _).trans (runs' k)⟩
  | guarded abandoned body next ih ih' =>
      simp only [Yields] at yields
      simp only [Action.flow]
      obtain ⟨r, w', held, now, runs⟩ := ih yields ahead
      cases r with
      | error e =>
          refine ⟨.error e, w'.answerAll abandoned, held, ?_, fun k => (runs _).trans ?_⟩
          · rw [World.now_answerAll, now]
          · exact prompt.askAll abandoned _ w'
      | ok b =>
          have ahead : ∀ d ∈ ds, w'.now.tick ≤ d := by rwa [now]
          obtain ⟨r', w'', held', now', runs'⟩ := ih' _ held ahead
          exact ⟨r', w'', held', now'.trans now, fun k => (runs _).trans (runs' k)⟩

theorem isPrompt_run : IsPrompt (Flow.run (α := γ) Cache.Memory.backend) where
  ask _ _ _ := rfl
  call _ _ _ _ ahead := run_await_cache ahead

theorem run_of_yields (yields : a.Yields w post) :
    ∃ r w', post r w' ∧ a.run Cache.Memory.backend w = (.of r, w') := by
  obtain ⟨r, w', held, _, runs⟩ := isPrompt_run.flow yields fun d none => (List.not_mem_nil none).elim
  refine ⟨r, w', held, ?_⟩
  cases r with
  | ok x =>
      have runs : a.start.run Cache.Memory.backend w = (.value (some x), w') := runs _
      rw [Action.run, runs, Ending.of]
  | error e =>
      have runs : a.start.run Cache.Memory.backend w = (.fault e, w') := runs _
      rw [Action.run, runs, Ending.of]

/-- An action makes no draw that was made before. -/
theorem Yields.drawing (yields : a.Yields w post) : a.Yields w fun r w' => post r w' ∧ w.Draws w' := by
  obtain ⟨r, w', comes⟩ := yields.unique
  have held := (comes post).mp yields
  refine (comes _).mpr ⟨held, ?_⟩
  obtain ⟨r', w'', ⟨rfl, rfl⟩, runs⟩ := run_of_yields ((comes fun r₁ w₁ => r₁ = r ∧ w₁ = w').mpr ⟨rfl, rfl⟩)
  have drawn := a.draws_run Cache.Memory.backend w
  rwa [runs] at drawn

/-- An action that has run to a value yields that value. -/
theorem Yields.of_run {x : α} (yields : a.Yields w post)
    (runs : a.run Cache.Memory.backend w = (.value x, w')) : post (.ok x) w' := by
  obtain ⟨r, w₁, held, ran⟩ := run_of_yields yields
  rw [runs] at ran
  cases r with
  | ok y =>
      cases ran
      exact held
  | error e => cases ran

end Action

end TokenAuthority
