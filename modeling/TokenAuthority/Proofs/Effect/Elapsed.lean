import TokenAuthority.Proofs.Effect.Complete
import TokenAuthority.Proofs.Effect.Prompt
import TokenAuthority.Resilience.Retry

/-!
# How long an action takes

The timer moves by whole ticks only, and never beyond a deadline under which an action waits. So an action
under a deadline takes no more ticks than that deadline, whatever the action is and whatever answers it, and
the ticks of actions add up.

* `Instant.later`, `Instant.ticksUntil` — readings some whole ticks apart, and how many of them a deadline
  is away.
* `Action.Takes` — how many ticks an action takes, and its value.
* `Action.Takes.bind` — one action after another.
* `Action.takes_timeout` — an action under a deadline.
-/

namespace TokenAuthority

/-- The whole milliseconds that a deadline of this span is rounded up to. -/
def Span.ceilMillis (s : Span) : Nat := (s.nanoseconds + (nanosPerMilli - 1)) / nanosPerMilli

namespace Instant

def later (t : Instant) (ticks : Nat) : Instant := ⟨t.nanoseconds + Span.nanosPerMilli * ticks⟩

/-- How many ticks it takes to reach a deadline that is set for a span from now. -/
def ticksUntil (t : Instant) (s : Span) : Nat := (t.after s).ceilTick - t.tick

variable {t t' : Instant} {s : Span} {n : Nat}

@[simp]
theorem later_zero (t : Instant) : t.later 0 = t := rfl

@[simp]
theorem later_later (t : Instant) (m n : Nat) : (t.later m).later n = t.later (m + n) := by
  simp only [later, mk.injEq]
  rw [Nat.mul_add, Nat.add_assoc]

@[simp]
theorem tick_later (t : Instant) (n : Nat) : (t.later n).tick = t.tick + n := by
  simp only [later, tick, Span.nanosPerMilli]
  omega

theorem advanceTo_eq_later (t : Instant) (tick : Nat) : t.advanceTo tick = t.later (tick - t.tick) := rfl

/-- How far a deadline is away depends on the fraction of a tick alone. -/
@[simp]
theorem ticksUntil_later (t : Instant) (n : Nat) (s : Span) :
    (t.later n).ticksUntil s = t.ticksUntil s := by
  simp only [ticksUntil, later, after, ceilTick, tick, Span.nanosPerMilli]
  omega

/-- From a whole tick on a deadline is its span away, rounded up. -/
theorem ticksUntil_of_whole (whole : t.nanoseconds % Span.nanosPerMilli = 0) :
    t.ticksUntil s = s.ceilMillis := by
  simp only [ticksUntil, after, ceilTick, tick, Span.ceilMillis, Span.nanosPerMilli] at whole ⊢
  omega

/-- Whatever the timer reads, rounding costs a tick at most. -/
theorem ticksUntil_le (t : Instant) (s : Span) :
    t.ticksUntil s ≤ s.ceilMillis + 1 := by
  simp only [ticksUntil, after, ceilTick, tick, Span.ceilMillis, Span.nanosPerMilli]
  omega

/-- The deadline that the timer keeps is not after the one that is set, as long as the far future, which
stands in for deadlines out of range, is in range itself. -/
theorem deadlineTick_le (inRange : (t.after? farFuture).isSome) (s : Span) :
    t.deadlineTick s ≤ t.tick + t.ticksUntil s := by
  have kept : t.deadlineTick s ≤ (t.after s).ceilTick := by
    unfold deadlineTick
    cases set : t.after? s with
    | some u =>
      have same := after?_eq_some (t := t) (s := s) (by rw [set]; rfl)
      rw [set] at same
      rw [Option.some.inj same]
      exact Nat.le_refl _
    | none =>
      -- What lies beyond the range lies beyond the far future.
      have shorter : farFuture.nanoseconds ≤ s.nanoseconds := by
        unfold after? at set inRange
        split at set
        · cases set
        · rename_i beyond
          split at inRange
          · rename_i within
            simp only [Span.nanosPerSecond] at beyond within
            omega
          · cases inRange
      apply Nat.div_le_div_right
      simp only [Option.getD_none, after]
      omega
  have reached : t.tick ≤ (t.after s).ceilTick := Nat.div_le_div_right (by
    simp only [after]
    omega)
  unfold ticksUntil
  omega

end Instant

variable {σ α β γ : Type} (backend : Cache.Backend σ)

/-! ### One run after another -/

theorem Flow.run_bind (f : Flow α) (k : α → Flow β) (w : World σ) :
    (f.bind k).run backend w =
      match f.run backend w with
      | (.value x, w') => (k x).run backend w'
      | (.fault e, w') => (.fault e, w')
      | (.endless, w') => (.endless, w') := by
  induction f generalizing w with
  | done a => rfl
  | fault e => rfl
  | ask q next ih => exact ih _ _
  | await wait ds next ih =>
      simp only [bind, run]
      cases wakes : (w.await backend wait ds).2.wakeTick? with
      | none => rfl
      | some tick =>
          dsimp only
          cases settles : (w.await backend wait ds).2.settle?
              ((w.await backend wait ds).1.advanceTo tick) with
          | none => rfl
          | some r => exact ih r.1 r.2

theorem Flow.record_bind (f : Flow α) (k : α → Flow β) (w : World σ) :
    (f.bind k).record backend w =
      match f.record backend w with
      | (h, .value x, w') => (h ++ ((k x).record backend w').1, ((k x).record backend w').2)
      | (h, .fault e, w') => (h, .fault e, w')
      | (h, .endless, w') => (h, .endless, w') := by
  induction f generalizing w with
  | done a => rfl
  | fault e => rfl
  | ask q next ih =>
      simp only [bind, record, ih]
      rcases (next (w.answer q).1).record backend (w.answer q).2 with ⟨h, x | e | _, w'⟩ <;> rfl
  | await wait ds next ih =>
      simp only [bind, record]
      cases wakes : (w.await backend wait ds).2.wakeTick? with
      | none => rfl
      | some tick =>
          dsimp only
          cases settles : (w.await backend wait ds).2.settle?
              ((w.await backend wait ds).1.advanceTo tick) with
          | none => rfl
          | some r =>
              dsimp only
              rw [ih r.1 r.2]
              rcases (next r.1).record backend r.2 with ⟨h, y | e | _, w'⟩ <;> rfl

namespace Action

theorem now_run (a : Action α) (w : World σ) :
    (a.run backend w).2.now = (a.start.run backend w).2.now := by
  unfold run
  split <;> rename_i outcome <;> rw [outcome]

theorem start_bind (a : Action β) (f : β → Action α) :
    (a >>= f).start = a.start.bind fun given => given.elim (.done none) fun x => (f x).start := by
  unfold start
  rw [flow_bind, ← flow_then]
  congr 1
  funext r
  rcases r with (i | f) | x
  · rfl
  · rfl
  · rfl

/-- Running two actions runs one, and then the other from the world that it leaves. -/
theorem run_bind (a : Action β) (f : β → Action α) (w : World σ) :
    (a >>= f).run backend w =
      match a.run backend w with
      | (.value x, w') => (f x).run backend w'
      | (.fault e, w') => (.fault e, w')
      | (.endless, w') => (.endless, w') := by
  unfold run
  rw [start_bind, Flow.run_bind]
  rcases a.start.run backend w with ⟨(_ | x) | e | _, w'⟩
  · rfl
  · rfl
  · rfl
  · rfl

/-- Of two actions that run one after the other, what the first one sees is seen first. -/
theorem history_bind (a : Action β) (f : β → Action α) (w : World σ) :
    (a >>= f).history backend w = a.history backend w ++
      match a.run backend w with
      | (.value x, w') => (f x).history backend w'
      | (.fault _, _) => []
      | (.endless, _) => [] := by
  have ran := Flow.record_snd backend a.start w
  unfold history run
  rw [start_bind, Flow.record_bind, ← ran]
  rcases a.start.record backend w with ⟨h, (_ | x) | e | _, w'⟩
  · rfl
  · rfl
  · exact (List.append_nil h).symm
  · exact (List.append_nil h).symm

/-! ### Under deadlines -/

/-- A wait that begins before all deadlines around it ends before them, some whole ticks after a reading, if
what follows does, be it answered or interrupted. -/
theorem run_await_later {P : Nat → Option γ → Prop} {wait : Wait} {ds : List Nat}
    {next : Except Interruption wait.Answer → Flow γ} {w : World σ} {since : Instant} {n : Nat}
    (now : w.now = since.later n) (begun : ∀ d ∈ ds, w.now.tick ≤ d)
    (rest : ∀ r (w' : World σ) n', w'.now = since.later n' → (∀ d ∈ ds, w'.now.tick ≤ d) →
      (∀ i, r = .error (.deadline i) → i < ds.length) →
      ∃ m, ((next r).run backend w').2.now = since.later m ∧ P m ((next r).run backend w').1.value?)
    (stops : ∀ m, (∀ d ∈ ds, (since.later m).tick ≤ d) → P m none) :
    ∃ m, ((Flow.await wait ds next).run backend w).2.now = since.later m ∧
      P m ((Flow.await wait ds next).run backend w).1.value? := by
  unfold Flow.run
  dsimp only
  cases wakes : (w.await backend wait ds).2.wakeTick? with
  | none => exact ⟨n, by rw [← now, World.now_await], stops n (by rwa [← now])⟩
  | some tick =>
    have moved : ((w.await backend wait ds).1.advanceTo tick).now =
        since.later (n + (tick - w.now.tick)) := by
      rw [World.now_advanceTo, World.now_await, Instant.advanceTo_eq_later, now,
        Instant.later_later]
    have early : ∀ d ∈ ds, (since.later (n + (tick - w.now.tick))).tick ≤ d := by
      rw [← moved, World.now_advanceTo, World.now_await]
      exact Waiting.tick_le_of_wakes begun wakes
    dsimp only
    cases settles : (w.await backend wait ds).2.settle?
        ((w.await backend wait ds).1.advanceTo tick) with
    | none => exact ⟨_, moved, stops _ early⟩
    | some outcome =>
      have later : outcome.2.now = since.later (n + (tick - w.now.tick)) :=
        (Waiting.settle?_keeps settles).1.trans moved
      rw [← later] at early
      refine rest outcome.1 outcome.2 _ later early fun i same => ?_
      rw [← Prod.eta outcome, same] at settles
      exact Waiting.lt_length_of_cut settles

/-- An action under deadlines, with what follows it, ends some whole ticks after a reading. The action itself
ends before all deadlines around it, and if its outcome names a deadline, that is one of these. -/
theorem run_flow_later {P : Nat → Option γ → Prop} (a : Action α) (ds : List Nat)
    (k : Except Interruption α → Flow γ) (w : World σ) (since : Instant) (n : Nat) (now : w.now = since.later n)
    (begun : ∀ d ∈ ds, w.now.tick ≤ d)
    (rest : ∀ r (w' : World σ) n', w'.now = since.later n' → (∀ d ∈ ds, w'.now.tick ≤ d) →
      (∀ i, r = .error (.deadline i) → i < ds.length) →
      ∃ m, ((k r).run backend w').2.now = since.later m ∧ P m ((k r).run backend w').1.value?)
    (stops : ∀ m, (∀ d ∈ ds, (since.later m).tick ≤ d) → P m none) :
    ∃ m, ((a.flow ds k).run backend w).2.now = since.later m ∧
      P m ((a.flow ds k).run backend w).1.value? := by
  induction a generalizing ds w n with
  | done a => exact rest (.ok a) w n now begun fun i impossible => by cases impossible
  | fault e => exact rest (.error (.fault e)) w n now begun fun i impossible => by cases impossible
  | ask q next ih =>
      have same := World.now_answer w q
      exact ih (w.answer q).1 ds k (w.answer q).2 n (by rwa [same]) (by rwa [same]) rest stops
  | await wait next ih =>
      simp only [flow]
      refine run_await_later backend now begun (fun r w' n' now' early named => ?_) stops
      cases r with
      | ok x => exact ih x ds k w' n' now' early rest stops
      | error i => exact rest (.error i) w' n' now' early fun j same => named j (by cases same; rfl)
  | within limit body next ihBody ih =>
      have inner : ∀ d ∈ w.now.deadlineTick limit :: ds, w.now.tick ≤ d :=
        List.forall_mem_cons.mpr ⟨w.now.tick_le_deadlineTick limit, begun⟩
      simp only [flow, Flow.run, World.answer]
      refine ihBody (w.now.deadlineTick limit :: ds) _ w n now inner ?_ ?_
      · intro r w' n' now' early named
        have outer := (List.forall_mem_cons.mp early).2
        rcases r with ((_ | i) | f) | b
        · exact ih none ds k w' n' now' outer rest stops
        · refine rest (.error (.deadline i)) w' n' now' outer fun j same => ?_
          cases same
          exact Nat.lt_of_succ_lt_succ (named (i + 1) rfl)
        · exact rest (.error (.fault f)) w' n' now' outer fun j impossible => by cases impossible
        · exact ih (some b) ds k w' n' now' outer rest stops
      · intro m early
        exact stops m (List.forall_mem_cons.mp early).2
  | guarded abandoned body next ihBody ih =>
      simp only [flow]
      refine ihBody ds _ w n now begun ?_ stops
      intro r w' n' now' early named
      cases r with
      | ok b => exact ih b ds k w' n' now' early rest stops
      | error i =>
        dsimp only
        rw [Flow.run_askAll]
        refine rest (.error i) (w'.answerAll abandoned) n' (by rwa [World.now_answerAll])
          (by rwa [World.now_answerAll]) fun j same => named j (by cases same; rfl)

/-! ### Ticks that an action takes -/

/-- `a.Takes backend w post`: run over a world, `a` ends some whole ticks later, and `post` holds of their
number and of the value, if there is one. -/
def Takes (a : Action α) (w : World σ) (post : Nat → Option α → Prop) : Prop :=
  ∃ n, (a.run backend w).2.now = w.now.later n ∧ post n (a.run backend w).1.value?

namespace Takes

variable {backend} {a : Action α} {w : World σ} {post post' : Nat → Option α → Prop}

theorem mono (takes : a.Takes backend w post) (weaker : ∀ n x, post n x → post' n x) :
    a.Takes backend w post' := by
  obtain ⟨n, now, holds⟩ := takes
  exact ⟨n, now, weaker n _ holds⟩

theorem done {x : α} (holds : post 0 (some x)) : (Action.done x).Takes backend w post :=
  ⟨0, rfl, holds⟩

theorem query {q : Query} {post : Nat → Option q.Answer → Prop} (holds : ∀ x, post 0 (some x)) :
    (Action.query q).Takes backend w post :=
  ⟨0, World.now_answer w q, holds _⟩

theorem bind {a : Action β} {f : β → Action α} (mid : Nat → Option β → Prop)
    (first : a.Takes backend w mid)
    (rest : ∀ n x (w' : World σ), w'.now = w.now.later n → mid n (some x) →
      (f x).Takes backend w' fun m y => post (n + m) y)
    (stops : ∀ n, mid n none → post n none) : (a >>= f).Takes backend w post := by
  obtain ⟨n, now, holds⟩ := first
  unfold Takes
  rw [run_bind]
  rcases ran : a.run backend w with ⟨x | e | _, w'⟩ <;> rw [ran] at now holds
  · obtain ⟨m, now', holds'⟩ := rest n x w' now holds
    exact ⟨n + m, now'.trans (by rw [now, Instant.later_later]), holds'⟩
  · exact ⟨n, now, stops n holds⟩
  · exact ⟨n, now, stops n holds⟩

end Takes

/-- An action under a deadline takes no longer than that, whatever it waits for. -/
theorem takes_timeout {limit : Span} {body : Action α} {w : World σ}
    (inRange : (w.now.after? Instant.farFuture).isSome) :
    (Action.timeout limit body).Takes backend w fun n _ => n ≤ w.now.ticksUntil limit := by
  have within : ∀ m, (w.now.later m).tick ≤ w.now.deadlineTick limit → m ≤ w.now.ticksUntil limit := by
    intro m early
    have := Instant.deadlineTick_le inRange limit
    rw [Instant.tick_later] at early
    omega
  unfold Takes
  rw [now_run]
  simp only [timeout, start, flow, Flow.run, World.answer]
  refine body.run_flow_later backend (P := fun n _ => n ≤ w.now.ticksUntil limit)
    [w.now.deadlineTick limit] _ w w.now 0 rfl
    (List.forall_mem_singleton.mpr (w.now.tick_le_deadlineTick limit)) ?_ ?_
  · intro r w' n now early _
    rw [now] at early
    have few := within n (List.forall_mem_singleton.mp early)
    rcases r with ((_ | i) | f) | b
    · exact ⟨n, now, few⟩
    · exact ⟨n, now, few⟩
    · exact ⟨n, now, few⟩
    · exact ⟨n, now, few⟩
  · intro m early
    exact within m (List.forall_mem_singleton.mp early)

theorem takes_withTimeout {limit : Span} {body : Action α} {w : World σ}
    (inRange : (w.now.after? Instant.farFuture).isSome) :
    (withTimeout limit body).Takes backend w fun n _ => n ≤ w.now.ticksUntil limit := by
  apply Takes.bind _ (takes_timeout backend inRange) _ fun _ => id
  intro n x w' _ few
  cases x with
  | some a => exact Takes.done few
  | none => exact Takes.done few

theorem takes_withTimeoutOr {ε : Type} {ofTimeout : TimeoutError → ε} {limit : Span}
    {body : Action (Except ε α)} {w : World σ} (inRange : (w.now.after? Instant.farFuture).isSome) :
    (withTimeoutOr ofTimeout limit body).Takes backend w fun n _ => n ≤ w.now.ticksUntil limit := by
  apply Takes.bind _ (takes_timeout backend inRange) _ fun _ => id
  intro n x w' _ few
  cases x with
  | some r => exact Takes.done few
  | none => exact Takes.done few

end Action

end TokenAuthority
