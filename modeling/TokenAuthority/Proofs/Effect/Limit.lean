import TokenAuthority.Proofs.Effect.Elapsed

/-!
# What a deadline changes

One more deadline around an action leaves it alone as long as the action ends before that deadline, and cuts
it on the very tick of the deadline otherwise, wherever the action waits then and whatever it waits for.

* `Shortened` — the ways in which a flow goes under one more deadline.
* `Action.shortened` — every action goes in one of them, whatever follows it.
* `Action.EndsBy` — when an action that is run by itself ends by a tick.
* `Action.run_withTimeoutOr_of_endsBy`, `Action.run_withTimeoutOr_of_outlasts` — an action under a deadline
  with an error of its own.
-/

namespace TokenAuthority

/-- Moving to one tick and then to another moves to the later one. -/
theorem Instant.advanceTo_advanceTo (t : Instant) (k l : Nat) :
    (t.advanceTo k).advanceTo l = t.advanceTo (max k l) := by
  simp only [advanceTo, tick, Span.nanosPerMilli, mk.injEq]
  omega

variable {σ α β γ γ' : Type}

namespace World

/-- The world after a sleep. -/
def slept (w : World σ) (s : Span) : World σ := w.advanceTo (w.now.deadlineTick s)

/-- A sleep ends on the tick of its last instant, or on that of the far future when this is no instant. -/
theorem tick_slept (w : World σ) (s : Span) :
    (w.slept s).now.tick =
      (if (w.now.after? s).isSome then w.now.after s else w.now.after Instant.farFuture).ceilTick := by
  have reached := w.now.tick_le_deadlineTick s
  rw [slept, tick_advanceTo, Nat.max_eq_right reached, Instant.deadlineTick]
  split
  · rename_i inRange
    rw [Instant.after?_eq_some inRange, Option.getD_some]
  · rename_i none
    rw [Option.not_isSome_iff_eq_none.mp none, Option.getD_none]

/-- What a wait is for does not depend on the deadlines around it. -/
theorem await_deadlines (w : World σ) (backend : Cache.Backend σ) (wait : Wait) (ds ds' : List Nat) :
    w.await backend wait ds' =
      ((w.await backend wait ds).1, { (w.await backend wait ds).2 with deadlines := ds' }) := by
  unfold await
  split <;> rfl

end World

namespace Waiting

variable {wait : Wait} {x : Waiting σ wait} {w : World σ} {ds : List Nat} {last tick : Nat}

/-- A wait under one more deadline. -/
def limited (x : Waiting σ wait) (last : Nat) : Waiting σ wait :=
  { x with deadlines := x.deadlines ++ [last] }

/-- What wakes a wait is later than all that its first wake tick is later than. -/
theorem lt_of_wakeTick? (x : Waiting σ wait) (late : ∀ tick, x.wakeTick? = some tick → last < tick) :
    ∀ d ∈ (x.due.map Prod.fst).toList ++ x.deadlines, last < d := by
  intro d mem
  obtain ⟨tick, wakes⟩ := Option.isSome_iff_exists.mp
    (List.isSome_min?_iff.mpr (List.ne_nil_of_mem mem))
  exact Nat.lt_of_lt_of_le (late tick wakes) ((List.min?_eq_some_iff.mp wakes).2 d mem)

/-- One more deadline does not wake a wait that is woken by then. -/
theorem wakeTick?_limited_of_le (wakes : x.wakeTick? = some tick) (early : tick ≤ last) :
    (x.limited last).wakeTick? = some tick := by
  obtain ⟨mem, first⟩ := List.min?_eq_some_iff.mp wakes
  simp only [wakeTick?, limited, ← List.append_assoc]
  refine List.min?_eq_some_iff.mpr ⟨List.mem_append_left _ mem, ?_⟩
  exact List.forall_mem_append.mpr ⟨first, List.forall_mem_singleton.mpr early⟩

/-- It wakes a wait to which nothing happens by then. -/
theorem wakeTick?_limited_of_late (late : ∀ tick, x.wakeTick? = some tick → last < tick) :
    (x.limited last).wakeTick? = some last := by
  simp only [wakeTick?, limited, ← List.append_assoc]
  refine List.min?_eq_some_iff.mpr ⟨List.mem_append_right _ (List.mem_singleton_self _), ?_⟩
  refine List.forall_mem_append.mpr ⟨?_, List.forall_mem_singleton.mpr (Nat.le_refl _)⟩
  exact fun d mem => Nat.le_of_lt (x.lt_of_wakeTick? late d mem)

/-- What happens to a wait by now does so under one more deadline as well. -/
theorem settle?_limited_of_isSome (last : Nat) (settled : (x.settle? w).isSome) :
    (x.limited last).settle? w = x.settle? w := by
  obtain ⟨due, ds⟩ := x
  have expires (passed : (ds.findIdx? (· ≤ w.now.tick)).isSome) :
      (ds ++ [last]).findIdx? (· ≤ w.now.tick) = ds.findIdx? (· ≤ w.now.tick) := by
    obtain ⟨i, found⟩ := Option.isSome_iff_exists.mp passed
    rw [List.findIdx?_append, found]
    rfl
  match due with
  | none =>
      simp only [settle?, limited, Option.isSome_map] at settled ⊢
      rw [expires settled]
  | some (tick, finish) =>
      simp only [settle?, limited] at settled ⊢
      split
      · rfl
      · rename_i ahead
        rw [if_neg ahead, Option.isSome_map] at settled
        rw [expires settled]

/-- A wait to which nothing has happened yet is cut by one more deadline that has passed. -/
theorem settle?_limited_of_late (reached : last ≤ w.now.tick)
    (late : ∀ tick, x.wakeTick? = some tick → w.now.tick < tick) :
    (x.limited last).settle? w = some (.error (.deadline x.deadlines.length), w) := by
  have ahead := x.lt_of_wakeTick? late
  obtain ⟨due, ds⟩ := x
  have standing : ds.findIdx? (· ≤ w.now.tick) = none := by
    rw [List.findIdx?_eq_none_iff]
    intro d mem
    exact decide_eq_false (Nat.not_le.mpr (ahead d (List.mem_append_right _ mem)))
  have cut : (ds ++ [last]).findIdx? (· ≤ w.now.tick) = some ds.length := by
    rw [List.findIdx?_append, standing]
    simp [reached]
  match due with
  | none =>
      simp only [settle?, limited, cut]
      rfl
  | some (tick, finish) =>
      have unfinished := Nat.not_le.mpr (ahead tick (by simp))
      simp only [settle?, limited, cut, if_neg unfinished]
      rfl

end Waiting

/-- How a flow goes under one more deadline, `last`, around the `n` that are around it already: `p` is the flow
without it and `p'` the flow with it, each as a function of what follows. -/
inductive Shortened (backend : Cache.Backend σ) (n last : Nat)
    (p : (Except Interruption α → Flow γ) → Flow γ) (p' : (Except Interruption α → Flow γ') → Flow γ')
    (w : World σ) : Prop where
  /-- It ends by then: with a value, in a fault, or cut by one of the other deadlines. -/
  | ends (r : Except Interruption α) (w' : World σ) (tick : Nat) :
      w'.now = w.now.advanceTo tick → tick ≤ last → (∀ i, r = .error (.deadline i) → i < n) →
      (∀ k, (p k).run backend w = (k r).run backend w') →
      (∀ k, (p' k).run backend w = (k r).run backend w') → Shortened backend n last p p' w
  /-- It goes on beyond it, and is cut there. -/
  | cut (w' : World σ) :
      w'.now = w.now.advanceTo last →
      (∀ k, ((p k).run backend w).1 = .endless ∨ last < ((p k).run backend w).2.now.tick) →
      (∀ k, (p' k).run backend w = (k (.error (.deadline n))).run backend w') →
      Shortened backend n last p p' w

variable {backend : Cache.Backend σ} {n last tick : Nat}

/-- A flow goes as it does until then. -/
theorem Shortened.before {p q : (Except Interruption α → Flow γ) → Flow γ}
    {p' q' : (Except Interruption α → Flow γ') → Flow γ'} {w w₁ : World σ}
    (rest : Shortened backend n last q q' w₁) (moved : w₁.now = w.now.advanceTo tick)
    (early : tick ≤ last) (runs : ∀ k, (p k).run backend w = (q k).run backend w₁)
    (runs' : ∀ k, (p' k).run backend w = (q' k).run backend w₁) :
    Shortened backend n last p p' w := by
  have onward {w' : World σ} {tick' : Nat} (now : w'.now = w₁.now.advanceTo tick') :
      w'.now = w.now.advanceTo (max tick tick') := by
    rw [now, moved, Instant.advanceTo_advanceTo]
  cases rest with
  | ends r w' tick' now early' named go go' =>
      refine .ends r w' _ (onward now) (Nat.max_le.mpr ⟨early, early'⟩) named ?_ ?_
      · exact fun k => (runs k).trans (go k)
      · exact fun k => (runs' k).trans (go' k)
  | cut w' now late go' =>
      refine .cut w' ?_ ?_ fun k => (runs' k).trans (go' k)
      · rw [onward now, Nat.max_eq_right early]
      · exact fun k => by rw [runs k]; exact late k

/-- A question goes as what is done with its answer. -/
theorem Shortened.ask {q : Query} {p : (Except Interruption α → Flow γ) → q.Answer → Flow γ}
    {p' : (Except Interruption α → Flow γ') → q.Answer → Flow γ'} {w : World σ}
    (begun : w.now.tick ≤ last)
    (rest : Shortened backend n last (fun k => p k (w.answer q).1) (fun k => p' k (w.answer q).1)
      (w.answer q).2) :
    Shortened backend n last (fun k => .ask q (p k)) (fun k => .ask q (p' k)) w := by
  refine rest.before ?_ begun (fun _ => rfl) fun _ => rfl
  rw [World.now_answer, Instant.advanceTo_tick]

/-- A flow goes in one of these ways if all that follows its end does. -/
theorem Shortened.under {q : (Except Interruption β → Flow γ) → Flow γ}
    {q' : (Except Interruption β → Flow γ') → Flow γ'} {m : Nat} {w : World σ}
    {f : (Except Interruption α → Flow γ) → Except Interruption β → Flow γ}
    {f' : (Except Interruption α → Flow γ') → Except Interruption β → Flow γ'}
    (inner : Shortened backend m last q q' w) (begun : w.now.tick ≤ last)
    (follows : ∀ r (w' : World σ), w'.now.tick ≤ last → (∀ i, r = .error (.deadline i) → i < m) →
      Shortened backend n last (fun k => f k r) (fun k => f' k r) w')
    (told : ∀ w' : World σ, ∃ w'' : World σ, w''.now = w'.now ∧
      ∀ k, (f' k (.error (.deadline m))).run backend w' = (k (.error (.deadline n))).run backend w'') :
    Shortened backend n last (fun k => q (f k)) (fun k => q' (f' k)) w := by
  cases inner with
  | ends r w' tick moved early named runs runs' =>
      refine (follows r w' ?_ named).before moved early (fun k => runs (f k)) fun k => runs' (f' k)
      rw [moved, Instant.tick_advanceTo]
      exact Nat.max_le.mpr ⟨begun, early⟩
  | cut w' moved late runs' =>
      obtain ⟨w'', now, goes⟩ := told w'
      exact .cut w'' (now.trans moved) (fun k => late (f k)) fun k => (runs' (f' k)).trans (goes k)

section Await

variable {wait : Wait} {next : wait.Answer → Action α} {ds : List Nat} {w w₁ : World σ} {x : Waiting σ wait}

/-- A wait that begins under one more deadline is the one that begins without it, with that deadline. -/
theorem World.await_limited (last : Nat) (begins : w.await backend wait ds = (w₁, x)) :
    w₁.now = w.now ∧ x.deadlines = ds ∧ w.await backend wait (ds ++ [last]) = (w₁, x.limited last) := by
  have deadlines : x.deadlines = ds := by
    have kept := Pool.deadlines_await w backend wait ds
    rwa [begins] at kept
  refine ⟨?_, deadlines, ?_⟩
  · rw [← w.now_await backend wait ds, begins]
  · rw [World.await_deadlines w backend wait ds, begins, Waiting.limited, deadlines]

/-- A wait that is not woken by a tick goes on beyond it. -/
theorem Action.late_await (begins : w.await backend wait ds = (w₁, x))
    (late : ∀ tick, x.wakeTick? = some tick → last < tick) (k : Except Interruption α → Flow γ) :
    (((Action.await wait next).flow ds k).run backend w).1 = .endless ∨
      last < (((Action.await wait next).flow ds k).run backend w).2.now.tick := by
  simp only [Action.flow, Flow.run, begins]
  cases wakes : x.wakeTick? with
  | none => exact .inl rfl
  | some tick =>
      have reached : last < (w₁.advanceTo tick).now.tick := by
        rw [World.tick_advanceTo]
        exact Nat.lt_of_lt_of_le (late tick wakes) (Nat.le_max_right _ _)
      dsimp only
      split
      · exact .inl rfl
      · rename_i y settled settles
        refine .inr (Nat.lt_of_lt_of_le reached (Nat.div_le_div_right ?_))
        rw [← (Waiting.settle?_keeps settles).1]
        exact Flow.now_le_run backend _ settled

/-- Where nothing happens to a wait by a deadline, the deadline is what happens to it. -/
theorem Action.cut_await (begins : w.await backend wait ds = (w₁, x)) (begun : w.now.tick ≤ last)
    (late : ∀ tick, x.wakeTick? = some tick → last < tick) (k : Except Interruption α → Flow γ) :
    ((Action.await wait next).flow (ds ++ [last]) k).run backend w =
      (k (.error (.deadline ds.length))).run backend (w₁.advanceTo last) := by
  obtain ⟨now, deadlines, begins'⟩ := World.await_limited last begins
  have wakes : (x.limited last).wakeTick? = some last :=
    Waiting.wakeTick?_limited_of_late late
  have settles : (x.limited last).settle? (w₁.advanceTo last) =
      some (.error (.deadline x.deadlines.length), w₁.advanceTo last) := by
    apply Waiting.settle?_limited_of_late
    · rw [World.tick_advanceTo]
      exact Nat.le_max_right _ _
    · intro tick wakes
      rw [World.tick_advanceTo, now, Nat.max_eq_right begun]
      exact late tick wakes
  simp only [Action.flow, Flow.run, begins', wakes, settles]
  rw [deadlines]

/-- A wait that is woken by the deadline goes in one of these ways if what is done with its answer does. -/
theorem Action.shortened_woken (begins : w.await backend wait ds = (w₁, x)) (begun : w.now.tick ≤ last)
    (wakes : x.wakeTick? = some tick) (early : tick ≤ last)
    (answered : ∀ y (w' : World σ), w'.now.tick ≤ last →
      Shortened backend ds.length last (fun k : Except Interruption α → Flow γ => (next y).flow ds k)
        (fun k : Except Interruption α → Flow γ' => (next y).flow (ds ++ [last]) k) w') :
    Shortened backend ds.length last (fun k : Except Interruption α → Flow γ => (Action.await wait next).flow ds k)
      (fun k : Except Interruption α → Flow γ' => (Action.await wait next).flow (ds ++ [last]) k) w := by
  obtain ⟨now, deadlines, begins'⟩ := World.await_limited last begins
  have moved : (w₁.advanceTo tick).now = w.now.advanceTo tick := by
    rw [World.now_advanceTo, now]
  have reached : (w₁.advanceTo tick).now.tick ≤ last := by
    rw [World.tick_advanceTo, now]
    exact Nat.max_le.mpr ⟨begun, early⟩
  have wakes' := Waiting.wakeTick?_limited_of_le wakes early
  have happens : (x.settle? (w₁.advanceTo tick)).isSome := by
    apply Waiting.settle?_isSome wakes
    rw [World.tick_advanceTo]
    exact Nat.le_max_right _ _
  have settles' := Waiting.settle?_limited_of_isSome last happens
  obtain ⟨outcome, settles⟩ := Option.isSome_iff_exists.mp happens
  rw [settles] at settles'
  rcases outcome with ⟨i | y, settled⟩
  · cases Waiting.settle?_error settles
    refine .ends (.error i) _ tick moved early ?_ ?_ ?_
    · intro j same
      cases same
      rw [← deadlines]
      exact (List.findIdx?_eq_some_iff_getElem.mp (Waiting.settle?_deadline settles)).1
    · exact fun k => by simp only [Action.flow, Flow.run, begins, wakes, settles]
    · exact fun k => by simp only [Action.flow, Flow.run, begins', wakes', settles']
  · have kept := (Waiting.settle?_keeps settles).1
    refine (answered y settled (by rwa [kept])).before (kept.trans moved) early ?_ ?_
    · exact fun k => by simp only [Action.flow, Flow.run, begins, wakes, settles]
    · exact fun k => by simp only [Action.flow, Flow.run, begins', wakes', settles']

/-- A wait goes in one of these ways if what is done with its answer does. -/
theorem Action.shortened_await (begun : w.now.tick ≤ last)
    (answered : ∀ y (w' : World σ), w'.now.tick ≤ last →
      Shortened backend ds.length last (fun k : Except Interruption α → Flow γ => (next y).flow ds k)
        (fun k : Except Interruption α → Flow γ' => (next y).flow (ds ++ [last]) k) w') :
    Shortened backend ds.length last (fun k : Except Interruption α → Flow γ => (Action.await wait next).flow ds k)
      (fun k : Except Interruption α → Flow γ' => (Action.await wait next).flow (ds ++ [last]) k) w := by
  generalize begins : w.await backend wait ds = r
  obtain ⟨w₁, x⟩ := r
  by_cases late : ∀ tick, x.wakeTick? = some tick → last < tick
  · refine .cut (w₁.advanceTo last) ?_ (late_await begins late) (cut_await begins begun late)
    rw [World.now_advanceTo, (World.await_limited last begins).1]
  · obtain ⟨tick, woken⟩ := Classical.not_forall.mp late
    obtain ⟨wakes, early⟩ := Classical.not_imp.mp woken
    exact shortened_woken begins begun wakes (Nat.not_lt.mp early) answered

end Await

/-- What is over before one more deadline has ended. -/
theorem shortened_over {r : Except Interruption α} {w : World σ} (begun : w.now.tick ≤ last)
    (named : ∀ i, r = .error (.deadline i) → i < n) :
    Shortened backend n last (fun k : Except Interruption α → Flow γ => k r)
      (fun k : Except Interruption α → Flow γ' => k r) w :=
  .ends r w _ w.now.advanceTo_tick.symm begun named (fun _ => rfl) fun _ => rfl

/-- Every action under deadlines goes in one of these ways under one more. -/
theorem Action.shortened (a : Action α) (ds : List Nat) (w : World σ) (begun : w.now.tick ≤ last) :
    Shortened backend ds.length last (fun k : Except Interruption α → Flow γ => a.flow ds k)
      (fun k : Except Interruption α → Flow γ' => a.flow (ds ++ [last]) k) w := by
  induction a generalizing ds w with
  | done x => exact shortened_over begun fun i impossible => by cases impossible
  | fault e => exact shortened_over begun fun i impossible => by cases impossible
  | ask q next ih =>
      simp only [flow]
      exact Shortened.ask begun (ih _ ds _ (by rwa [World.now_answer]))
  | await wait next ih => exact shortened_await begun fun x w' early => ih x ds w' early
  | within limit body next ih ih' =>
      simp only [flow]
      refine Shortened.ask begun ((ih (w.now.deadlineTick limit :: ds) w begun).under begun ?_ ?_)
      · intro r w' begun' named
        rcases r with ((_ | i) | e) | b
        · exact ih' none ds w' begun'
        · refine shortened_over begun' fun j same => ?_
          cases same
          exact Nat.lt_of_succ_lt_succ (named (i + 1) rfl)
        · exact shortened_over begun' fun i impossible => by cases impossible
        · exact ih' (some b) ds w' begun'
      · exact fun w' => ⟨w', rfl, fun _ => rfl⟩
  | guarded abandoned body next ih ih' =>
      simp only [flow]
      refine (ih ds w begun).under begun ?_ fun w' => ?_
      · intro r w' begun' named
        cases r with
        | ok b => exact ih' b ds w' begun'
        | error i =>
            have now := w'.now_answerAll abandoned
            refine (shortened_over (r := .error i) (by rwa [now]) fun j same => ?_).before
              (now.trans w'.now.advanceTo_tick.symm) begun' (fun k => ?_) fun k => ?_
            · exact named j (by cases same; rfl)
            · exact Flow.run_askAll backend abandoned _ w'
            · exact Flow.run_askAll backend abandoned _ w'
      · exact ⟨_, w'.now_answerAll abandoned, fun k => Flow.run_askAll backend abandoned _ w'⟩

/-! ### Actions that stand alone -/

namespace Action

variable {a : Action α} {w : World σ}

/-- `a.EndsBy backend w tick`: run from `w`, `a` ends, with a value or a fault, and the timer has
not passed the tick then. -/
def EndsBy (backend : Cache.Backend σ) (a : Action α) (w : World σ) (tick : Nat) : Prop :=
  (a.run backend w).1 ≠ .endless ∧ (a.run backend w).2.now.tick ≤ tick

theorem endsBy_of_run {r : Ending α} {w' : World σ} {tick : Nat} (runs : a.run backend w = (r, w'))
    (ended : r ≠ .endless) (early : w'.now.tick ≤ tick) : a.EndsBy backend w tick := by
  rw [EndsBy, runs]
  exact ⟨ended, early⟩

/-- An action under a deadline of its own and no other one. -/
def orNone : Except Interruption α → Flow (Option (Option α))
  | .ok x => .done (some (some x))
  | .error (.deadline 0) => .done (some none)
  | .error (.deadline (_ + 1)) => .done none
  | .error (.fault e) => .fault e

theorem run_start_timeout (backend : Cache.Backend σ) (limit : Span) (a : Action α) (w : World σ) :
    (timeout limit a).start.run backend w =
      (a.flow [w.now.deadlineTick limit] orNone).run backend w := by
  simp only [timeout, start, flow, Flow.run, World.answer]
  congr 2

theorem endless_of_start (endless : (a.start.run backend w).1 = .endless) :
    (a.run backend w).1 = .endless := by
  unfold run
  split <;> rename_i ran <;> rw [ran] at endless <;> first | rfl | cases endless

/-- Under a deadline of its own an action ends as it does alone, if that is by the deadline, and otherwise
with no value on the tick of the deadline. -/
theorem run_timeout (backend : Cache.Backend σ) (limit : Span) (a : Action α) (w : World σ) :
    (a.EndsBy backend w (w.now.deadlineTick limit) ∧
      (timeout limit a).run backend w =
        match a.run backend w with
        | (.value x, w') => (.value (some x), w')
        | (.fault e, w') => (.fault e, w')
        | (.endless, w') => (.endless, w')) ∨
    (¬ a.EndsBy backend w (w.now.deadlineTick limit) ∧
      ∃ w', (timeout limit a).run backend w = (.value none, w') ∧ w'.now = (w.slept limit).now) := by
  have begun := w.now.tick_le_deadlineTick limit
  have early {w' : World σ} {tick : Nat} (moved : w'.now = w.now.advanceTo tick)
      (le : tick ≤ w.now.deadlineTick limit) : w'.now.tick ≤ w.now.deadlineTick limit := by
    rw [moved, Instant.tick_advanceTo]
    exact Nat.max_le.mpr ⟨begun, le⟩
  cases a.shortened [] w begun with
  | ends r w' tick moved le named runs runs' =>
      rcases r with (i | e) | x
      · exact absurd (named i rfl) (Nat.not_lt_zero i)
      · have alone : a.run backend w = (.fault e, w') := by
          rw [run, start, runs, Flow.run]
        have under : (timeout limit a).run backend w = (.fault e, w') := by
          rw [run, run_start_timeout, ← List.nil_append [_], runs', orNone, Flow.run]
        have ends := endsBy_of_run alone (fun impossible => by cases impossible) (early moved le)
        exact .inl ⟨ends, by rw [alone, under]⟩
      · have alone : a.run backend w = (.value x, w') := by
          rw [run, start, runs, Flow.run]
        have under : (timeout limit a).run backend w = (.value (some x), w') := by
          rw [run, run_start_timeout, ← List.nil_append [_], runs', orNone, Flow.run]
        have ends := endsBy_of_run alone (fun impossible => by cases impossible) (early moved le)
        exact .inl ⟨ends, by rw [alone, under]⟩
  | cut w' moved late runs' =>
      have under : (timeout limit a).run backend w = (.value none, w') := by
        rw [run, run_start_timeout, ← List.nil_append [_], runs', List.length_nil, orNone, Flow.run]
      refine .inr ⟨fun ends => ?_, w', under, ?_⟩
      · have goes : (a.start.run backend w).1 = .endless ∨
            w.now.deadlineTick limit < (a.start.run backend w).2.now.tick := late _
        rcases goes with endless | beyond
        · exact ends.1 (endless_of_start endless)
        · have passed := ends.2
          rw [now_run] at passed
          exact Nat.not_le.mpr beyond passed
      · rw [moved, World.slept, World.now_advanceTo]

variable {ε : Type} {ofTimeout : TimeoutError → ε} {limit : Span} {body : Action (Except ε α)}

/-- An action that ends by its deadline ends as it does alone. -/
theorem run_withTimeoutOr_of_endsBy (ends : body.EndsBy backend w (w.now.deadlineTick limit)) :
    (withTimeoutOr ofTimeout limit body).run backend w = body.run backend w := by
  rcases run_timeout backend limit body w with ⟨_, under⟩ | ⟨outlasts, _⟩
  · rw [withTimeoutOr, run_bind, under]
    rcases body.run backend w with ⟨x | e | _, w'⟩ <;> rfl
  · exact absurd ends outlasts

/-- An action that does not ends in a timeout error, when a sleep as long as the limit would have ended. -/
theorem run_withTimeoutOr_of_outlasts (ofTimeout : TimeoutError → ε)
    (outlasts : ¬ body.EndsBy backend w (w.now.deadlineTick limit)) :
    ∃ w', (withTimeoutOr ofTimeout limit body).run backend w =
        (.value (.error (ofTimeout ⟨limit⟩)), w') ∧
      w'.now = (w.slept limit).now := by
  rcases run_timeout backend limit body w with ⟨ends, _⟩ | ⟨_, w', under, now⟩
  · exact absurd ends outlasts
  · refine ⟨w', ?_, now⟩
    rw [withTimeoutOr, run_bind, under]
    rfl

end Action

end TokenAuthority
