import TokenAuthority.Proofs.Effect.Schedule
import TokenAuthority.Proofs.Effect.Together

/-!
# Actions side by side are a schedule

Actions that are answered side by side take one way through the schedules on which no caller goes. If each of
their waits is a sleep or has a deadline, none of them is left waiting.

* `Pool.Keeps`, `Action.runAll_cases` — what every step of a pool keeps holds when the pool has come to rest,
  and where it ends in a fault.
* `Flow.Steady` — a flow that is always woken and whose caller does not go. `Action.Ensures.steady` — so is
  every action whose waits are limited.
* `Action.runAll_schedule` — side by side, such actions end with values, as calls of a schedule do, or in a
  fault.
* `Scene.Passes`, `Scene.Steps.passes`, `Scene.Steps.passes_both` — the step in which an event was seen, and
  which one of two was seen first.
* `Scene.Step.answered` — what the cache did in the step in which a call of it was answered.
-/

namespace TokenAuthority

/-! ### Steps of a pool -/

namespace Pool

variable {σ α : Type} {backend : Cache.Backend σ} {w w' : World σ} {ms ms' : List (Member σ α)} {e : Fault}

/-- A step takes one member to one of its branches. -/
theorem step?_ok (steps : step? backend ms w = some (.ok (ms', w'))) :
    ∃ i m f w₁ m', ms[i]? = some m ∧ m.advance? w = some (f, w₁) ∧
      Member.enter backend f w₁ = .ok (m', w') ∧ ms' = ms.set i m' := by
  induction ms generalizing ms' with
  | nil => cases steps
  | cons m ms ih =>
      unfold step? at steps
      split at steps
      · rename_i f w₁ goes
        cases entered : Member.enter backend f w₁ with
        | error e =>
            rw [entered] at steps
            cases steps
        | ok r =>
            rw [entered] at steps
            cases steps
            exact ⟨0, m, f, w₁, r.1, rfl, goes, entered, rfl⟩
      · obtain ⟨r, later, same⟩ := Option.map_eq_some_iff.mp steps
        cases r with
        | error e => cases same
        | ok r =>
            cases same
            obtain ⟨i, m', f, w₁, m'', here, goes, entered, rest⟩ := ih later
            exact ⟨i + 1, m', f, w₁, m'', here, goes, entered, by rw [rest]; rfl⟩

/-- A step ends in the fault to which a member has come. -/
theorem step?_error (steps : step? backend ms w = some (.error e)) :
    ∃ m ∈ ms, ∃ f w₁, m.advance? w = some (f, w₁) ∧ Member.enter backend f w₁ = .error e := by
  induction ms with
  | nil => cases steps
  | cons m ms ih =>
      unfold step? at steps
      split at steps
      · rename_i f w₁ goes
        cases entered : Member.enter backend f w₁ with
        | error e' =>
            rw [entered] at steps
            cases steps
            exact ⟨m, List.mem_cons_self, f, w₁, goes, entered⟩
        | ok r =>
            rw [entered] at steps
            cases steps
      · obtain ⟨r, later, same⟩ := Option.map_eq_some_iff.mp steps
        cases r with
        | ok r => cases same
        | error e' =>
            cases same
            obtain ⟨m', mem, fails⟩ := ih later
            exact ⟨m', List.mem_cons_of_mem _ mem, fails⟩

/-- Where there is no step, no member can go on. -/
theorem step?_none (still : step? backend ms w = none) : ∀ m ∈ ms, m.advance? w = none := by
  induction ms with
  | nil => exact fun m none => (List.not_mem_nil none).elim
  | cons m ms ih =>
      unfold step? at still
      split at still
      · cases still
      · rename_i stays
        exact List.forall_mem_cons.mpr ⟨stays, ih (Option.map_eq_none_iff.mp still)⟩

/-- A run goes on with the first step after the timer has moved on. -/
theorem run_of_wake {r : List (Member σ α) × World σ} (still : step? backend ms w = none)
    (steps : step? backend ms (wake ms w) = some (.ok r)) :
    run backend true ms w = run backend true r.1 r.2 := by
  rw [run]
  split <;> rename_i outcome
  · rw [still] at outcome
    cases outcome
  · rw [still] at outcome
    cases outcome
  · rw [if_pos rfl]
    split <;> rename_i later
    · rw [steps] at later
      cases later
      rfl
    · rw [steps] at later
      cases later
    · rw [steps] at later
      cases later

theorem run_of_wake_fault (still : step? backend ms w = none)
    (fails : step? backend ms (wake ms w) = some (.error e)) : run backend true ms w = .error e := by
  rw [run]
  split <;> rename_i outcome
  · rw [still] at outcome
    cases outcome
  · rw [still] at outcome
    cases outcome
  · rw [if_pos rfl]
    split <;> rename_i later
    · rw [fails] at later
      cases later
    · rw [fails] at later
      cases later
      rfl
    · rw [fails] at later
      cases later

/-! ### What steps keep -/

/-- What all steps of a pool keep, told of the flows that have yet to enter, the members and the world. -/
structure Keeps (backend : Cache.Backend σ) (I : List (Flow α) → List (Member σ α) → World σ → Prop) :
    Prop where
  enters : ∀ {f fs ms w m w'}, I (f :: fs) ms w → Member.enter backend f w = .ok (m, w') →
    I fs (ms ++ [m]) w'
  steps : ∀ {fs ms w ms' w'}, I fs ms w → step? backend ms w = some (.ok (ms', w')) → I fs ms' w'
  waits : ∀ {fs ms w}, I fs ms w → I fs ms (wake ms w)

/-- A pool ends in a fault next. -/
def Fails (backend : Cache.Backend σ) (e : Fault) (fs : List (Flow α)) (ms : List (Member σ α))
    (w : World σ) : Prop :=
  step? backend ms w = some (.error e) ∨ ∃ f rest, fs = f :: rest ∧ Member.enter backend f w = .error e

/-- No member of a pool can go on, now or when the timer has moved on. -/
def Rests (backend : Cache.Backend σ) (ms : List (Member σ α)) (w : World σ) : Prop :=
  step? backend ms w = none ∧ step? backend ms (wake ms w) = none

variable {I : List (Flow α) → List (Member σ α) → World σ → Prop} {fs : List (Flow α)}

/-- What comes of a run, or of a part of one: it comes to rest in some way, or it ends in a fault where what
all steps keep still holds. -/
def Comes (backend : Cache.Backend σ) (I : List (Flow α) → List (Member σ α) → World σ → Prop)
    (rests : List (Member σ α) → World σ → Prop) : Except Fault (List (Member σ α) × World σ) → Prop
  | .ok (ms, w) => rests ms w
  | .error e => ∃ fs ms w, I fs ms w ∧ Fails backend e fs ms w

/-- What all steps keep holds along a run. -/
theorem run_comes (keeps : Keeps backend I) (mayWait : Bool) (holds : I fs ms w) :
    Comes backend I (fun ms w => I fs ms w ∧ (mayWait = true → Rests backend ms w))
      (run backend mayWait ms w) := by
  induction ms, w using run.induct backend mayWait with
  | case1 ms w r steps ih =>
      rw [run_of_step steps]
      exact ih (keeps.steps holds steps)
  | case2 ms w e fails =>
      rw [run_of_fault fails]
      exact ⟨fs, ms, w, holds, .inl fails⟩
  | case3 ms w still may r steps ih =>
      cases may
      rw [run_of_wake still steps]
      exact ih (keeps.steps (keeps.waits holds) steps)
  | case4 ms w still may e fails =>
      cases may
      rw [run_of_wake_fault still fails]
      exact ⟨fs, ms, wake ms w, keeps.waits holds, .inl fails⟩
  | case5 ms w still may rests =>
      rw [run_of_still still fun _ => rests]
      exact ⟨holds, fun _ => ⟨still, rests⟩⟩
  | case6 ms w still mayNot =>
      rw [run_of_still still fun may => absurd may mayNot]
      exact ⟨holds, fun may => absurd may mayNot⟩

/-- What all steps keep holds when all flows have entered. -/
theorem startAll_comes (keeps : Keeps backend I) (holds : I fs ms w) :
    Comes backend I (I []) (startAll backend ms fs w) := by
  induction fs generalizing ms w with
  | nil => exact holds
  | cons f fs ih =>
      rw [startAll]
      cases entered : Member.enter backend f w with
      | error e => exact ⟨f :: fs, ms, w, holds, .inr ⟨f, fs, rfl, entered⟩⟩
      | ok r =>
          have comes := run_comes keeps false (keeps.enters holds entered)
          change Comes backend I (I []) (run backend false (ms ++ [r.1]) r.2 >>= _)
          cases ran : run backend false (ms ++ [r.1]) r.2 with
          | error e =>
              rw [ran] at comes
              exact comes
          | ok r' =>
              rw [ran] at comes
              exact ih comes.1

end Pool

/-- Actions side by side come to rest where all that their steps keep holds, or end in a fault there. -/
theorem Action.runAll_cases {σ α : Type} {backend : Cache.Backend σ} {as : List (Action α)} {w : World σ}
    {I : List (Flow (Option α)) → List (Pool.Member σ (Option α)) → World σ → Prop}
    (keeps : Pool.Keeps backend I) (holds : I (as.map start) [] w) :
    (∃ ms w', I [] ms w' ∧ Pool.Rests backend ms w' ∧
      runAll backend as w = .ok (ms.map fun m => m.value?.join, w')) ∨
    ∃ e, runAll backend as w = .error e ∧ ∃ fs ms w', I fs ms w' ∧ Pool.Fails backend e fs ms w' := by
  have started := Pool.startAll_comes keeps holds
  unfold runAll
  cases starts : Pool.startAll backend [] (as.map start) w with
  | error e =>
      rw [starts] at started
      exact .inr ⟨e, rfl, started⟩
  | ok r =>
      rw [starts] at started
      have ran := Pool.run_comes keeps true started
      change (∃ ms w', _ ∧ _ ∧ (Pool.run backend true r.1 r.2 >>= _) = _) ∨
        ∃ e, (Pool.run backend true r.1 r.2 >>= _) = _ ∧ _
      cases runs : Pool.run backend true r.1 r.2 with
      | error e =>
          rw [runs] at ran
          exact .inr ⟨e, rfl, ran⟩
      | ok r' =>
          rw [runs] at ran
          exact .inl ⟨r'.1, r'.2, ran.1, ran.2 rfl, rfl⟩

/-! ### The schedule of a pool -/

namespace Scene

variable {σ κ α : Type} {backend : Cache.Backend σ} {flow : κ → Flow α}

/-- A pool is a scene that steps lead to: its members are where the calls stand, and its flows are those of
the calls that have yet to enter. -/
def Scheduled (backend : Cache.Backend σ) (flow : κ → Flow α) (w₀ : World σ) (calls : List κ)
    (fs : List (Flow α)) (ms : List (Pool.Member σ α)) (w : World σ) : Prop :=
  ∃ S left, Steps backend flow ⟨w₀, []⟩ S ∧ S.world = w ∧ S.strands.map Strand.place = ms.map .ok ∧
    S.strands.map Strand.call ++ left = calls ∧ fs = left.map flow

theorem take_of_enter {f : Flow α} {w w' : World σ} {m : Pool.Member σ α}
    (entered : Pool.Member.enter backend f w = .ok (m, w')) : take backend f w = (.ok m, w') := by
  rw [take, entered]

/-- A call of a scene has come as far as a member of a pool. -/
theorem strand_of_place {S : Scene σ κ α} {ms : List (Pool.Member σ α)} {i : Nat} {m : Pool.Member σ α}
    (places : S.strands.map Strand.place = ms.map .ok) (here : ms[i]? = some m) :
    ∃ strand, S.strands[i]? = some strand ∧ strand.place = .ok m := by
  have place : (S.strands.map Strand.place)[i]? = some (.ok m) := by
    rw [places, List.getElem?_map, here]
    rfl
  rwa [List.getElem?_map, Option.map_eq_some_iff] at place

/-- A move takes a call to where a member goes, and leaves the calls what they are. -/
theorem strands_move {S : Scene σ κ α} {ms : List (Pool.Member σ α)} {i : Nat} {strand : Strand σ κ α}
    {e : Event} {f : Flow α} {w w' : World σ} {m : Pool.Member σ α}
    (places : S.strands.map Strand.place = ms.map .ok) (found : S.strands[i]? = some strand)
    (entered : Pool.Member.enter backend f w = .ok (m, w')) :
    (S.move backend i strand e f w).world = w' ∧
      (S.move backend i strand e f w).strands.map Strand.place = (ms.set i m).map .ok ∧
      (S.move backend i strand e f w).strands.map Strand.call = S.strands.map Strand.call := by
  obtain ⟨inside, same⟩ := List.getElem?_eq_some_iff.mp found
  refine ⟨?_, ?_, ?_⟩
  · rw [move, take_of_enter entered]
  · rw [move, take_of_enter entered, List.map_set, List.map_set, places]
  · have call : i < (S.strands.map Strand.call).length := by rwa [List.length_map]
    have unchanged := List.set_getElem_self call
    rw [List.getElem_map, same] at unchanged
    rw [move, List.map_set, unchanged]

/-- The timer of a pool moves on as time passes in a scene. -/
theorem step_wake (backend : Cache.Backend σ) (flow : κ → Flow α) (S : Scene σ κ α)
    (ms : List (Pool.Member σ α)) :
    ∃ S', Steps backend flow S S' ∧ S'.world = Pool.wake ms S.world ∧ S'.strands = S.strands := by
  unfold Pool.wake
  split
  · rename_i tick _
    have passes : Step backend flow S none ⟨S.world.advanceTo tick, S.strands⟩ :=
      .pass S ⟨Span.nanosPerMilli * (tick - S.world.now.tick)⟩
    exact ⟨_, .snoc (.refl S) passes, rfl, rfl⟩
  · exact ⟨S, .refl S, rfl, rfl⟩

/-- A step of a pool is one of a call. -/
theorem step_of_step? (flow : κ → Flow α) {S : Scene σ κ α} {ms ms' : List (Pool.Member σ α)} {w' : World σ}
    (places : S.strands.map Strand.place = ms.map .ok)
    (steps : Pool.step? backend ms S.world = some (.ok (ms', w'))) :
    ∃ l S', Step backend flow S l S' ∧ S'.world = w' ∧ S'.strands.map Strand.place = ms'.map .ok ∧
      S'.strands.map Strand.call = S.strands.map Strand.call := by
  obtain ⟨i, m, f, w₁, m', here, goes, entered, rfl⟩ := Pool.step?_ok steps
  obtain ⟨strand, found, stands⟩ := strand_of_place places here
  cases m with
  | asking q next =>
      cases goes
      exact ⟨_, _, .ask found stands, strands_move places found entered⟩
  | waiting wait started next =>
      simp only [Pool.Member.advance?, Option.map_eq_some_iff] at goes
      obtain ⟨r, settles, same⟩ := goes
      cases same
      exact ⟨_, _, .settle found stands settles, strands_move places found entered⟩
  | ended x => cases goes

/-- All steps of a pool keep to a schedule. -/
theorem keeps_scheduled (backend : Cache.Backend σ) (flow : κ → Flow α) (w₀ : World σ) (calls : List κ) :
    Pool.Keeps backend (Scheduled backend flow w₀ calls) where
  enters := by
    rintro f fs ms w m w' ⟨S, left, steps, rfl, places, rfl, entering⟩ entered
    cases left with
    | nil => cases entering
    | cons k left =>
        obtain ⟨rfl, rfl⟩ := List.cons.inj entering
        refine ⟨_, left, .snoc steps (.enter S k), ?_, ?_, ?_, rfl⟩
        · rw [take_of_enter entered]
        · rw [take_of_enter entered, List.map_append, List.map_append, places]
          rfl
        · simp
  steps := by
    rintro fs ms w ms' w' ⟨S, left, steps, rfl, places, rfl, rfl⟩ step
    obtain ⟨l, S', step, world, places', calls⟩ := step_of_step? flow places step
    exact ⟨S', left, .snoc steps step, world, places', by rw [calls], rfl⟩
  waits := by
    rintro fs ms w ⟨S, left, steps, rfl, places, rfl, rfl⟩
    obtain ⟨S', passes, world, strands⟩ := step_wake backend flow S ms
    exact ⟨S', left, steps.trans passes, world, by rw [strands, places], by rw [strands], rfl⟩

end Scene

/-! ### Flows that are never left waiting -/

/-- However the flow goes on while its waits end in faults of some kind at most, each of them is a sleep or
has a deadline, its own faults are of that kind, and unless its caller goes it ends with a value. -/
def Flow.Steady {α : Type} (faults : Fault → Prop) : Flow (Option α) → Prop
  | .done x => x.isSome = true
  | .fault e => faults e
  | .ask _ next => ∀ x, (next x).Steady faults
  | .await wait ds next => (ds ≠ [] ∨ ∃ s, wait = .sleep s) ∧ (∀ a, (next (.ok a)).Steady faults) ∧
      (∀ i < ds.length, (next (.error (.deadline i))).Steady faults) ∧
      ∀ e, faults e → (next (.error (.fault e))).Steady faults

/-- However the flow goes on, it ends with a value or in a fault unless its caller goes. -/
def Flow.Stays {α : Type} : Flow (Option α) → Prop
  | .done x => x.isSome = true
  | .fault _ => True
  | .ask _ next => ∀ x, (next x).Stays
  | .await _ ds next => (∀ a, (next (.ok a)).Stays) ∧
      (∀ i < ds.length, (next (.error (.deadline i))).Stays) ∧ ∀ e, (next (.error (.fault e))).Stays

/-- A wait that has ended in a fault has ended in one of some kind. -/
def Event.FaultsIn (faults : Fault → Prop) : Event → Prop
  | .ended _ _ _ (.error (.fault e)) => faults e
  | _ => True

section Stays

variable {α γ : Type} {faults own : Fault → Prop}

/-- Where all waits are limited, a fault that has come up is one of the rule or one of a wait. -/
theorem Rule.Raised.of_limited {h : History} {e : Fault} (raised : (Rule.limited own).Raised h e)
    (wider : ∀ e, own e → faults e) (waits : ∀ event ∈ h, event.FaultsIn faults) : faults e := by
  cases raised with
  | allowed allowed _ => exact wider e allowed
  | ended time w ds _ => exact waits _ (List.mem_append_right _ List.mem_cons_self)

theorem Flow.stays_askAll {queries : List Query} {rest : Flow (Option γ)} (stays : rest.Stays) :
    (Flow.askAll queries rest).Stays := by
  induction queries with
  | nil => exact stays
  | cons q queries ih => exact fun _ => ih

/-- An action ends with a value, in a fault, or at one of the deadlines around it. -/
theorem Action.stays_flow (a : Action α) (ds : List Nat) {k : Except Interruption α → Flow (Option γ)}
    (value : ∀ x, (k (.ok x)).Stays) (cut : ∀ i < ds.length, (k (.error (.deadline i))).Stays)
    (faulty : ∀ e, (k (.error (.fault e))).Stays) : (a.flow ds k).Stays := by
  induction a generalizing ds with
  | done a => exact value a
  | fault e => exact faulty e
  | ask q next ih => exact fun x => ih x ds value cut faulty
  | await wait next ih =>
      simp only [Action.flow, Flow.Stays]
      exact ⟨fun a => ih a ds value cut faulty, cut, faulty⟩
  | within limit body next ihBody ih =>
      simp only [Action.flow, Flow.Stays]
      intro t
      refine ihBody (Instant.deadlineTick t limit :: ds) (fun b => ih (some b) ds value cut faulty) ?_ faulty
      rintro (_ | i) inside
      · exact ih none ds value cut faulty
      · exact cut i (Nat.lt_of_succ_lt_succ inside)
  | guarded abandoned body next ihBody ih =>
      simp only [Action.flow]
      exact ihBody ds (fun b => ih b ds value cut faulty) (fun i inside => Flow.stays_askAll (cut i inside))
        fun e => Flow.stays_askAll (faulty e)

/-- An action without a deadline around it ends with a value or in a fault unless its caller goes. -/
theorem Action.stays_start (a : Action α) : a.start.Stays :=
  a.stays_flow [] (fun _ => rfl) (fun i none => absurd none (Nat.not_lt_zero i)) fun _ => trivial

theorem Flow.Stays.steady {f : Flow (Option α)} {Q : History → Except Fault (Option α) → Prop} {h : History}
    (stays : f.Stays) (meets : f.Meets (.limited own) Q h) (wider : ∀ e, own e → faults e)
    (waits : ∀ event ∈ h, event.FaultsIn faults) : f.Steady faults := by
  have later {h : History} {event : Event} (waits : ∀ event ∈ h, event.FaultsIn faults)
      (seen : event.FaultsIn faults) : ∀ event' ∈ h ++ [event], event'.FaultsIn faults :=
    List.forall_mem_append.mpr ⟨waits, List.forall_mem_singleton.mpr seen⟩
  induction f generalizing h with
  | done x => exact stays
  | fault e => exact meets.1.of_limited wider waits
  | ask q next ih => exact fun x => ih x (stays x) (meets .start x).2 (later waits trivial)
  | await wait ds next ih =>
      obtain ⟨answered, cut, faulty⟩ := stays
      exact ⟨(meets .start (.error (.deadline 0))).1,
        fun a => ih _ (answered a) (meets .start _).2 (later waits trivial),
        fun i inside => ih _ (cut i inside) (meets .start _).2 (later waits trivial),
        fun e kind => ih _ (faulty e) (meets .start _).2 (later waits kind)⟩

/-- An action whose waits are limited is never left waiting. -/
theorem Action.Ensures.steady {a : Action α} {post : History → Except Interruption α → Prop}
    (ensures : a.Ensures (.limited own) [] [] post) (wider : ∀ e, own e → faults e) :
    a.start.Steady faults :=
  a.stays_start.steady ensures.start wider fun event none => by cases none

end Stays

namespace Pool

variable {σ α : Type} {backend : Cache.Backend σ} {w w' : World σ} {m : Member σ (Option α)}
  {ms : List (Member σ (Option α))} {f : Flow (Option α)} {faults : Fault → Prop} {e : Fault}

/-- A member whose wait has begun, and that is never left waiting. -/
structure Steady (backend : Cache.Backend σ) (faults : Fault → Prop) (m : Member σ (Option α)) : Prop where
  begun : Scene.Begun backend m
  steady : m.flow.Steady faults

theorem steady_enter (steady : f.Steady faults) (entered : Member.enter backend f w = .ok (m, w')) :
    Steady backend faults m := by
  have stands : Scene.Stands backend f (Scene.take backend f w).1 := Scene.stands_take f w
  rw [Scene.take_of_enter entered] at stands
  exact ⟨stands.2, stands.1 ▸ steady⟩

theorem faults_enter (steady : f.Steady faults) (fails : Member.enter backend f w = .error e) :
    faults e := by
  cases f with
  | done x => cases fails
  | fault e' =>
      cases fails
      exact steady
  | ask q next => cases fails
  | await wait ds next => cases fails

theorem Steady.advance (steady : Steady backend faults m) (wider : ∀ e, backend.Faults e → faults e)
    (goes : m.advance? w = some (f, w')) : f.Steady faults := by
  obtain ⟨begun, steady⟩ := steady
  cases m with
  | asking q next =>
      cases goes
      exact steady _
  | waiting wait started next =>
      obtain ⟨answered, cut, faulty⟩ := steady.2
      simp only [Member.advance?, Option.map_eq_some_iff] at goes
      obtain ⟨⟨r, w₁⟩, settles, same⟩ := goes
      cases same
      rcases r with (i | e) | a
      · exact cut i (List.findIdx?_eq_some_iff_getElem.mp (Waiting.settle?_deadline settles)).1
      · obtain ⟨w₀, ds, rfl⟩ := begun
        exact faulty e (wider e (Waiting.faults_of_settle? backend settles))
      · exact answered a
  | ended x => cases goes

/-- A member that waits is woken. -/
theorem Steady.wakes {wait : Wait} {started : Waiting σ wait}
    {next : Except Interruption wait.Answer → Flow (Option α)}
    (steady : Steady backend faults (.waiting wait started next)) : started.wakeTick?.isSome := by
  obtain ⟨⟨w, ds, rfl⟩, steady⟩ := steady
  simp only [Member.flow, Flow.Steady, deadlines_await] at steady
  exact World.wakeTick?_isSome backend w steady.1

/-- Where steady members have come to rest, each has ended with a value: one that waits would be woken, and the
first one of them would go on. -/
theorem Rests.ended (rests : Rests backend ms w) (steady : ∀ m ∈ ms, Steady backend faults m) :
    ∀ m ∈ ms, ∃ x, m = .ended (some x) := by
  intro m mem
  have stays := step?_none rests.1 m mem
  cases m with
  | asking q next => cases stays
  | ended x =>
      obtain ⟨x, rfl⟩ := Option.isSome_iff_exists.mp (steady _ mem).steady
      exact ⟨x, rfl⟩
  | waiting wait started next =>
      obtain ⟨late, wakes⟩ := Option.isSome_iff_exists.mp (steady _ mem).wakes
      have waking : ms.filterMap Member.wakeTick? ≠ [] :=
        List.ne_nil_of_mem (List.mem_filterMap.mpr ⟨_, mem, wakes⟩)
      obtain ⟨tick, first⟩ := Option.isSome_iff_exists.mp (List.isSome_min?_iff.mpr waking)
      obtain ⟨m', mem', wakes'⟩ := List.mem_filterMap.mp (List.min?_eq_some_iff.mp first).1
      have moved : wake ms w = w.advanceTo tick := by rw [wake, first]
      have stays' := step?_none rests.2 m' mem'
      rw [moved] at stays'
      cases m' with
      | asking q next => cases wakes'
      | ended x => cases wakes'
      | waiting wait' started' next' =>
          have reached : tick ≤ (w.advanceTo tick).now.tick := by
            rw [World.tick_advanceTo]
            exact Nat.le_max_right _ _
          have settles := Waiting.settle?_isSome wakes' reached
          rw [Option.map_eq_none_iff.mp stays'] at settles
          cases settles

theorem keeps_steady (wider : ∀ e, backend.Faults e → faults e) :
    Keeps backend fun fs ms (_ : World σ) =>
      (∀ f ∈ fs, f.Steady faults) ∧ ∀ m ∈ ms, Steady (α := α) backend faults m where
  enters := by
    rintro f fs ms w m w' ⟨entering, steady⟩ entered
    obtain ⟨first, others⟩ := List.forall_mem_cons.mp entering
    exact ⟨others, List.forall_mem_append.mpr
      ⟨steady, List.forall_mem_singleton.mpr (steady_enter first entered)⟩⟩
  steps := by
    rintro fs ms w ms' w' ⟨entering, steady⟩ step
    obtain ⟨i, m, f, w₁, m', here, goes, entered, rfl⟩ := step?_ok step
    have next := (steady m (List.mem_of_getElem? here)).advance wider goes
    refine ⟨entering, fun m mem => ?_⟩
    rcases List.mem_or_eq_of_mem_set mem with mem | rfl
    · exact steady m mem
    · exact steady_enter next entered
  waits := id

/-- A pool of steady members ends in a fault of their kind. -/
theorem faults_of_fails {fs : List (Flow (Option α))} (fails : Fails backend e fs ms w)
    (wider : ∀ e, backend.Faults e → faults e) (entering : ∀ f ∈ fs, f.Steady faults)
    (steady : ∀ m ∈ ms, Steady backend faults m) : faults e := by
  obtain fails | ⟨f, rest, rfl, fails⟩ := fails
  · obtain ⟨m, mem, f, w₁, goes, fails⟩ := step?_error fails
    exact faults_enter ((steady m mem).advance wider goes) fails
  · exact faults_enter (entering f List.mem_cons_self) fails

end Pool

theorem Pool.Keeps.and {σ α : Type} {backend : Cache.Backend σ}
    {I J : List (Flow α) → List (Member σ α) → World σ → Prop} (keeps : Keeps backend I)
    (keeps' : Keeps backend J) : Keeps backend fun fs ms w => I fs ms w ∧ J fs ms w where
  enters held entered := ⟨keeps.enters held.1 entered, keeps'.enters held.2 entered⟩
  steps held step := ⟨keeps.steps held.1 step, keeps'.steps held.2 step⟩
  waits held := ⟨keeps.waits held.1, keeps'.waits held.2⟩

private theorem exists_eq_map {β γ : Type} {g : β → γ} {ys : List γ} (each : ∀ y ∈ ys, ∃ x, y = g x) :
    ∃ xs : List β, ys = xs.map g := by
  induction ys with
  | nil => exact ⟨[], rfl⟩
  | cons y ys ih =>
      obtain ⟨⟨x, rfl⟩, others⟩ := List.forall_mem_cons.mp each
      obtain ⟨xs, rfl⟩ := ih others
      exact ⟨x :: xs, rfl⟩

/-- Side by side, actions that are never left waiting end with their values after a schedule of them on which
all of them end, unless one of them ends in a fault. -/
theorem Action.runAll_schedule {σ κ α : Type} {backend : Cache.Backend σ} {action : κ → Action α}
    {calls : List κ} {faults : Fault → Prop} (wider : ∀ e, backend.Faults e → faults e)
    (steady : ∀ k ∈ calls, (action k).start.Steady faults) (w : World σ) :
    (∃ e, runAll backend (calls.map action) w = .error e ∧ faults e) ∨
      ∃ (xs : List α) (S : Scene σ κ (Option α)),
        runAll backend (calls.map action) w = .ok (xs.map some, S.world) ∧
        Scene.Steps backend (fun k => (action k).start) ⟨w, []⟩ S ∧ S.strands.map Strand.call = calls ∧
        S.strands.map Strand.place = xs.map fun x => .ok (.ended (some x)) := by
  have keeps := (Scene.keeps_scheduled backend (fun k => (action k).start) w calls).and
    (Pool.keeps_steady wider)
  have entering : ∀ f ∈ (calls.map action).map start, f.Steady faults := by
    intro f mem
    obtain ⟨a, here, rfl⟩ := List.mem_map.mp mem
    obtain ⟨k, called, rfl⟩ := List.mem_map.mp here
    exact steady k called
  have begins : Scene.Scheduled backend (fun k => (action k).start) w calls ((calls.map action).map start)
      [] w := ⟨⟨w, []⟩, calls, .refl _, rfl, rfl, rfl, List.map_map⟩
  rcases runAll_cases keeps ⟨begins, entering, fun m none => by cases none⟩ with
    ⟨ms, w', ⟨⟨S, left, steps, rfl, places, same, entered⟩, _, members⟩, rests, runs⟩ |
    ⟨e, runs, fs, ms, w', ⟨_, entering, members⟩, fails⟩
  · obtain ⟨xs, rfl⟩ := exists_eq_map (rests.ended members)
    have nil : left = [] := List.map_eq_nil_iff.mp entered.symm
    rw [List.map_map] at places
    refine .inr ⟨xs, S, ?_, steps, by simpa [nil] using same, places⟩
    rw [runs]
    simp [Pool.Member.value?]
  · exact .inl ⟨e, runs, Pool.faults_of_fails fails wider entering members⟩

/-! ### When something was seen -/

namespace Scene

variable {σ κ α : Type} {backend : Cache.Backend σ} {flow : κ → Flow α}

/-- On the way from one scene to another there is this step, in which a call sees an event. -/
structure Passes (backend : Cache.Backend σ) (flow : κ → Flow α) (first : Scene σ κ α) (i : Nat)
    (e : Event) (before after last : Scene σ κ α) : Prop where
  earlier : Steps backend flow first before
  step : Step backend flow before (some (i, e)) after
  later : Steps backend flow after last

/-- Nothing has been seen where there is no call. -/
theorem not_mem_seen_nil (w : World σ) (i : Nat) (e : Event) :
    e ∉ (Scene.mk w ([] : List (Strand σ κ α))).seen i := by
  intro impossible
  cases impossible

variable {S S' S'' before after : Scene σ κ α} {i j : Nat} {e e' : Event} {l : Option (Nat × Event)}

theorem Passes.snoc (passes : Passes backend flow S i e before after S')
    (step : Step backend flow S' l S'') : Passes backend flow S i e before after S'' :=
  ⟨passes.earlier, passes.step, .snoc passes.later step⟩

/-- Each event in the history of a call was seen in some step. -/
theorem Steps.passes (steps : Steps backend flow S S') (mem : e ∈ S'.seen i) (unseen : e ∉ S.seen i) :
    ∃ before after, Passes backend flow S i e before after S' := by
  induction steps with
  | refl => exact absurd mem unseen
  | snoc steps step ih =>
      rcases step.mem_seen mem with mem | rfl
      · obtain ⟨before, after, passes⟩ := ih mem
        exact ⟨before, after, passes.snoc step⟩
      · exact ⟨_, _, steps, step, .refl _⟩

/-- Of what two calls have come to see one saw its event first. -/
theorem Steps.passes_both (steps : Steps backend flow S S') (other : i ≠ j) (mem : e ∈ S'.seen i)
    (mem' : e' ∈ S'.seen j) (unseen : e ∉ S.seen i) (unseen' : e' ∉ S.seen j) :
    ∃ before after before' after',
      Passes backend flow S i e before after S' ∧ Passes backend flow after j e' before' after' S' ∨
      Passes backend flow S j e' before' after' S' ∧ Passes backend flow after' i e before after S' := by
  induction steps with
  | refl => exact absurd mem unseen
  | snoc steps step ih =>
      rcases step.mem_seen mem with early | rfl
      · rcases step.mem_seen mem' with early' | rfl
        · obtain ⟨before, after, before', after', ⟨passes, passes'⟩ | ⟨passes', passes⟩⟩ := ih early early'
          · exact ⟨before, after, before', after', .inl ⟨passes.snoc step, passes'.snoc step⟩⟩
          · exact ⟨before, after, before', after', .inr ⟨passes'.snoc step, passes.snoc step⟩⟩
        · obtain ⟨before, after, passes⟩ := steps.passes early unseen
          exact ⟨before, after, _, _, .inl ⟨passes.snoc step, passes.later, step, .refl _⟩⟩
      · rcases step.mem_seen mem' with early' | same
        · obtain ⟨before', after', passes'⟩ := steps.passes early' unseen'
          exact ⟨_, _, before', after', .inr ⟨passes'.snoc step, passes'.later, step, .refl _⟩⟩
        · exact absurd (congrArg Prod.fst (Option.some.inj same)) other

/-- The step in which a cache call is answered leaves what the cache leaves, if the caller waits for no other
cache call then. -/
theorem Step.answered {R : Rule} {Q : History → Except Fault α → Prop} {k : κ} {time : Instant} {r : Cache.Request}
    {ds : List Nat} {a : r.Answer} (step : Step backend flow S (some (i, .ended time (.cache r) ds (.ok a))) S')
    (tracked : Tracked backend flow S) (here : S.call? i = some k) (meets : (flow k).Meets R Q [])
    (last : ∀ h time' r' ds' x', ¬ R.event (h ++ [.ended time (.cache r) ds (.ok a)])
      (.ended time' (.cache r') ds' x')) :
    ∃ started before delay finish c, (backend.start r started before).2 = .acts delay finish ∧
      finish S.world.now S.world.cache = .ok (a, c) ∧ time = S.world.now ∧
      S'.world = { S.world with cache := c } := by
  cases step with
  | @settle _ strand _ started next _ w found waits settles =>
      rw [call?_of_strand found] at here
      cases here
      obtain ⟨w₀, ds, rfl⟩ := (tracked.left found waits).2
      obtain ⟨tick, finish, c, due, _, finished, rfl⟩ := Waiting.settle?_ok settles
      obtain ⟨delay, acts⟩ := Waiting.acts_of_due due
      refine ⟨_, _, delay, finish, c, acts, finished, rfl, ?_⟩
      have sees := (tracked.left found waits).1.snoc (.await S.world.now (.ok a))
      have rest := meets.sees sees
      change (take backend (next (.ok a)) _).2 = _
      cases left : next (.ok a) with
      | done x => rfl
      | fault e => rfl
      | ask q next' => rfl
      | await wait' ds' next' =>
          cases wait' with
          | sleep s => rfl
          | never => rfl
          | cache r' =>
              rw [left] at rest
              exact absurd (rest .start (.error (.deadline 0))).1 (last _ _ _ _ _)

end Scene

end TokenAuthority
