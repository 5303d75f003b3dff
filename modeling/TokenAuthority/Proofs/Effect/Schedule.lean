import TokenAuthority.Proofs.Effect.Recorded

/-!
# Schedules

Calls side by side over one world, in every order of their steps. A call may enter at any time, whatever
can go on may go on next or be left waiting, callers may go, and time may pass between any two steps.

* `Scene`, `Scene.Step`, `Scene.Steps` — calls under way, one step of them, and any number of steps.
* `Scene.Tracked` — of each call the flow is left that its history leads to. `Steps.tracked` carries this
  along.
* `Step.seen` — one step adds one event to one history, or none.
* `Step.allowed` — that event is one that the rule of the call allows.
* `Step.effect` — what the step does to the world, given by the event alone.
-/

namespace TokenAuthority

/-- A call under way: which one, what it has seen, and how far it has come, or the fault in which it ended. -/
structure Strand (σ κ α : Type) where
  call : κ
  seen : History
  place : Except Fault (Pool.Member σ α)

/-- How a call has ended, if it has. -/
def Strand.outcome? {σ κ α : Type} (strand : Strand σ κ α) : Option (Except Fault α) :=
  match strand.place with
  | .ok (.ended a) => some (.ok a)
  | .error e => some (.error e)
  | .ok _ => none

/-- Calls under way over one world, in the order in which they entered. -/
structure Scene (σ κ α : Type) where
  world : World σ
  strands : List (Strand σ κ α)

namespace Scene

variable {σ κ α : Type} (backend : Cache.Backend σ) (flow : κ → Flow α)

/-- How far a flow has come once its front has begun. -/
def take (f : Flow α) (w : World σ) : Except Fault (Pool.Member σ α) × World σ :=
  match Pool.Member.enter backend f w with
  | .ok (m, w') => (.ok m, w')
  | .error e => (.error e, w)

/-- The scene after a call has seen an event, with what is left of the call. -/
def move (S : Scene σ κ α) (i : Nat) (strand : Strand σ κ α) (e : Event) (f : Flow α) (w : World σ) :
    Scene σ κ α where
  world := (take backend f w).2
  strands := S.strands.set i ⟨strand.call, strand.seen ++ [e], (take backend f w).1⟩

/-- One step, with the event that it adds to a history, if it adds one. -/
inductive Step : Scene σ κ α → Option (Nat × Event) → Scene σ κ α → Prop where
  /-- A call enters. -/
  | enter (S : Scene σ κ α) (k : κ) :
      Step S none
        ⟨(take backend (flow k) S.world).2,
          S.strands ++ [⟨k, [], (take backend (flow k) S.world).1⟩]⟩
  /-- A question is answered. -/
  | ask {S : Scene σ κ α} {i : Nat} {strand : Strand σ κ α} {q : Query} {next : q.Answer → Flow α} :
      S.strands[i]? = some strand → strand.place = .ok (.asking q next) →
      Step S (some (i, .answered S.world.now q (S.world.answer q).1))
        (S.move backend i strand (.answered S.world.now q (S.world.answer q).1)
          (next (S.world.answer q).1) (S.world.answer q).2)
  /-- A wait is over. -/
  | settle {S : Scene σ κ α} {i : Nat} {strand : Strand σ κ α} {wait : Wait}
      {started : Waiting σ wait} {next : Except Interruption wait.Answer → Flow α}
      {x : Except Interruption wait.Answer}
      {w : World σ} :
      S.strands[i]? = some strand → strand.place = .ok (.waiting wait started next) →
      started.settle? S.world = some (x, w) →
      Step S (some (i, .ended S.world.now wait started.deadlines x))
        (S.move backend i strand (.ended S.world.now wait started.deadlines x) (next x) w)
  /-- The caller of a waiting call goes. -/
  | leave {S : Scene σ κ α} {i : Nat} {strand : Strand σ κ α} {wait : Wait}
      {started : Waiting σ wait} {next : Except Interruption wait.Answer → Flow α} :
      S.strands[i]? = some strand → strand.place = .ok (.waiting wait started next) →
      Step S (some (i, .ended S.world.now wait started.deadlines
          (.error (.deadline started.deadlines.length))))
        (S.move backend i strand
          (.ended S.world.now wait started.deadlines (.error (.deadline started.deadlines.length)))
          (next (.error (.deadline started.deadlines.length))) S.world)
  /-- Time passes. -/
  | pass (S : Scene σ κ α) (s : Span) : Step S none ⟨S.world.advance s, S.strands⟩

/-- Any number of steps. -/
inductive Steps : Scene σ κ α → Scene σ κ α → Prop where
  | refl (S : Scene σ κ α) : Steps S S
  | snoc {S S' S'' : Scene σ κ α} {l : Option (Nat × Event)} :
      Steps S S' → Step backend flow S' l S'' → Steps S S''

variable {backend flow}

theorem Steps.trans {S S' S'' : Scene σ κ α} (first : Steps backend flow S S')
    (second : Steps backend flow S' S'') : Steps backend flow S S'' := by
  induction second with
  | refl => exact first
  | snoc _ step ih => exact .snoc ih step

/-! ### Histories -/

def seen (S : Scene σ κ α) (i : Nat) : History := (S.strands[i]?.map Strand.seen).getD []

def call? (S : Scene σ κ α) (i : Nat) : Option κ := S.strands[i]?.map Strand.call

theorem seen_of_strand {S : Scene σ κ α} {i : Nat} {strand : Strand σ κ α}
    (here : S.strands[i]? = some strand) : S.seen i = strand.seen := by
  simp [seen, here]

theorem call?_of_strand {S : Scene σ κ α} {i : Nat} {strand : Strand σ κ α}
    (here : S.strands[i]? = some strand) : S.call? i = some strand.call := by
  simp [call?, here]

/-- A history with the event of a step, if that is one of this call. -/
def extend (h : History) (j : Nat) : Option (Nat × Event) → History
  | none => h
  | some (i, e) => if i = j then h ++ [e] else h

/-- A move adds one event to one history. -/
theorem seen_move {S : Scene σ κ α} {i : Nat} {strand : Strand σ κ α} {e : Event} {f : Flow α}
    {w : World σ} (here : S.strands[i]? = some strand) (j : Nat) :
    (S.move backend i strand e f w).seen j = extend (S.seen j) j (some (i, e)) := by
  have inside : i < S.strands.length := (List.getElem?_eq_some_iff.mp here).1
  by_cases same : i = j
  · subst same
    rw [extend, if_pos rfl, seen_of_strand here]
    simp [seen, move, inside]
  · rw [extend, if_neg same]
    simp [seen, move, List.getElem?_set_ne same]

/-- What one step adds to what the calls have seen. -/
theorem Step.seen {S S' : Scene σ κ α} {l : Option (Nat × Event)}
    (step : Step backend flow S l S') (j : Nat) : S'.seen j = extend (S.seen j) j l := by
  cases step with
  | enter k =>
      simp only [Scene.seen, extend]
      rcases Nat.lt_trichotomy j S.strands.length with before | rfl | after
      · rw [List.getElem?_append_left before]
      · simp
      · have beyond : (S.strands ++
            [(⟨k, [], (take backend (flow k) S.world).1⟩ : Strand σ κ α)]).length ≤ j := by
          rw [List.length_append]
          exact after
        rw [List.getElem?_eq_none beyond, List.getElem?_eq_none (Nat.le_of_lt after)]
  | ask here _ => exact seen_move here j
  | settle here _ _ => exact seen_move here j
  | leave here _ => exact seen_move here j
  | pass s => rfl

/-- What a call has seen after a step it had seen before, or it is the event of the step. -/
theorem Step.mem_seen {S S' : Scene σ κ α} {l : Option (Nat × Event)} {j : Nat} {e : Event}
    (step : Step backend flow S l S') (mem : e ∈ S'.seen j) : e ∈ S.seen j ∨ l = some (j, e) := by
  rw [step.seen j] at mem
  match l with
  | none => exact .inl mem
  | some (i, e') =>
      by_cases same : i = j
      · subst same
        rw [extend, if_pos rfl] at mem
        rcases List.mem_append.mp mem with mem | here
        · exact .inl mem
        · cases List.mem_singleton.mp here
          exact .inr rfl
      · rw [extend, if_neg same] at mem
        exact .inl mem

/-- What the calls have seen is never taken back. -/
theorem Steps.seen {S S' : Scene σ κ α} (steps : Steps backend flow S S') (j : Nat) :
    ∃ tail, S'.seen j = S.seen j ++ tail := by
  induction steps with
  | refl => exact ⟨[], (List.append_nil _).symm⟩
  | @snoc S' S'' l _ step ih =>
      obtain ⟨tail, same⟩ := ih
      rw [step.seen j, same]
      match l with
      | none => exact ⟨tail, rfl⟩
      | some (i, e) =>
          by_cases here : i = j
          · exact ⟨tail ++ [e], by rw [extend, if_pos here, List.append_assoc]⟩
          · exact ⟨tail, by rw [extend, if_neg here]⟩

/-- What a call has seen it has seen after any number of steps. -/
theorem Steps.mem_seen {S S' : Scene σ κ α} {j : Nat} {e : Event} (steps : Steps backend flow S S')
    (mem : e ∈ S.seen j) : e ∈ S'.seen j := by
  obtain ⟨tail, same⟩ := steps.seen j
  rw [same]
  exact List.mem_append_left _ mem

/-- The event of a step is one of a call. -/
theorem Step.caller {S S' : Scene σ κ α} {i : Nat} {e : Event}
    (step : Step backend flow S (some (i, e)) S') : ∃ k, S.call? i = some k := by
  cases step with
  | ask here _ => exact ⟨_, call?_of_strand here⟩
  | settle here _ _ => exact ⟨_, call?_of_strand here⟩
  | leave here _ => exact ⟨_, call?_of_strand here⟩

/-- A call keeps its number. -/
theorem Step.call? {S S' : Scene σ κ α} {l : Option (Nat × Event)} {j : Nat} {k : κ}
    (step : Step backend flow S l S') (here : S.call? j = some k) : S'.call? j = some k := by
  have kept {i : Nat} {strand strand' : Strand σ κ α} (at_ : S.strands[i]? = some strand)
      (same : strand'.call = strand.call) :
      ((S.strands.set i strand')[j]?).map Strand.call = some k := by
    by_cases equal : i = j
    · subst equal
      have inside : i < S.strands.length := (List.getElem?_eq_some_iff.mp at_).1
      rw [Scene.call?, at_] at here
      simpa [inside, same] using here
    · rwa [List.getElem?_set_ne equal]
  cases step with
  | enter k' =>
      have inside : j < S.strands.length := by
        refine Nat.lt_of_not_le fun outside => ?_
        rw [Scene.call?, List.getElem?_eq_none outside] at here
        cases here
      rwa [Scene.call?, List.getElem?_append_left inside]
  | ask here _ => exact kept here rfl
  | settle here _ _ => exact kept here rfl
  | leave here _ => exact kept here rfl
  | pass s => exact here

theorem Steps.call? {S S' : Scene σ κ α} {j : Nat} {k : κ} (steps : Steps backend flow S S')
    (here : S.call? j = some k) : S'.call? j = some k := by
  induction steps with
  | refl => exact here
  | snoc _ step ih => exact step.call? ih

/-! ### Where calls stand -/

/-- A wait has begun in some world. -/
def Begun (backend : Cache.Backend σ) : Pool.Member σ α → Prop
  | .waiting wait started _ => ∃ w ds, started = (World.await w backend wait ds).2
  | _ => True

/-- This flow is left of a call at this place. -/
def Stands (backend : Cache.Backend σ) (g : Flow α) : Except Fault (Pool.Member σ α) → Prop
  | .ok m => m.flow = g ∧ Begun backend m
  | .error e => g = .fault e

theorem Stands.asking {q : Query} {next : q.Answer → Flow α} {place : Except Fault (Pool.Member σ α)}
    (stands : Stands backend (.ask q next) place) : place = .ok (.asking q next) := by
  match place with
  | .error e => cases stands
  | .ok (.asking q' next') =>
      cases stands.1
      rfl
  | .ok (.waiting _ _ _) => cases stands.1
  | .ok (.ended _) => cases stands.1

theorem Stands.ended {a : α} {place : Except Fault (Pool.Member σ α)}
    (stands : Stands backend (.done a) place) : place = .ok (.ended a) := by
  match place with
  | .error e => cases stands
  | .ok (.asking _ _) => cases stands.1
  | .ok (.waiting _ _ _) => cases stands.1
  | .ok (.ended a') =>
      cases stands.1
      rfl

/-- Of each call the flow is left to which the events that it has seen lead. -/
def Tracked (backend : Cache.Backend σ) (flow : κ → Flow α) (S : Scene σ κ α) : Prop :=
  ∀ (i : Nat) (strand : Strand σ κ α), S.strands[i]? = some strand →
    ∃ g, (flow strand.call).Sees strand.seen g ∧ Stands backend g strand.place

/-- Of a call that can go on, the flow of its member is left. -/
theorem Tracked.left {S : Scene σ κ α} {i : Nat} {strand : Strand σ κ α} {m : Pool.Member σ α}
    (tracked : Tracked backend flow S) (found : S.strands[i]? = some strand)
    (stands : strand.place = .ok m) : (flow strand.call).Sees strand.seen m.flow ∧ Begun backend m := by
  obtain ⟨g, sees, here⟩ := tracked i strand found
  rw [stands] at here
  obtain ⟨rfl, begun⟩ := here
  exact ⟨sees, begun⟩

theorem tracked_nil (w : World σ) : Tracked backend flow ⟨w, []⟩ := by
  intro i strand impossible
  cases impossible

/-- What is taken up is what is left, and its wait has begun. -/
theorem stands_take (f : Flow α) (w : World σ) : Stands backend f (take backend f w).1 := by
  unfold take
  cases entered : Pool.Member.enter backend f w with
  | error e =>
      cases f with
      | fault e' =>
          cases entered
          exact rfl
      | done a => cases entered
      | ask q next => cases entered
      | await wait ds next => cases entered
  | ok r =>
      refine ⟨Pool.flow_enter entered, ?_⟩
      cases f with
      | fault e => cases entered
      | done a =>
          cases entered
          trivial
      | ask q next =>
          cases entered
          trivial
      | await wait ds next =>
          cases entered
          exact ⟨w, ds, rfl⟩

/-- A list with one element replaced holds that and the others. -/
private theorem getElem?_set_cases {β : Type} {xs : List β} {i j : Nat} {x y : β}
    (found : (xs.set i x)[j]? = some y) : i = j ∧ y = x ∨ xs[j]? = some y := by
  by_cases same : i = j
  · subst same
    by_cases inside : i < xs.length
    · rw [List.getElem?_set_self inside] at found
      exact .inl ⟨rfl, (Option.some.inj found).symm⟩
    · rw [List.getElem?_eq_none (by simpa using inside)] at found
      cases found
  · rw [List.getElem?_set_ne same] at found
    exact .inr found

/-- A move leaves each call where what it has seen has led it. -/
theorem tracked_move {S : Scene σ κ α} {i : Nat} {strand : Strand σ κ α} {e : Event} {f g : Flow α}
    {w : World σ} (tracked : Tracked backend flow S) (sees : (flow strand.call).Sees strand.seen g)
    (step : Flow.Step g e f) : Tracked backend flow (S.move backend i strand e f w) := by
  intro j strand' found
  rcases getElem?_set_cases found with ⟨_, rfl⟩ | found
  · exact ⟨f, sees.snoc step, stands_take f w⟩
  · exact tracked j strand' found

/-- A step leaves each call where what it has seen has led it. -/
theorem Step.tracked {S S' : Scene σ κ α} {l : Option (Nat × Event)}
    (step : Step backend flow S l S') (tracked : Tracked backend flow S) :
    Tracked backend flow S' := by
  cases step with
  | enter k =>
      intro j strand found
      rcases Nat.lt_trichotomy j S.strands.length with before | rfl | after
      · rw [List.getElem?_append_left before] at found
        exact tracked j strand found
      · simp only [List.getElem?_concat_length, Option.some.injEq] at found
        subst found
        exact ⟨flow k, .nil _, stands_take _ _⟩
      · rw [List.getElem?_eq_none (by simpa using Nat.succ_le_of_lt after)] at found
        cases found
  | ask here asks => exact tracked_move tracked (tracked.left here asks).1 (.ask _ _)
  | settle here waits _ => exact tracked_move tracked (tracked.left here waits).1 (.await _ _)
  | leave here waits => exact tracked_move tracked (tracked.left here waits).1 (.await _ _)
  | pass s => exact tracked

/-- Steps leave each call where what it has seen has led it. -/
theorem Steps.tracked {S S' : Scene σ κ α} (steps : Steps backend flow S S')
    (tracked : Tracked backend flow S) : Tracked backend flow S' := by
  induction steps with
  | refl => exact tracked
  | snoc _ step ih => exact step.tracked ih

/-- The event of a step is one that the rule of its call allows. -/
theorem Step.allowed {S S' : Scene σ κ α} {i : Nat} {e : Event} {k : κ} {R : Rule}
    {Q : History → Except Fault α → Prop} (step : Step backend flow S (some (i, e)) S')
    (tracked : Tracked backend flow S) (here : S.call? i = some k) (meets : (flow k).Meets R Q []) :
    R.event (S.seen i) e := by
  have next {strand : Strand σ κ α} {m : Pool.Member σ α} {f : Flow α}
      (found : S.strands[i]? = some strand) (stands : strand.place = .ok m)
      (step : Flow.Step m.flow e f) : R.event (S.seen i) e := by
    have sees := (tracked.left found stands).1
    rw [call?_of_strand found] at here
    cases here
    rw [seen_of_strand found]
    exact meets.next sees step
  cases step with
  | ask found asks => exact next found asks (.ask _ _)
  | settle found waits _ => exact next found waits (.await _ _)
  | leave found waits => exact next found waits (.await _ _)

/-- What a call has ended with is what its history promises. -/
theorem Tracked.outcome {S : Scene σ κ α} {i : Nat} {strand : Strand σ κ α} {R : Rule}
    {Q : History → Except Fault α → Prop} {r : Except Fault α} (tracked : Tracked backend flow S)
    (found : S.strands[i]? = some strand) (ended : strand.outcome? = some r)
    (meets : (flow strand.call).Meets R Q []) : Q strand.seen r := by
  obtain ⟨g, sees, stands⟩ := tracked i strand found
  unfold Strand.outcome? at ended
  split at ended <;> rename_i place <;> rw [place] at stands <;> cases ended
  · cases stands.1
    exact meets.value sees
  · cases stands
    exact (meets.fault sees).2

/-- What a call has answered is what its history promises. -/
theorem Tracked.value {S : Scene σ κ α} {i : Nat} {strand : Strand σ κ α} {R : Rule}
    {Q : History → Except Fault α → Prop} {a : α} (tracked : Tracked backend flow S)
    (found : S.strands[i]? = some strand) (ended : strand.place = .ok (.ended a))
    (meets : (flow strand.call).Meets R Q []) : Q strand.seen (.ok a) :=
  tracked.outcome found (by rw [Strand.outcome?, ended]) meets

/-! ### What a step does to the world -/

/-- A cache call begins, or nothing does. -/
inductive Begins (backend : Cache.Backend σ) (w : World σ) : World σ → Prop where
  | nothing : Begins backend w w
  | call (r : Cache.Request) : Begins backend w { w with cache := (backend.start r w.now w.cache).1 }

/-- What the step with an event does to the world. -/
inductive Effect (backend : Cache.Backend σ) (w : World σ) : Option Event → World σ → Prop where
  | quiet {w' : World σ} : Begins backend w w' → Effect backend w none w'
  | passed (s : Span) : Effect backend w none (w.advance s)
  | asked (q : Query) {w' : World σ} :
      Begins backend (w.answer q).2 w' →
      Effect backend w (some (.answered w.now q (w.answer q).1)) w'
  | called {r : Cache.Request} (ds : List Nat) {started : Instant} {before c : σ}
      {delay : Option Span} {finish : Instant → σ → Except Fault (r.Answer × σ)} {a : r.Answer}
      {w' : World σ} :
      (backend.start r started before).2 = .acts delay finish → finish w.now w.cache = .ok (a, c) →
      Begins backend { w with cache := c } w' →
      Effect backend w (some (.ended w.now (.cache r) ds (.ok a))) w'
  | slept (s : Span) (ds : List Nat) {w' : World σ} :
      Begins backend w w' → Effect backend w (some (.ended w.now (.sleep s) ds (.ok ()))) w'
  | cut (wait : Wait) (ds : List Nat) (i : Interruption) {w' : World σ} :
      Begins backend w w' → Effect backend w (some (.ended w.now wait ds (.error i))) w'

/-- Taking up a flow begins a cache call at most. -/
theorem begins_take (f : Flow α) (w : World σ) : Begins backend w (take backend f w).2 := by
  cases f with
  | done a => exact .nothing
  | fault e => exact .nothing
  | ask q next => exact .nothing
  | await wait ds next =>
      simp only [take, Pool.Member.enter, World.await_fst]
      cases wait with
      | sleep s => exact .nothing
      | never => exact .nothing
      | cache r => exact .call r

/-- What a step does to the world is told by its event. -/
theorem Step.effect {S S' : Scene σ κ α} {l : Option (Nat × Event)}
    (step : Step backend flow S l S') (tracked : Tracked backend flow S) :
    Effect backend S.world (l.map Prod.snd) S'.world := by
  cases step with
  | enter k => exact .quiet (begins_take _ _)
  | ask _ _ => exact .asked _ (begins_take _ _)
  | @settle i strand wait started next x w here waits settles =>
      obtain ⟨w₀, ds, rfl⟩ := (tracked.left here waits).2
      cases x with
      | error j =>
          rw [Waiting.settle?_error settles]
          exact .cut wait _ j (begins_take _ _)
      | ok a =>
          obtain ⟨tick, finish, c, due, _, finished, rfl⟩ := Waiting.settle?_ok settles
          cases wait with
          | sleep s =>
              cases due
              cases finished
              exact .slept s _ (begins_take _ _)
          | never => cases due
          | cache r =>
              obtain ⟨delay, acts⟩ := Waiting.acts_of_due due
              exact .called _ acts finished (begins_take _ _)
  | leave _ _ => exact .cut _ _ _ (begins_take _ _)
  | pass s => exact .passed s

/-! ### What steps keep -/

theorem Begins.now {w w' : World σ} (begins : Begins backend w w') : w'.now = w.now := by
  cases begins <;> rfl

theorem Begins.clock {w w' : World σ} (begins : Begins backend w w') : w'.clock = w.clock := by
  cases begins <;> rfl

theorem Begins.breaker {w w' : World σ} (begins : Begins backend w w') : w'.breaker = w.breaker := by
  cases begins <;> rfl

theorem Effect.clock {w w' : World σ} {e : Option Event} (effect : Effect backend w e w') :
    w'.clock = w.clock := by
  cases effect with
  | quiet begins => exact begins.clock
  | passed s => rfl
  | asked q begins => rw [begins.clock, World.clock_answer]
  | called ds _ _ begins => exact begins.clock
  | slept s ds begins => exact begins.clock
  | cut wait ds i begins => exact begins.clock

/-- An event is seen at the time that the timer reads then, and is truthful. -/
theorem Effect.seen {w w' : World σ} {e : Event} (effect : Effect backend w (some e) w') :
    w'.now = w.now ∧ e.time = w.now ∧ e.IsTruthful w.clock := by
  cases effect with
  | asked q begins =>
      refine ⟨by rw [begins.now, World.now_answer], rfl, ?_⟩
      cases q <;> first | rfl | trivial
  | called ds _ _ begins => exact ⟨begins.now, rfl, trivial⟩
  | slept s ds begins => exact ⟨begins.now, rfl, trivial⟩
  | cut wait ds i begins => exact ⟨begins.now, rfl, trivial⟩

/-- The timer never goes back. -/
theorem Effect.now {w w' : World σ} {e : Option Event} (effect : Effect backend w e w') :
    w.now ≤ w'.now := by
  cases e with
  | some e => exact Nat.le_of_eq (congrArg _ effect.seen.1.symm)
  | none =>
      cases effect with
      | quiet begins => exact Nat.le_of_eq (congrArg _ begins.now.symm)
      | passed s => exact Nat.le_add_right _ _

theorem Steps.now {S S' : Scene σ κ α} (steps : Steps backend flow S S')
    (tracked : Tracked backend flow S) : S.world.now ≤ S'.world.now := by
  induction steps with
  | refl => exact Nat.le_refl _
  | snoc steps step ih => exact Nat.le_trans ih (step.effect (steps.tracked tracked)).now

end Scene

end TokenAuthority
