import TokenAuthority.Effect.World

/-!
# Actions side by side

A pool of flows over one world. Whatever can go on goes on first, in the order of the pool and one
flow at a time until it waits; then the timer moves to the next tick at which something happens to any
of them. Each step takes one flow to one of its branches (`Pool.Descends`), so a pool always comes to
an end (`Pool.descends_wf`): every flow has ended, or those left wait for ever.
-/

namespace TokenAuthority

/-- One flow is a branch of another. -/
inductive Flow.Branch {α : Type} : Flow α → Flow α → Prop where
  | ask {q : Query} {next : q.Answer → Flow α} (x : q.Answer) : Branch (next x) (.ask q next)
  | await {w : Wait} {ds : List Nat} {next : Except Interruption w.Answer → Flow α}
      (x : Except Interruption w.Answer) : Branch (next x) (.await w ds next)

/-- There is no endless path down the branches of a flow. -/
theorem Flow.branch_wf {α : Type} : WellFounded (Flow.Branch (α := α)) := by
  constructor
  intro f
  induction f with
  | done a => exact ⟨_, fun g h => by cases h⟩
  | fault e => exact ⟨_, fun g h => by cases h⟩
  | ask q next ih => exact ⟨_, fun g h => by cases h with | ask x => exact ih x⟩
  | await w ds next ih => exact ⟨_, fun g h => by cases h with | await x => exact ih x⟩

namespace Pool

/-- One list of flows comes from another by replacing one flow with one of its branches. -/
inductive Descends {α : Type} : List (Flow α) → List (Flow α) → Prop where
  | here {f g : Flow α} {fs : List (Flow α)} : Flow.Branch f g → Descends (f :: fs) (g :: fs)
  | there {f : Flow α} {fs gs : List (Flow α)} : Descends fs gs → Descends (f :: fs) (f :: gs)

/-- No list of flows can descend for ever. -/
theorem descends_wf {α : Type} : WellFounded (Descends (α := α)) := by
  constructor
  intro fs
  induction fs with
  | nil => exact ⟨_, fun gs h => by cases h⟩
  | cons f fs ih =>
    induction Flow.branch_wf.apply f generalizing fs with
    | intro f _ ihf =>
      induction ih with
      | intro fs hfs ihfs =>
        refine ⟨_, fun gs h => ?_⟩
        cases h with
        | here hb => exact ihf _ hb _ ⟨_, hfs⟩
        | there hd => exact ihfs _ hd

/-- How far a flow of a pool has come. -/
inductive Member (σ α : Type) where
  /-- It is about to ask. -/
  | asking (query : Query) (next : query.Answer → Flow α)
  /-- It waits. -/
  | waiting (wait : Wait) (started : Waiting σ wait) (next : Except Interruption wait.Answer → Flow α)
  /-- It has ended. -/
  | ended (value : α)

variable {σ α : Type}

/-- What is left of the flow. -/
def Member.flow : Member σ α → Flow α
  | .asking q next => .ask q next
  | .waiting w started next => .await w started.deadlines next
  | .ended a => .done a

/-- Takes a flow into the pool; a wait at its front begins. -/
def Member.enter (backend : Cache.Backend σ) : Flow α → World σ → Except Fault (Member σ α × World σ)
  | .done a, w => .ok (.ended a, w)
  | .fault f, _ => .error f
  | .ask q next, w => .ok (.asking q next, w)
  | .await wait ds next, w =>
    let r := w.await backend wait ds
    .ok (.waiting wait r.2 next, r.1)

/-- The branch that a member takes now, if it can go on. -/
def Member.advance? (w : World σ) : Member σ α → Option (Flow α × World σ)
  | .asking q next =>
    let (x, w) := w.answer q
    some (next x, w)
  | .waiting _ started next => (started.settle? w).map fun r => (next r.1, r.2)
  | .ended _ => none

/-- The first tick on which something happens to a member. -/
def Member.wakeTick? : Member σ α → Option Nat
  | .waiting _ started _ => started.wakeTick?
  | _ => none

/-- Lets the first member that can go on take one step. -/
def step? (backend : Cache.Backend σ) :
    List (Member σ α) → World σ → Option (Except Fault (List (Member σ α) × World σ))
  | [], _ => none
  | m :: ms, w =>
    match m.advance? w with
    | some (f, w) => some ((Member.enter backend f w).map fun r => (r.1 :: ms, r.2))
    | none => (step? backend ms w).map fun r => r.map fun r => (m :: r.1, r.2)

/-- Moves the timer to the next tick on which something happens to any member. -/
def wake (ms : List (Member σ α)) (w : World σ) : World σ :=
  match (ms.filterMap Member.wakeTick?).min? with
  | some tick => w.advanceTo tick
  | none => w

/-! ### Every step descends -/

/-- A wait keeps the deadlines it was started under. -/
theorem deadlines_await (w : World σ) (backend : Cache.Backend σ) (wait : Wait) (ds : List Nat) :
    (w.await backend wait ds).2.deadlines = ds := by
  unfold World.await
  split <;> rfl

/-- A flow that enters the pool is what is left of its member. -/
theorem flow_enter {backend : Cache.Backend σ} {f : Flow α} {w w' : World σ} {m : Member σ α}
    (h : Member.enter backend f w = .ok (m, w')) : m.flow = f := by
  cases f with
  | done a => cases h; rfl
  | fault e => cases h
  | ask q next => cases h; rfl
  | await wait ds next =>
    cases h
    simp only [Member.flow, deadlines_await]

/-- A member goes on to a branch of its flow. -/
theorem branch_advance {m : Member σ α} {w w' : World σ} {f : Flow α}
    (h : m.advance? w = some (f, w')) : Flow.Branch f m.flow := by
  cases m with
  | asking q next =>
    cases h
    exact .ask _
  | waiting wait started next =>
    simp only [Member.advance?, Option.map_eq_some_iff] at h
    obtain ⟨r, _, hr⟩ := h
    cases hr
    exact .await _
  | ended a => cases h

/-- A step replaces one flow with one of its branches. -/
theorem descends_step {backend : Cache.Backend σ} {ms : List (Member σ α)} {w : World σ}
    {r : List (Member σ α) × World σ} (h : step? backend ms w = some (.ok r)) :
    Descends (r.1.map Member.flow) (ms.map Member.flow) := by
  induction ms generalizing r with
  | nil => cases h
  | cons m ms ih =>
    unfold step? at h
    split at h
    · rename_i f w' hm
      simp only [Option.some.injEq] at h
      cases he : Member.enter backend f w' with
      | error e => rw [he] at h; cases h
      | ok x =>
        rw [he] at h
        cases h
        simp only [List.map_cons, flow_enter he]
        exact .here (branch_advance hm)
    · simp only [Option.map_eq_some_iff] at h
      obtain ⟨x, hx, hr⟩ := h
      cases x with
      | error e => cases hr
      | ok x => cases hr; exact .there (ih hx)

/-- Takes steps until no member can go on. Where `mayWait`, the timer then moves on, until every flow
has ended or waits for ever. -/
def run (backend : Cache.Backend σ) (mayWait : Bool) (ms : List (Member σ α)) (w : World σ) :
    Except Fault (List (Member σ α) × World σ) :=
  match _h : step? backend ms w with
  | some (.ok r) => run backend mayWait r.1 r.2
  | some (.error f) => .error f
  | none =>
    if mayWait then
      match _h' : step? backend ms (wake ms w) with
      | some (.ok r) => run backend mayWait r.1 r.2
      | some (.error f) => .error f
      | none => .ok (ms, w)
    else .ok (ms, w)
termination_by descends_wf.wrap (ms.map Member.flow)
decreasing_by
  · exact descends_step _h
  · exact descends_step _h'

/-- Takes flows into the pool one after the other; each goes on until it waits before the next one
starts. -/
def startAll (backend : Cache.Backend σ) :
    (started : List (Member σ α)) → List (Flow α) → World σ →
      Except Fault (List (Member σ α) × World σ)
  | ms, [], w => .ok (ms, w)
  | ms, f :: fs, w => do
    let (m, w) ← Member.enter backend f w
    let (ms, w) ← run backend false (ms ++ [m]) w
    startAll backend ms fs w

/-- The value of a flow that has ended. -/
def Member.value? : Member σ α → Option α
  | .ended a => some a
  | _ => none

end Pool

/-- Answers actions side by side, started in their order. The values are in the same order; an action
that waits for ever has none. -/
def Action.runAll {σ α : Type} (backend : Cache.Backend σ) (actions : List (Action α))
    (w : World σ) : Except Fault (List (Option α) × World σ) := do
  let (ms, w) ← Pool.startAll backend [] (actions.map Action.start) w
  let (ms, w) ← Pool.run backend true ms w
  return (ms.map fun m => m.value?.join, w)

end TokenAuthority
