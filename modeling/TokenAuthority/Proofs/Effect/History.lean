import TokenAuthority.Effect.Flow

/-!
# Histories

A history is what one call sees on its way: the answers to its questions and how its waits ended. Who
answers, in which order with other calls and how late, does not matter to a flow, so a statement about
every history of a flow holds under every cache, breaker and scheduler.

* `Flow.Sees` — the flow that is left once a history has been seen.
* `Rule` — which events are allowed after a history, and which faults may come up there.
* `Flow.Meets R Q` — along every history the rule `R` is kept, and a value or a fault at the end satisfies
  `Q`. `Flow.Meets.next`, `Flow.Meets.fault` and `Flow.Meets.value` read this off at any point.
* `Action.Ensures` — the same for an action, whatever follows it, with rules for each way in which
  actions are put together.
-/

namespace TokenAuthority

/-- What a call sees: the answer to a question, or how a wait under deadlines ended. -/
inductive Event where
  | answered (time : Instant) (query : Query) (answer : query.Answer)
  | ended (time : Instant) (wait : Wait) (deadlines : List Nat) (outcome : Except Interruption wait.Answer)

/-- When the event was seen. -/
def Event.time : Event → Instant
  | .answered time _ _ => time
  | .ended time _ _ _ => time

/-- The event is the answer to a question, and no wait. -/
def Event.IsAnswer : Event → Prop
  | .answered _ _ _ => True
  | .ended _ _ _ _ => False

/-- The events that a call has seen, the first one first. -/
abbrev History := List Event

/-- What is allowed to happen to a call that has seen a history. -/
structure Rule where
  /-- Whether it may see an event next. -/
  event : History → Event → Prop
  /-- Whether a fault of its own may come up. -/
  fault : History → Fault → Prop

namespace Rule

/-- The rule that allows everything. -/
def free : Rule := ⟨fun _ _ => True, fun _ _ => True⟩

/-- A fault has come up in a history: where the rule allowed it, or where a wait ended in it. Since then only
questions have been asked. -/
inductive Raised (R : Rule) : History → Fault → Prop where
  | allowed {h tail : History} {f : Fault} :
      R.fault h f → (∀ e ∈ tail, e.IsAnswer) → Raised R (h ++ tail) f
  | ended {h tail : History} {f : Fault} (time : Instant) (w : Wait) (ds : List Nat) :
      (∀ e ∈ tail, e.IsAnswer) → Raised R (h ++ .ended time w ds (.error (.fault f)) :: tail) f

variable {R : Rule} {h : History} {f : Fault}

theorem raised_free : free.Raised h f := by
  have raised : free.Raised (h ++ []) f := .allowed trivial fun e none => (List.not_mem_nil none).elim
  rwa [List.append_nil] at raised

/-- Questions may be asked after a fault. -/
theorem Raised.later (raised : R.Raised h f) {tail : History} (asked : ∀ e ∈ tail, e.IsAnswer) :
    R.Raised (h ++ tail) f := by
  cases raised with
  | allowed allowed answers =>
      rw [List.append_assoc]
      exact .allowed allowed (List.forall_mem_append.mpr ⟨answers, asked⟩)
  | ended time w ds answers =>
      rw [List.append_assoc, List.cons_append]
      exact .ended time w ds (List.forall_mem_append.mpr ⟨answers, asked⟩)

/-- A fault that an outcome names has come up in the history. -/
def Traced {α : Type} (R : Rule) (h : History) (r : Except Interruption α) : Prop :=
  ∀ f, r = .error (.fault f) → R.Raised h f

theorem traced_ok {α : Type} {a : α} : R.Traced h (.ok a) :=
  fun f impossible => by cases impossible

theorem traced_deadline {α : Type} {i : Nat} : R.Traced h (.error (.deadline i) : Except Interruption α) :=
  fun f impossible => by cases impossible

theorem traced_fault {α : Type} (raised : R.Raised h f) :
    R.Traced h (.error (.fault f) : Except Interruption α) :=
  fun f' same => by cases same; exact raised

/-- It is the interruption alone that names a fault. -/
theorem Traced.error {α β : Type} {i : Interruption}
    (traced : R.Traced h (.error i : Except Interruption α)) :
    R.Traced h (.error i : Except Interruption β) :=
  fun f same => traced f (by cases same; rfl)

end Rule

namespace Flow

variable {α : Type}

/-- The step that a flow takes when it sees an event. -/
inductive Step : Flow α → Event → Flow α → Prop where
  | ask {q : Query} {next : q.Answer → Flow α} (time : Instant) (x : q.Answer) :
      Step (.ask q next) (.answered time q x) (next x)
  | await {w : Wait} {ds : List Nat} {next : Except Interruption w.Answer → Flow α} (time : Instant)
      (x : Except Interruption w.Answer) : Step (.await w ds next) (.ended time w ds x) (next x)

/-- `f.Sees h g`: once `f` has seen `h`, `g` is left of it. -/
inductive Sees : Flow α → History → Flow α → Prop where
  | nil (f : Flow α) : Sees f [] f
  | cons {f g g' : Flow α} {e : Event} {h : History} : Step f e g → Sees g h g' → Sees f (e :: h) g'

theorem Sees.snoc {f g g' : Flow α} {h : History} {e : Event} (seen : f.Sees h g)
    (step : Step g e g') : f.Sees (h ++ [e]) g' := by
  induction seen with
  | nil => exact .cons step (.nil _)
  | cons first _ ih => exact .cons first (ih step)

/-- `f.Meets R Q h`: however a flow goes on that has seen `h`, it keeps to the rule, and a value or a fault at
the end satisfies `Q` of all events before it. -/
def Meets (R : Rule) (Q : History → Except Fault α → Prop) : Flow α → History → Prop
  | .done a, h => Q h (.ok a)
  | .fault e, h => R.Raised h e ∧ Q h (.error e)
  | .ask q next, h => ∀ (time : Instant) (x : q.Answer),
      R.event h (.answered time q x) ∧ (next x).Meets R Q (h ++ [.answered time q x])
  | .await w ds next, h => ∀ (time : Instant) (x : Except Interruption w.Answer),
      R.event h (.ended time w ds x) ∧ (next x).Meets R Q (h ++ [.ended time w ds x])

variable {R : Rule} {Q : History → Except Fault α → Prop} {f g : Flow α} {h h' : History} {e : Event}

/-- One step keeps the promise, and its event is one of those promised. -/
theorem Meets.step (meets : f.Meets R Q h) (step : Step f e g) :
    R.event h e ∧ g.Meets R Q (h ++ [e]) := by
  cases step with
  | ask time x => exact meets time x
  | await time x => exact meets time x

/-- The promise holds of what is left. -/
theorem Meets.sees (meets : f.Meets R Q h) (seen : f.Sees h' g) : g.Meets R Q (h ++ h') := by
  induction seen generalizing h with
  | nil => simpa using meets
  | cons step _ ih => simpa using ih (meets.step step).2

/-- The next event of a flow that has come as far as `h`. -/
theorem Meets.next {g' : Flow α} (meets : f.Meets R Q []) (seen : f.Sees h g)
    (step : Step g e g') : R.event h e :=
  ((meets.sees seen).step step).1

/-- The fault of a flow that has ended in one. -/
theorem Meets.fault {e : Fault} (meets : f.Meets R Q []) (seen : f.Sees h (.fault e)) :
    R.Raised h e ∧ Q h (.error e) :=
  meets.sees seen

/-- The value of a flow that has ended. -/
theorem Meets.value {a : α} (meets : f.Meets R Q []) (seen : f.Sees h (.done a)) : Q h (.ok a) :=
  meets.sees seen

/-- Every event of a history is one of those promised, given the events before it. -/
theorem Meets.event {before after : History} (meets : f.Meets R Q [])
    (seen : f.Sees (before ++ e :: after) g) : R.event before e := by
  suffices general : ∀ (h : History) (f : Flow α), f.Meets R Q h →
      f.Sees (before ++ e :: after) g → R.event (h ++ before) e by
    simpa using general [] f meets seen
  clear event meets seen
  induction before with
  | nil =>
      intro h f meets seen
      cases seen with
      | cons step _ => simpa using (meets.step step).1
  | cons first before ih =>
      intro h f meets seen
      cases seen with
      | cons step rest => simpa using ih _ _ (meets.step step).2 rest

/-- What is seen of questions that are asked one after the other. -/
inductive Asked : List Query → History → Prop where
  | nil : Asked [] []
  | cons {q : Query} {queries : List Query} {tail : History} (time : Instant) (x : q.Answer) :
      Asked queries tail → Asked (q :: queries) (.answered time q x :: tail)

/-- Nothing else is seen of them. -/
theorem Asked.isAnswer {queries : List Query} {tail : History} (asked : Asked queries tail) :
    ∀ e ∈ tail, e.IsAnswer := by
  induction asked with
  | nil => exact fun e none => (List.not_mem_nil none).elim
  | cons time x _ ih => exact List.forall_mem_cons.mpr ⟨trivial, ih⟩

theorem Meets.askAll {queries : List Query} {rest : Flow α}
    (each : ∀ (tail : History) (time : Instant) (q : Query) (x : q.Answer), q ∈ queries →
      R.event (h ++ tail) (.answered time q x))
    (met : ∀ tail : History, Asked queries tail → rest.Meets R Q (h ++ tail)) :
    (Flow.askAll queries rest).Meets R Q h := by
  induction queries generalizing h with
  | nil => simpa [Flow.askAll] using met [] .nil
  | cons q queries ih =>
      intro time x
      refine ⟨by simpa using each [] time q x (by simp), ih ?_ ?_⟩
      · intro tail t q' x' mem
        simpa using each (.answered time q x :: tail) t q' x' (by simp [mem])
      · intro tail asked
        simpa using met (.answered time q x :: tail) (.cons time x asked)

end Flow

/-! ### Actions -/

namespace Action

variable {α β : Type}

/-- What is done after a bound action is done in its place. -/
theorem flow_bind {γ : Type} (a : Action α) (f : α → Action β) (ds : List Nat)
    (k : Except Interruption β → Flow γ) :
    (a >>= f).flow ds k = a.flow ds fun
      | .ok x => (f x).flow ds k
      | .error i => k (.error i) := by
  change (a.bind f).flow ds k = _
  induction a generalizing ds with
  | done a => rfl
  | fault e => rfl
  | ask q next ih => simp only [Action.bind, Action.flow, ih]
  | await w next ih => simp only [Action.bind, Action.flow, ih]
  | within limit body next _ ih => simp only [Action.bind, Action.flow, ih]
  | guarded abandoned body next _ ih => simp only [Action.bind, Action.flow, ih]

/-- `a.Ensures R ds h post`: under the deadlines `ds` and after `h`, whatever is done with the outcome,
`a` keeps to the rule; and when `a` is over, what it has seen and its value, or what has interrupted it,
satisfy `post`. -/
structure Ensures (R : Rule) (a : Action α) (ds : List Nat) (h : History)
    (post : History → Except Interruption α → Prop) : Prop where
  meets : ∀ {γ : Type} (Q : History → Except Fault γ → Prop) (k : Except Interruption α → Flow γ),
    (∀ tail r, post tail r → R.Traced (h ++ tail) r → (k r).Meets R Q (h ++ tail)) →
      (a.flow ds k).Meets R Q h

namespace Ensures

variable {R : Rule} {ds : List Nat} {h : History} {a : Action α}
  {post post' : History → Except Interruption α → Prop}

theorem mono (ensures : a.Ensures R ds h post) (weaker : ∀ tail r, post tail r → post' tail r) :
    a.Ensures R ds h post' :=
  ⟨fun Q k met => ensures.meets Q k fun tail r hr => met tail r (weaker tail r hr)⟩

theorem done {a : α} (holds : post [] (.ok a)) : (Action.done a).Ensures R ds h post := by
  refine ⟨fun Q k met => ?_⟩
  simpa [Action.flow] using met [] _ holds Rule.traced_ok

theorem fault {e : Fault} (allowed : R.fault h e) (holds : post [] (.error (.fault e))) :
    (Action.fault e : Action α).Ensures R ds h post := by
  refine ⟨fun Q k met => ?_⟩
  have raised : R.Raised (h ++ []) e := .allowed allowed fun e none => (List.not_mem_nil none).elim
  simpa [Action.flow] using met [] _ holds (Rule.traced_fault raised)

theorem query {q : Query} {post : History → Except Interruption q.Answer → Prop}
    (seen : ∀ time x, R.event h (.answered time q x))
    (holds : ∀ time x, post [.answered time q x] (.ok x)) :
    (Action.query q).Ensures R ds h post := by
  refine ⟨fun Q k met => ?_⟩
  simp only [Action.query, Action.flow]
  exact fun time x => ⟨seen time x, met _ _ (holds time x) Rule.traced_ok⟩

theorem wait {w : Wait} {post : History → Except Interruption w.Answer → Prop}
    (seen : ∀ time x, R.event h (.ended time w ds x))
    (holds : ∀ time x, post [.ended time w ds x] x) :
    (Action.wait w).Ensures R ds h post := by
  refine ⟨fun Q k met => ?_⟩
  simp only [Action.wait, Action.flow]
  intro time x
  refine ⟨seen time x, ?_⟩
  rcases x with i | x
  · refine met _ _ (holds time (.error i)) fun f same => ?_
    cases same
    exact .ended time w ds fun e none => (List.not_mem_nil none).elim
  · exact met _ _ (holds time (.ok x)) Rule.traced_ok

theorem bind {a : Action β} {f : β → Action α} (mid : History → Except Interruption β → Prop)
    (first : a.Ensures R ds h mid)
    (rest : ∀ tail x, mid tail (.ok x) →
      (f x).Ensures R ds (h ++ tail) fun tail' r => post (tail ++ tail') r)
    (cut : ∀ tail i, mid tail (.error i) → post tail (.error i)) :
    (a >>= f).Ensures R ds h post := by
  refine ⟨fun Q k met => ?_⟩
  rw [flow_bind]
  refine first.meets Q _ fun tail r hr traced => ?_
  cases r with
  | ok x =>
      refine (rest tail x hr).meets Q k fun tail' r' hr' traced' => ?_
      rw [List.append_assoc] at traced' ⊢
      exact met _ _ hr' traced'
  | error i => exact met tail _ (cut tail i hr) traced.error

/-- An action under a deadline of its own, which is the innermost one. -/
theorem timeout {limit : Span} {body : Action β}
    {post : History → Except Interruption (Option β) → Prop}
    (seen : ∀ time t, R.event h (.answered time .timer t))
    (inner : ∀ time t, body.Ensures R (Instant.deadlineTick t limit :: ds)
      (h ++ [.answered time .timer t]) fun tail r =>
        post (.answered time .timer t :: tail) (match r with
          | .ok b => .ok (some b)
          | .error (.deadline 0) => .ok none
          | .error (.deadline (i + 1)) => .error (.deadline i)
          | .error (.fault f) => .error (.fault f))) :
    (Action.timeout limit body).Ensures R ds h post := by
  refine ⟨fun Q k met => ?_⟩
  simp only [Action.timeout, Action.flow]
  intro time t
  refine ⟨seen time t, (inner time t).meets Q _ fun tail r hr traced => ?_⟩
  rw [List.append_assoc] at traced ⊢
  rcases r with ((_ | i) | f) | b
  · exact met _ _ hr Rule.traced_ok
  · exact met _ _ hr Rule.traced_deadline
  · exact met _ _ hr traced.error
  · exact met _ _ hr Rule.traced_ok

/-- An action with questions that are asked when it is interrupted. -/
theorem reporting {abandoned : List Query} {mid : History → Except Interruption α → Prop}
    (inner : a.Ensures R ds h mid)
    (asked : ∀ tail i, mid tail (.error i) → ∀ (tail' : History) (time : Instant) (q : Query)
      (x : q.Answer), q ∈ abandoned → R.event (h ++ tail ++ tail') (.answered time q x))
    (holds : ∀ tail x, mid tail (.ok x) → post tail (.ok x))
    (cut : ∀ tail i tail', mid tail (.error i) → Flow.Asked abandoned tail' →
      post (tail ++ tail') (.error i)) :
    (Action.reporting abandoned a).Ensures R ds h post := by
  refine ⟨fun Q k met => ?_⟩
  simp only [Action.reporting, Action.flow]
  refine inner.meets Q _ fun tail r hr traced => ?_
  cases r with
  | ok x => exact met tail _ (holds tail x hr) traced
  | error i =>
      refine Flow.Meets.askAll (asked tail i hr) fun tail' all => ?_
      have later : R.Traced (h ++ tail ++ tail') (.error i : Except Interruption α) :=
        fun f same => (traced f same).later all.isAnswer
      rw [List.append_assoc] at later ⊢
      exact met _ _ (cut tail i tail' hr all) later

theorem ask {q : Query} {f : q.Answer → Action α}
    (seen : ∀ time x, R.event h (.answered time q x))
    (rest : ∀ time x, (f x).Ensures R ds (h ++ [.answered time q x])
      fun tail r => post (.answered time q x :: tail) r) :
    (Action.query q >>= f).Ensures R ds h post := by
  refine ⟨fun Q k met => ?_⟩
  change ((Action.ask q f).flow ds k).Meets R Q h
  simp only [Action.flow]
  refine fun time x => ⟨seen time x, (rest time x).meets Q k fun tail r hr traced => ?_⟩
  rw [List.append_assoc] at traced ⊢
  exact met _ _ hr traced

/-- A value that may be missing, and what is done with it. -/
theorem orFault {β : Type} {f : Fault} {x? : Option β} {g : β → Action α}
    (missing : x? = none → R.fault h f ∧ post [] (.error (.fault f)))
    (rest : ∀ x, x? = some x → (g x).Ensures R ds h post) :
    (Action.orFault f x? >>= g).Ensures R ds h post := by
  cases x? with
  | none => exact fault (missing rfl).1 (missing rfl).2
  | some x => exact rest x rfl

/-- What is known of a call that is just this action, and of its end: without a value its caller has gone. -/
def Over (post : History → Except Interruption α → Prop) (h : History) :
    Except Fault (Option α) → Prop
  | .ok (some x) => post h (.ok x)
  | .ok none => ∃ i, post h (.error (.deadline i))
  | .error f => post h (.error (.fault f))

/-- What an action ensures holds of every history of a call that is just this action. -/
theorem start (ensures : a.Ensures R [] [] post) : a.start.Meets R (Over post) [] := by
  refine ensures.meets _ _ fun tail r hr traced => ?_
  rcases r with (i | f) | x
  · exact ⟨i, hr⟩
  · exact ⟨traced f rfl, hr⟩
  · exact hr

end Ensures

end Action

end TokenAuthority
