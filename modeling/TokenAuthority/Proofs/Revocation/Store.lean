import TokenAuthority.Proofs.Resilience.Retry
import TokenAuthority.Revocation.Store

/-!
# What the revocation store sees

A call of the store is granted by the breaker or not, makes its cache call until it is answered or given
up, and reports to the breaker.

* `Cache.Attempted`, `Store.Called`, `Store.Guarded` — all histories of one attempt, of the attempts
  together and of a call of the store, with the outcome that goes with each.
* `Store.Guarded.concludes` — a call that is answered was granted and sees that answer last.
* `Store.Guarded.unanswered` — a call that is not answered has seen no answer at all.
* `Store.ensures_guarded` — a call of the store sees one of these histories and nothing else.
-/

namespace TokenAuthority

/-- The event is the end of a cache call. -/
def Event.Ends (request : Cache.Request) (e : Event) : Prop :=
  ∃ time ds x, e = .ended time (.cache request) ds x

/-- The event is an answer to a cache call, and no error. -/
def Event.Answers (request : Cache.Request) (e : Event) : Prop :=
  ∃ time ds v, e = .ended time (.cache request) ds (.ok (.ok v))

/-- The event is the end of a cache call without such an answer. -/
def Event.Fails (e : Event) : Prop :=
  ∃ time request ds, ∃ x : Except Interruption (Wait.cache request).Answer,
    e = .ended time (.cache request) ds x ∧ ∀ v, x ≠ .ok (.ok v)

theorem Event.Answers.ends {request : Cache.Request} {e : Event} (answers : e.Answers request) :
    e.Ends request := by
  obtain ⟨time, ds, v, rfl⟩ := answers
  exact ⟨time, ds, _, rfl⟩

@[simp]
theorem Event.not_ends_answered {request : Cache.Request} {time : Instant} {q : Query}
    {x : q.Answer} : ¬ (Event.answered time q x).Ends request := by
  rintro ⟨time, ds, x, impossible⟩
  cases impossible

@[simp]
theorem Event.not_answers_answered {request : Cache.Request} {time : Instant} {q : Query}
    {x : q.Answer} : ¬ (Event.answered time q x).Answers request := by
  rintro ⟨time, ds, v, impossible⟩
  cases impossible

@[simp]
theorem Event.not_answers_slept {request : Cache.Request} {time : Instant} {s : Span} {ds : List Nat}
    {x : Except Interruption Unit} : ¬ (Event.ended time (.sleep s) ds x).Answers request := by
  rintro ⟨time, ds, v, impossible⟩
  cases impossible

/-- Questions of which there is nothing to be shown: all but the report of a failed call and the count
of an issued token. -/
def Query.isPlain : Query → Bool
  | .circuit .failure => false
  | .count (.issued _) => false
  | _ => true

/-- The event is one of a cache call that is made behind a breaker: a question other
than the time, a sleep, or the end of the cache call. -/
def Event.IsOf (request : Cache.Request) : Event → Prop
  | .answered _ q _ => q ≠ .clock ∧ q.isPlain = true ∨ q = .circuit .failure
  | .ended _ wait _ _ => wait = .cache request ∨ ∃ s, wait = .sleep s

/-- The event may come before the answer to a cache call: it is of that call and not the answer. -/
def Event.Leads (request : Cache.Request) (e : Event) : Prop := e.IsOf request ∧ ¬ e.Answers request

/-- The rule allows all plain questions, and the report of a failure after a cache call has failed. -/
structure Rule.Lenient (R : Rule) : Prop where
  asks : ∀ h time (q : Query) x, q.isPlain = true → R.event h (.answered time q x)
  reports : ∀ h time x, (∃ e ∈ h, e.Fails) → R.event h (.answered time (.circuit .failure) x)

theorem Rule.lenient_free : Rule.free.Lenient := ⟨fun _ _ _ _ _ => trivial, fun _ _ _ _ => trivial⟩

/-! ### One attempt -/

namespace Cache

open TokenAuthority.Action

/-- What is seen of one attempt at a cache call within a limit, and how it ends. -/
inductive Attempted (limit : Span) (request : Request) (ds : List Nat) :
    History → Except Interruption (Except Error request.Value) → Prop where
  | answered (asked time begun : Instant) (x : request.Answer) :
      Attempted limit request ds
        [.answered asked .timer begun,
          .ended time (.cache request) (begun.deadlineTick limit :: ds) (.ok x)] (.ok x)
  | late (asked time begun : Instant) :
      Attempted limit request ds
        [.answered asked .timer begun,
          .ended time (.cache request) (begun.deadlineTick limit :: ds) (.error (.deadline 0))]
        (.ok (.error (.timeout limit)))
  | cut (asked time begun : Instant) (i : Nat) :
      Attempted limit request ds
        [.answered asked .timer begun,
          .ended time (.cache request) (begun.deadlineTick limit :: ds) (.error (.deadline (i + 1)))]
        (.error (.deadline i))
  | faulty (asked time begun : Instant) (f : Fault) :
      Attempted limit request ds
        [.answered asked .timer begun,
          .ended time (.cache request) (begun.deadlineTick limit :: ds) (.error (.fault f))]
        (.error (.fault f))

variable {limit : Span} {request : Request} {ds : List Nat} {R : Rule} {h : History}

/-- An attempt reads the timer and makes its call. -/
theorem ensures_limited (asked : ∀ time t, R.event h (.answered time .timer t))
    (called : ∀ asked begun time x, R.event (h ++ [.answered asked .timer begun])
      (.ended time (.cache request) (begun.deadlineTick limit :: ds) x)) :
    (withTimeoutOr (fun e => .timeout e.limit) limit (cache request)).Ensures R ds h
      (Attempted limit request ds) := by
  let bounded : History → Except Interruption (Option request.Answer) → Prop := fun tail r =>
    Attempted limit request ds tail (match r with
      | .ok (some x) => .ok x
      | .ok none => .ok (.error (.timeout limit))
      | .error i => .error i)
  refine Ensures.bind bounded (Ensures.timeout asked fun asked begun => ?_) ?_ ?_
  · refine Ensures.wait (called asked begun) fun time x => ?_
    rcases x with ((_ | i) | f) | x
    · exact .late asked time begun
    · exact .cut asked time begun i
    · exact .faulty asked time begun f
    · exact .answered asked time begun x
  · intro tail x seen
    cases x with
    | some x => exact Ensures.done (by simpa using seen)
    | none => exact Ensures.done (by simpa using seen)
  · exact fun tail i seen => seen

/-- An attempt reads the timer, and then it sees the end of its call, which is answered exactly if the attempt
is. -/
theorem Attempted.sees {r : Except Interruption (Except Error request.Value)}
    (seen : Attempted limit request ds h r) :
    ∃ asked time begun x, h = [.answered asked .timer begun,
        .ended time (.cache request) (begun.deadlineTick limit :: ds) x] ∧
      ∀ v, x = .ok (.ok v) ↔ r = .ok (.ok v) := by
  cases seen with
  | answered asked time begun x => exact ⟨asked, time, begun, .ok x, rfl, by simp⟩
  | late asked time begun => exact ⟨asked, time, begun, .error (.deadline 0), rfl, by simp⟩
  | cut asked time begun i => exact ⟨asked, time, begun, .error (.deadline (i + 1)), rfl, by simp⟩
  | faulty asked time begun f => exact ⟨asked, time, begun, .error (.fault f), rfl, by simp⟩

/-- A failed attempt has seen no answer. -/
theorem Attempted.unanswered {r : Except Interruption (Except Error request.Value)}
    (seen : Attempted limit request ds h r) (failed : ∀ v, r ≠ .ok (.ok v)) :
    ∀ e ∈ h, ¬ e.Answers request := by
  obtain ⟨asked, time, begun, x, rfl, answered⟩ := seen.sees
  refine List.forall_mem_cons.mpr ⟨Event.not_answers_answered, List.forall_mem_singleton.mpr ?_⟩
  rintro ⟨time, ds, v, same⟩
  cases same
  exact failed v ((answered v).mp rfl)

/-- A failed attempt has seen its call fail. -/
theorem Attempted.fails {r : Except Interruption (Except Error request.Value)}
    (seen : Attempted limit request ds h r) (failed : ∀ v, r ≠ .ok (.ok v)) : ∃ e ∈ h, e.Fails := by
  obtain ⟨asked, time, begun, x, rfl, answered⟩ := seen.sees
  refine ⟨_, List.mem_cons_of_mem _ (List.mem_singleton_self _), time, request, _, x, rfl, ?_⟩
  exact fun v same => failed v ((answered v).mp same)

/-- An answered attempt has seen its answer. -/
theorem Attempted.concludes {v : request.Value} (seen : Attempted limit request ds h (.ok (.ok v))) :
    ∃ asked time begun, h = [.answered asked .timer begun,
      .ended time (.cache request) (begun.deadlineTick limit :: ds) (.ok (.ok v))] := by
  obtain ⟨asked, time, begun, x, rfl, answered⟩ := seen.sees
  cases (answered v).mpr rfl
  exact ⟨asked, time, begun, rfl⟩

/-- An attempt sees the timer and the end of its call, nothing else. -/
theorem Attempted.events {r : Except Interruption (Except Error request.Value)}
    (seen : Attempted limit request ds h r) :
    ∀ e ∈ h, (∃ time t, e = .answered time .timer t) ∨ e.Ends request := by
  obtain ⟨asked, time, begun, x, rfl, _⟩ := seen.sees
  exact List.forall_mem_cons.mpr
    ⟨.inl ⟨asked, begun, rfl⟩, List.forall_mem_singleton.mpr (.inr ⟨time, _, x, rfl⟩)⟩

theorem Attempted.isOf {r : Except Interruption (Except Error request.Value)}
    (seen : Attempted limit request ds h r) : ∀ e ∈ h, e.IsOf request := by
  intro e he
  rcases seen.events e he with ⟨time, t, rfl⟩ | ⟨time, ds, x, rfl⟩
  · exact .inl ⟨fun impossible => (by cases impossible), rfl⟩
  · exact .inl rfl

end Cache

namespace Revocation.Store

open TokenAuthority.Action

variable {s : Store} {request : Cache.Request} {ds : List Nat} {R : Rule} {h : History}

/-! ### All attempts -/

/-- What is seen of all attempts at a cache call, and how they end. -/
abbrev Called (s : Store) (request : Cache.Request) (ds : List Nat) :
    History → Except Interruption (Except (RetryError Cache.Error) request.Value) → Prop :=
  s.retry.Tries Cache.Error.isTransient ds (Cache.Attempted s.opTimeout request ds) (s.retry.attempts - 1) 1

/-- A rest between attempts sees no answer. -/
theorem unanswered_of_rests {b : Backoff} {attempt : Nat} {x : Except Interruption Unit}
    (seen : b.Rests attempt ds h x) : ∀ e ∈ h, ¬ e.Answers request := by
  cases seen <;> simp

/-- The events of a rest are of the call that is tried again. -/
theorem isOf_of_rests {b : Backoff} {attempt : Nat} {x : Except Interruption Unit}
    (seen : b.Rests attempt ds h x) : ∀ e ∈ h, e.IsOf request := by
  cases seen <;> simp [Event.IsOf, Query.isPlain]

section Tries

variable {more attempt : Nat}

/-- Attempts that are answered at last see that answer at the end, and none before it. -/
theorem concludes_of_tries {v : request.Value}
    (seen : s.retry.Tries Cache.Error.isTransient ds (Cache.Attempted s.opTimeout request ds) more attempt h
      (.ok (.ok v))) :
    ∃ before asked time begun, (∀ e ∈ before, ¬ e.Answers request) ∧
      h = before ++ [.answered asked .timer begun,
        .ended time (.cache request) (begun.deadlineTick s.opTimeout :: ds) (.ok (.ok v))] := by
  generalize outcome : (Except.ok (Except.ok v) : Except Interruption (Except (RetryError Cache.Error) _)) = r
    at seen
  induction seen with
  | succeeded answered =>
      cases outcome
      obtain ⟨asked, time, begun, rfl⟩ := answered.concludes
      exact ⟨[], asked, time, begun, by simp, rfl⟩
  | again failed _ resting _ ih =>
      obtain ⟨before, asked, time, begun, unanswered, rfl⟩ := ih outcome
      refine ⟨_ ++ (_ ++ before), asked, time, begun, ?_, by simp only [List.append_assoc]; rfl⟩
      intro e he
      rcases List.mem_append.mp he with he | he
      · exact failed.unanswered (fun v impossible => by cases impossible) e he
      · rcases List.mem_append.mp he with he | he
        · exact unanswered_of_rests resting e he
        · exact unanswered e he
  | permanent => cases outcome
  | exhausted => cases outcome
  | cut => cases outcome
  | cutResting => cases outcome

/-- Attempts that are never answered see no answer. -/
theorem unanswered_of_tries {r : Except Interruption (Except (RetryError Cache.Error) request.Value)}
    (seen : s.retry.Tries Cache.Error.isTransient ds (Cache.Attempted s.opTimeout request ds) more attempt h r)
    (failed : ∀ v, r ≠ .ok (.ok v)) : ∀ e ∈ h, ¬ e.Answers request := by
  induction seen with
  | succeeded => exact absurd rfl (failed _)
  | permanent attempted _ => exact attempted.unanswered (fun v impossible => by cases impossible)
  | exhausted attempted _ => exact attempted.unanswered (fun v impossible => by cases impossible)
  | cut attempted => exact attempted.unanswered (fun v impossible => by cases impossible)
  | cutResting attempted _ resting =>
      intro e he
      rcases List.mem_append.mp he with he | he
      · exact attempted.unanswered (fun v impossible => by cases impossible) e he
      · exact unanswered_of_rests resting e he
  | again attempted _ resting _ ih =>
      intro e he
      rcases List.mem_append.mp he with he | he
      · exact attempted.unanswered (fun v impossible => by cases impossible) e he
      · rcases List.mem_append.mp he with he | he
        · exact unanswered_of_rests resting e he
        · exact ih failed e he

/-- Attempts that are never answered see a call fail. -/
theorem fails_of_tries {r : Except Interruption (Except (RetryError Cache.Error) request.Value)}
    (seen : s.retry.Tries Cache.Error.isTransient ds (Cache.Attempted s.opTimeout request ds) more attempt h r)
    (failed : ∀ v, r ≠ .ok (.ok v)) : ∃ e ∈ h, e.Fails := by
  have first {h h' : History} {r : Except Interruption (Except Cache.Error request.Value)}
      (attempted : Cache.Attempted s.opTimeout request ds h r) (failed : ∀ v, r ≠ .ok (.ok v)) :
      ∃ e ∈ h ++ h', e.Fails := by
    obtain ⟨e, he, fails⟩ := attempted.fails failed
    exact ⟨e, List.mem_append_left _ he, fails⟩
  cases seen with
  | succeeded => exact absurd rfl (failed _)
  | permanent attempted _ => exact attempted.fails (fun v impossible => by cases impossible)
  | exhausted attempted _ => exact attempted.fails (fun v impossible => by cases impossible)
  | cut attempted => exact attempted.fails (fun v impossible => by cases impossible)
  | cutResting attempted _ _ => exact first attempted (fun v impossible => by cases impossible)
  | again attempted _ _ _ => exact first attempted (fun v impossible => by cases impossible)

end Tries

/-! ### A call of the store -/

/-- What is seen of a call of the store, and how it ends. -/
inductive Guarded (s : Store) (operation : Operation) (request : Cache.Request) (ds : List Nat) :
    History → Except Interruption (Except Error request.Value) → Prop where
  | refused (asked counted : Instant) :
      Guarded s operation request ds
        [.answered asked (.circuit .acquire) false, .answered counted (.count (.storeFailure operation.name)) ()]
        (.ok (.error .circuitOpen))
  | answered (asked told : Instant) {h : History} {v : request.Value} :
      s.Called request ds h (.ok (.ok v)) →
      Guarded s operation request ds
        (.answered asked (.circuit .acquire) true :: (h ++ [.answered told (.circuit .success) ()]))
        (.ok (.ok v))
  | failed (asked told counted : Instant) {h : History} {e : RetryError Cache.Error} :
      s.Called request ds h (.ok (.error e)) →
      Guarded s operation request ds
        (.answered asked (.circuit .acquire) true ::
          (h ++ [.answered told (.circuit .failure) (),
            .answered counted (.count (.storeFailure operation.name)) ()]))
        (.ok (.error (.unavailable e.attempts e.inner.message)))
  | abandoned (asked told counted : Instant) {h : History} {i : Interruption} :
      s.Called request ds h (.error i) →
      Guarded s operation request ds
        (.answered asked (.circuit .acquire) true ::
          (h ++ [.answered told (.circuit .failure) (),
            .answered counted (.count (.storeFailure operation.name)) ()]))
        (.error i)

/-- What a lenient rule has to allow for a call of the store to keep to it. -/
structure Allows (s : Store) (R : Rule) (request : Cache.Request) (h : History) : Prop where
  calls : ∀ tail, (∀ e ∈ tail, e.Leads request) → ∀ time d ds x,
    R.event (h ++ tail) (.ended time (.cache request) (d :: ds) x)
  sleeps : ∀ tail, (∀ e ∈ tail, e.Leads request) → ∀ time span ds x,
    R.event (h ++ tail) (.ended time (.sleep span) ds x)
  faults : ∀ tail, (∀ e ∈ tail, e.Leads request) → ∀ attempt factor,
    s.retry.delayAfter? attempt factor = none → R.fault (h ++ tail) .spanRange

theorem allows_free : s.Allows Rule.free request h :=
  ⟨fun _ _ _ _ _ _ => trivial, fun _ _ _ _ _ _ => trivial, fun _ _ _ _ _ => trivial⟩

/-- What is allowed stays allowed while there is no answer. -/
theorem Allows.later {tail : History} (allows : s.Allows R request h)
    (leads : ∀ e ∈ tail, e.Leads request) : s.Allows R request (h ++ tail) where
  calls tail' more := by
    simpa using allows.calls (tail ++ tail') (List.forall_mem_append.mpr ⟨leads, more⟩)
  sleeps tail' more := by
    simpa using allows.sleeps (tail ++ tail') (List.forall_mem_append.mpr ⟨leads, more⟩)
  faults tail' more := by
    simpa using allows.faults (tail ++ tail') (List.forall_mem_append.mpr ⟨leads, more⟩)

/-- All attempts together see a series of attempts and rests. -/
theorem ensures_called (lenient : R.Lenient) (allows : s.Allows R request h) :
    (Action.retry s.retry Cache.Error.isTransient fun _ => s.attempt request).Ensures R ds h
      (s.Called request ds) := by
  refine Action.ensures_retry (fun before => ∀ e ∈ before, e.Leads request)
    ?called ?rested ?failed ?woken (by simp)
  case called =>
    intro attempt before leads
    refine Cache.ensures_limited (fun time t => lenient.asks _ time .timer t rfl) ?_
    intro asked begun time x
    have kept := (allows.later leads).calls [.answered asked .timer begun]
      (List.forall_mem_singleton.mpr ⟨.inl ⟨(fun impossible => by cases impossible), rfl⟩, by simp⟩)
    exact kept time (begun.deadlineTick s.opTimeout) ds x
  case rested =>
    intro attempt before leads
    have kept := allows.later leads
    have drawn {tail : History} (known : ∀ e ∈ tail, ∃ time x, e = Event.answered time .factor x) :
        ∀ e ∈ tail, e.Leads request := by
      intro e he
      obtain ⟨time, x, rfl⟩ := known e he
      exact ⟨.inl ⟨(fun impossible => by cases impossible), rfl⟩, by simp⟩
    refine ensures_backOff (fun time x => lenient.asks _ time .factor x rfl) ?_ ?_
    · exact fun tail time span x known => kept.sleeps tail (drawn known) time span ds x
    · exact fun tail factor known => kept.faults tail (drawn known) attempt factor
  case failed =>
    intro before tail e leads attempted
    have none := attempted.unanswered (fun v impossible => by cases impossible)
    exact List.forall_mem_append.mpr ⟨leads, fun e he => ⟨attempted.isOf e he, none e he⟩⟩
  case woken =>
    intro before rest attempt leads resting
    exact List.forall_mem_append.mpr
      ⟨leads, fun e he => ⟨isOf_of_rests resting e he, unanswered_of_rests resting e he⟩⟩

/-- A call of the store sees one of its histories. -/
theorem ensures_guarded {operation : Operation} (lenient : R.Lenient)
    (allows : s.Allows R request h) :
    (s.guarded operation request).Ensures R ds h (s.Guarded operation request ds) := by
  unfold guarded
  refine Ensures.ask (fun time x => lenient.asks _ time _ x rfl) fun asked granted => ?_
  have kept : s.Allows R request (h ++ [.answered asked (.circuit .acquire) granted]) :=
    allows.later (List.forall_mem_singleton.mpr
      ⟨.inl ⟨(fun impossible => by cases impossible), rfl⟩, by simp⟩)
  cases granted with
  | false =>
      refine Ensures.ask (fun time x => lenient.asks _ time _ x rfl) fun counted _ => ?_
      exact Ensures.done (.refused asked counted)
  | true =>
      refine Ensures.bind (fun tail r => match r with
          | .ok x => s.Called request ds tail (.ok x)
          | .error i => s.Guarded operation request ds
              (.answered asked (.circuit .acquire) true :: tail) (.error i)) ?_ ?_ fun _ _ cut => cut
      · refine Ensures.reporting (ensures_called lenient kept) ?_ (fun tail x called => called) ?_
        · intro tail i cut tail' time q x asked
          simp only [abandoned, List.mem_cons, List.not_mem_nil, or_false] at asked
          rcases asked with rfl | rfl
          · obtain ⟨e, he, fails⟩ := fails_of_tries cut (fun v impossible => by cases impossible)
            exact lenient.reports _ time x ⟨e, by simp [he], fails⟩
          · exact lenient.asks _ time _ x rfl
        · intro tail i tail' cut reports
          obtain _ | ⟨told, _, _ | ⟨counted, _, _ | _⟩⟩ := reports
          change s.Guarded operation request ds _ (.error i)
          exact .abandoned asked told counted cut
      · intro tail outcome called
        cases outcome with
        | ok v =>
            refine Ensures.ask (fun time x => lenient.asks _ time _ x rfl) fun told _ => ?_
            exact Ensures.done (.answered asked told called)
        | error e =>
            obtain ⟨e', he, fails⟩ := fails_of_tries called (fun v impossible => by cases impossible)
            have reported := fun time x => lenient.reports
              (h ++ [.answered asked (.circuit .acquire) true] ++ tail) time x ⟨e', by simp [he], fails⟩
            refine Ensures.ask reported fun told _ => ?_
            refine Ensures.ask (fun time x => lenient.asks _ time _ x rfl) fun counted _ => ?_
            exact Ensures.done (.failed asked told counted called)

theorem isOf_of_tries {more attempt : Nat}
    {r : Except Interruption (Except (RetryError Cache.Error) request.Value)}
    (seen : s.retry.Tries Cache.Error.isTransient ds (Cache.Attempted s.opTimeout request ds) more
      attempt h r) : ∀ e ∈ h, e.IsOf request := by
  induction seen with
  | succeeded attempted => exact attempted.isOf
  | permanent attempted _ => exact attempted.isOf
  | exhausted attempted _ => exact attempted.isOf
  | cut attempted => exact attempted.isOf
  | cutResting attempted _ resting =>
      exact List.forall_mem_append.mpr ⟨attempted.isOf, isOf_of_rests resting⟩
  | again attempted _ resting _ ih =>
      exact List.forall_mem_append.mpr
        ⟨attempted.isOf, List.forall_mem_append.mpr ⟨isOf_of_rests resting, ih⟩⟩

theorem Guarded.events {operation : Operation} {r : Except Interruption (Except Error request.Value)}
    (seen : s.Guarded operation request ds h r) : ∀ e ∈ h, e.IsOf request := by
  cases seen with
  | refused => simp [Event.IsOf, Query.isPlain]
  | answered asked told called =>
      have all := isOf_of_tries called
      simpa [Event.IsOf, Query.isPlain, or_imp, forall_and] using all
  | failed asked told counted called =>
      have all := isOf_of_tries called
      simpa [Event.IsOf, Query.isPlain, or_imp, forall_and] using all
  | abandoned asked told counted called =>
      have all := isOf_of_tries called
      simpa [Event.IsOf, Query.isPlain, or_imp, forall_and] using all

/-- A call of the store that is answered has seen no other answer. -/
theorem Guarded.answers {operation : Operation} {v v' : request.Value} {time : Instant}
    {ds' : List Nat} (seen : s.Guarded operation request ds h (.ok (.ok v)))
    (answer : Event.ended time (.cache request) ds' (.ok (.ok v')) ∈ h) : v' = v := by
  cases seen with
  | answered granted told called =>
      obtain ⟨before, asked, time', begun, unanswered, rfl⟩ := concludes_of_tries called
      simp only [List.mem_cons, List.mem_append, List.not_mem_nil, or_false] at answer
      rcases answer with impossible | (early | impossible | same) | impossible
      · cases impossible
      · exact absurd ⟨time, ds', v', rfl⟩ (unanswered _ early)
      · cases impossible
      · simp only [Event.ended.injEq, heq_eq_eq, true_and, Except.ok.injEq] at same
        exact same.2.2
      · cases impossible

/-- A call of the store that is not answered has seen no answer. -/
theorem Guarded.unanswered {operation : Operation} {r : Except Interruption (Except Error request.Value)}
    (seen : s.Guarded operation request ds h r) (failed : ∀ v, r ≠ .ok (.ok v)) :
    ∀ e ∈ h, ¬ e.Answers request := by
  have reported {asked told counted : Instant} {h : History}
      {r : Except Interruption (Except (RetryError Cache.Error) request.Value)} (failed : ∀ v, r ≠ .ok (.ok v))
      (called : s.Called request ds h r) :
      ∀ e ∈ Event.answered asked (.circuit .acquire) true :: (h ++ [.answered told (.circuit .failure) (),
        .answered counted (.count (.storeFailure operation.name)) ()]), ¬ e.Answers request := by
    simpa [or_imp, forall_and] using unanswered_of_tries called failed
  cases seen with
  | refused => simp
  | answered => exact absurd rfl (failed _)
  | failed asked told counted called => exact reported (fun v impossible => by cases impossible) called
  | abandoned asked told counted called => exact reported (fun v impossible => by cases impossible) called

/-- The last cache call for `request` in a history is answered with `v`, before the deadline of the
attempt and the deadlines `ds` around it, and the breaker has granted it. -/
structure Concludes (s : Store) (request : Cache.Request) (ds : List Nat) (h : History)
    (v : request.Value) : Prop where
  granted : ∃ time, Event.answered time (.circuit .acquire) true ∈ h
  last : ∃ before asked begun time after,
    h = before ++ .answered asked .timer begun ::
      .ended time (.cache request) (begun.deadlineTick s.opTimeout :: ds) (.ok (.ok v)) :: after ∧
    ∀ e ∈ after, ¬ e.Ends request

/-- A call of the store that is answered concludes with that answer. -/
theorem Guarded.concludes {operation : Operation} {v : request.Value}
    (seen : s.Guarded operation request ds h (.ok (.ok v))) : s.Concludes request ds h v := by
  cases seen with
  | answered granted told called =>
      obtain ⟨before, asked, time, begun, _, rfl⟩ := concludes_of_tries called
      refine ⟨⟨granted, List.mem_cons_self⟩,
        _ :: before, asked, begun, time, [.answered told (.circuit .success) ()], by simp; rfl, ?_⟩
      simp

/-- What comes before does not matter to how a history concludes. -/
theorem Concludes.after {v : request.Value} (concludes : s.Concludes request ds h v)
    (before : History) : s.Concludes request ds (before ++ h) v := by
  obtain ⟨⟨time, granted⟩, before', asked, begun, time', after, rfl, last⟩ := concludes
  refine ⟨⟨time, List.mem_append_right _ granted⟩, before ++ before', asked, begun, time', after, ?_,
    last⟩
  rw [List.append_assoc]

/-- Nor does what comes later, unless it ends a cache call for the same request. -/
theorem Concludes.before {v : request.Value} (concludes : s.Concludes request ds h v)
    {after : History} (others : ∀ e ∈ after, ¬ e.Ends request) :
    s.Concludes request ds (h ++ after) v := by
  obtain ⟨⟨time, granted⟩, before, asked, begun, time', after', rfl, last⟩ := concludes
  refine ⟨⟨time, List.mem_append_left _ granted⟩, before, asked, begun, time', after' ++ after, ?_,
    List.forall_mem_append.mpr ⟨last, others⟩⟩
  simp

theorem Concludes.mem {v : request.Value} (concludes : s.Concludes request ds h v) :
    ∃ time ds', Event.ended time (.cache request) ds' (.ok (.ok v)) ∈ h := by
  obtain ⟨_, before, asked, begun, time, after, rfl, _⟩ := concludes
  exact ⟨time, _, List.mem_append_right _ (List.mem_cons_of_mem _ List.mem_cons_self)⟩

/-- A history that concludes holds an answer. -/
theorem Concludes.answers {v : request.Value} (concludes : s.Concludes request ds h v) :
    ∃ e ∈ h, e.Answers request := by
  obtain ⟨time, ds', mem⟩ := concludes.mem
  exact ⟨_, mem, time, ds', v, rfl⟩

/-- The last element with a property is the same however a list is cut there. -/
private theorem eq_of_last {α : Type} {p : α → Prop} {xs xs' ys ys' : List α} {e e' : α}
    (same : xs ++ e :: ys = xs' ++ e' :: ys') (he : p e) (he' : p e') (last : ∀ y ∈ ys, ¬ p y)
    (last' : ∀ y ∈ ys', ¬ p y) : e = e' := by
  rcases List.append_eq_append_iff.mp same with ⟨between, _, cut⟩ | ⟨between, _, cut⟩
  · cases between with
    | nil => exact (List.cons.inj cut).1
    | cons x between =>
        rw [(List.cons.inj cut).2] at last
        exact absurd he' (last e' (by simp))
  · cases between with
    | nil => exact (List.cons.inj cut).1.symm
    | cons x between =>
        rw [(List.cons.inj cut).2] at last'
        exact absurd he (last' e (by simp))

theorem Concludes.unique {ds' : List Nat} {v v' : request.Value}
    (concludes : s.Concludes request ds h v) (concludes' : s.Concludes request ds' h v') :
    v = v' := by
  obtain ⟨_, before, asked, begun, time, after, rfl, last⟩ := concludes
  obtain ⟨_, before', asked', begun', time', after', same, last'⟩ := concludes'
  rw [List.append_cons, List.append_cons before'] at same
  have ends {time : Instant} {ds : List Nat} {v : request.Value} :
      (Event.ended time (.cache request) ds (.ok (.ok v))).Ends request := ⟨time, ds, _, rfl⟩
  have equal := eq_of_last same ends ends last last'
  simp only [Event.ended.injEq, Except.ok.injEq, heq_eq_eq, true_and] at equal
  exact equal.2.2

/-! ### The operations -/

/-- What is seen of a call for a token, and how it ends. -/
inductive OnKey {α : Type} (s : Store) (operation : Operation) (tokenId : String)
    (request : String → Cache.Request) (next : (k : String) → (request k).Value → Except Error α)
    (ds : List Nat) : History → Except Interruption (Except Error α) → Prop where
  | invalid {e : Error} :
      s.key tokenId = .error e → OnKey s operation tokenId request next ds [] (.ok (.error e))
  | answered {k : String} {h : History} {v : (request k).Value} :
      s.key tokenId = .ok k → s.Guarded operation (request k) ds h (.ok (.ok v)) →
      OnKey s operation tokenId request next ds h (.ok (next k v))
  | unanswered {k : String} {h : History} {e : Error} :
      s.key tokenId = .ok k → s.Guarded operation (request k) ds h (.ok (.error e)) →
      OnKey s operation tokenId request next ds h (.ok (.error e))
  | abandoned {k : String} {h : History} {i : Interruption} :
      s.key tokenId = .ok k → s.Guarded operation (request k) ds h (.error i) →
      OnKey s operation tokenId request next ds h (.error i)

/-- A call for a token sees one of its histories. -/
theorem ensures_onKey {α : Type} {operation : Operation} {tokenId : String}
    {request : String → Cache.Request} {next : (k : String) → (request k).Value → Except Error α}
    (lenient : R.Lenient) (allows : ∀ k, s.key tokenId = .ok k → s.Allows R (request k) h) :
    (s.onKey operation tokenId request next).Ensures R ds h
      (s.OnKey operation tokenId request next ds) := by
  unfold onKey
  cases key : s.key tokenId with
  | error e => exact Ensures.done (.invalid key)
  | ok k =>
      refine Ensures.bind _ (ensures_guarded lenient (allows k key)) ?_ fun tail i cut => .abandoned key cut
      intro tail x seen
      cases x with
      | ok v => exact Ensures.done (by simpa using .answered key seen)
      | error e => exact Ensures.done (by simpa using .unanswered key seen)

theorem OnKey.events {α : Type} {operation : Operation} {tokenId : String}
    {request : String → Cache.Request} {next : (k : String) → (request k).Value → Except Error α}
    {r : Except Interruption (Except Error α)} (seen : s.OnKey operation tokenId request next ds h r) :
    ∀ e ∈ h, ∃ k, s.key tokenId = .ok k ∧ e.IsOf (request k) := by
  cases seen with
  | invalid => exact fun e none => (List.not_mem_nil none).elim
  | answered key guarded => exact fun e he => ⟨_, key, guarded.events e he⟩
  | unanswered key guarded => exact fun e he => ⟨_, key, guarded.events e he⟩
  | abandoned key guarded => exact fun e he => ⟨_, key, guarded.events e he⟩

/-- What is seen of a look-up, and how it ends. -/
abbrev LooksUp (s : Store) (tokenId : String) (ds : List Nat) :
    History → Except Interruption (Except Error Bool) → Prop :=
  s.OnKey .isRevoked tokenId .contains (fun _ found => .ok found) ds

theorem LooksUp.concludes {tokenId : String} {found : Bool}
    (seen : s.LooksUp tokenId ds h (.ok (.ok found))) :
    ∃ k, s.key tokenId = .ok k ∧ s.Concludes (.contains k) ds h found := by
  cases seen with
  | answered key guarded => exact ⟨_, key, guarded.concludes⟩

/-- A call for a token that gives no answer has seen none. -/
theorem OnKey.silent {α : Type} {operation : Operation} {tokenId k : String}
    {request : String → Cache.Request} {next : (k : String) → (request k).Value → Except Error α}
    {r : Except Interruption (Except Error α)} (seen : s.OnKey operation tokenId request next ds h r)
    (key : s.key tokenId = .ok k) (failed : ∀ v, r ≠ .ok (next k v)) :
    ∀ e ∈ h, ¬ e.Answers (request k) := by
  cases seen with
  | invalid => simp
  | answered key' guarded =>
      cases key.symm.trans key'
      exact absurd rfl (failed _)
  | unanswered key' guarded =>
      cases key.symm.trans key'
      exact guarded.unanswered (fun v impossible => by cases impossible)
  | abandoned key' guarded =>
      cases key.symm.trans key'
      exact guarded.unanswered (fun v impossible => by cases impossible)

/-- What is seen of keeping an entry, and how it ends. -/
inductive Keeps (s : Store) (e : Entry) (ds : List Nat) :
    History → Except Interruption (Except Error Bool) → Prop where
  | stored (counted : Instant) {h : History} :
      s.OnKey .revoke e.tokenId (.setIfAbsent · e.text e.ttl) (fun _ stored => .ok stored) ds h
        (.ok (.ok true)) →
      Keeps s e ds (h ++ [.answered counted (.count (.revocation e.reason.name)) ()]) (.ok (.ok true))
  | other {h : History} {r : Except Interruption (Except Error Bool)} :
      s.OnKey .revoke e.tokenId (.setIfAbsent · e.text e.ttl) (fun _ stored => .ok stored) ds h r →
      r ≠ .ok (.ok true) → Keeps s e ds h r

theorem ensures_revokeEntry {e : Entry} (lenient : R.Lenient)
    (allows : ∀ k, s.key e.tokenId = .ok k → s.Allows R (.setIfAbsent k e.text e.ttl) h) :
    (s.revokeEntry e).Ensures R ds h (s.Keeps e ds) := by
  unfold revokeEntry
  refine Ensures.bind _ (ensures_onKey lenient allows) ?_ fun tail i cut =>
    .other cut (fun impossible => by cases impossible)
  intro tail outcome seen
  match outcome with
  | .ok true =>
      refine Ensures.ask (fun time x => lenient.asks _ time _ x rfl) fun counted _ => ?_
      exact Ensures.done (.stored counted seen)
  | .ok false =>
      refine Ensures.done ?_
      simpa using Keeps.other seen (fun impossible => by cases impossible)
  | .error e =>
      refine Ensures.done ?_
      simpa using Keeps.other seen (fun impossible => by cases impossible)

/-- Keeping an entry concludes with whether it was kept. -/
theorem Keeps.concludes {e : Entry} {stored : Bool} (seen : s.Keeps e ds h (.ok (.ok stored))) :
    ∃ k, s.key e.tokenId = .ok k ∧ s.Concludes (.setIfAbsent k e.text e.ttl) ds h stored := by
  cases seen with
  | stored counted seen =>
      cases seen with
      | answered key guarded => exact ⟨_, key, guarded.concludes.before (by simp)⟩
  | other seen _ =>
      cases seen with
      | answered key guarded => exact ⟨_, key, guarded.concludes⟩

theorem Keeps.events {e : Entry} {r : Except Interruption (Except Error Bool)} (seen : s.Keeps e ds h r) :
    ∀ event ∈ h, ∃ k, s.key e.tokenId = .ok k ∧ event.IsOf (.setIfAbsent k e.text e.ttl) := by
  cases seen with
  | other seen _ => exact seen.events
  | stored counted seen =>
      cases seen with
      | answered key guarded =>
          refine List.forall_mem_append.mpr ⟨fun e he => ⟨_, key, guarded.events e he⟩, ?_⟩
          exact List.forall_mem_singleton.mpr
            ⟨_, key, .inl ⟨(fun impossible => by cases impossible), rfl⟩⟩

/-- Keeping an entry sees no other answer than the one that it gives. -/
theorem Keeps.answers {e : Entry} {stored stored' : Bool} {time : Instant} {k : String}
    {ds' : List Nat} (seen : s.Keeps e ds h (.ok (.ok stored)))
    (answer : Event.ended time (.cache (.setIfAbsent k e.text e.ttl)) ds' (.ok (.ok stored')) ∈ h) :
    stored' = stored := by
  have same {k' : String} {h : History} {stored : Bool}
      (guarded : s.Guarded .revoke (.setIfAbsent k' e.text e.ttl) ds h (.ok (.ok stored)))
      (answer : Event.ended time (.cache (.setIfAbsent k e.text e.ttl)) ds' (.ok (.ok stored')) ∈ h) :
      stored' = stored := by
    rcases guarded.events _ answer with here | ⟨span, impossible⟩
    · cases here
      exact guarded.answers answer
    · cases impossible
  cases seen with
  | stored counted seen =>
      cases seen with
      | answered key guarded =>
          rcases List.mem_append.mp answer with answer | impossible
          · exact same guarded answer
          · exact absurd (List.mem_singleton.mp impossible) (fun impossible => by cases impossible)
  | other seen _ =>
      cases seen with
      | answered key guarded => exact same guarded answer

/-- Keeping an entry sees no answer if it gives none. -/
theorem Keeps.silent {e : Entry} {k : String} {r : Except Interruption (Except Error Bool)}
    (seen : s.Keeps e ds h r) (key : s.key e.tokenId = .ok k) (failed : ∀ v, r ≠ .ok (.ok v)) :
    ∀ event ∈ h, ¬ event.Answers (.setIfAbsent k e.text e.ttl) := by
  cases seen with
  | stored => exact absurd rfl (failed true)
  | other seen _ => exact seen.silent key failed

end Revocation.Store

end TokenAuthority
