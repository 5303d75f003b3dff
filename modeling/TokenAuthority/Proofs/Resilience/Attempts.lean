import TokenAuthority.Proofs.Effect.Limit
import TokenAuthority.Proofs.Resilience.Delays

/-!
# The attempts of a retried action

A retried action makes its attempts one after the other, with a rest between each two of them and none after
the last. Which attempt is the last one depends on their outcomes and on the budget alone.

* `Backoff.lastAttempt` — the first attempt that succeeds or fails for good, or the last one of the budget.
* `Backoff.verdict` — what the outcome of the last attempt makes of the whole.
* `Backoff.Attempts` — a series of attempts over a world, with the delays between them.
* `Action.retriesFrom` — retrying makes these attempts and rests, and nothing else.
* `Action.retry_keepsBudget` — the same from the first attempt on, for attempts with given outcomes and for
  attempts under a deadline, which end with a result even if what they wait for never happens.
-/

namespace TokenAuthority

variable {σ α β ε : Type}

/-! ### Runs with their histories -/

/-- What is recorded of a wait that is over on its first tick. -/
theorem Flow.record_of_settles {backend : Cache.Backend σ} {wait : Wait} {ds : List Nat}
    {next : Except Interruption wait.Answer → Flow α} {w settled : World σ} {tick : Nat}
    {x : Except Interruption wait.Answer} (wakes : (w.await backend wait ds).2.wakeTick? = some tick)
    (settles : (w.await backend wait ds).2.settle? ((w.await backend wait ds).1.advanceTo tick) =
      some (x, settled)) :
    (Flow.await wait ds next).record backend w =
      (.ended (w.now.advanceTo tick) wait ds x :: ((next x).record backend settled).1,
        ((next x).record backend settled).2) := by
  simp only [record, wakes, settles, World.now_advanceTo, World.now_await]

namespace Action

/-- `a.Goes backend w h x w'`: run from `w`, the action `a` sees `h` and ends with the value `x` in `w'`. -/
structure Goes (backend : Cache.Backend σ) (a : Action α) (w : World σ) (h : History) (x : α)
    (w' : World σ) : Prop where
  run : a.run backend w = (.value x, w')
  history : a.history backend w = h

variable {backend : Cache.Backend σ} {w w' v : World σ} {h h' : History} {a : Action β} {f : β → Action α}
  {x : α} {y : β}

theorem goes_iff_record : a.Goes backend w h y v ↔ a.start.record backend w = (h, .value (some y), v) := by
  have recorded := Flow.record_snd backend a.start w
  constructor
  · intro goes
    obtain ⟨runs, rfl⟩ := goes
    rw [run, ← recorded] at runs
    rw [history]
    rcases recording : a.start.record backend w with ⟨h, (_ | z) | e | _, v'⟩ <;>
      rw [recording] at runs <;> cases runs
    rfl
  · intro goes
    rw [goes] at recorded
    exact ⟨by rw [run, ← recorded], by rw [history, goes]⟩

theorem goes_done : (Action.done x).Goes backend w [] x w := ⟨rfl, rfl⟩

theorem goes_query {q : Query} :
    (query q).Goes backend w [.answered w.now q (w.answer q).1] (w.answer q).1 (w.answer q).2 :=
  ⟨rfl, rfl⟩

/-- A sleep is over once its tick has been reached. -/
theorem settle?_sleep {s : Span} {tick : Nat} {ds : List Nat} (reached : tick ≤ w.now.tick) :
    (⟨some (tick, fun _ c => .ok ((), c)), ds⟩ : Waiting σ (.sleep s)).settle? w =
      some (.ok (), w) :=
  if_pos reached

/-- A sleep under no deadline lasts until its own tick. -/
theorem goes_sleep {s : Span} :
    (sleep s).Goes backend w [.ended (w.slept s).now (.sleep s) [] (.ok ())] () (w.slept s) := by
  rw [World.slept]
  have reached : w.now.deadlineTick s ≤ (w.advanceTo (w.now.deadlineTick s)).now.tick := by
    rw [World.tick_advanceTo]
    exact Nat.le_max_right _ _
  -- `rfl` would look into the tick here, and count its nanoseconds one by one.
  have wakes : (w.await backend (.sleep s) []).2.wakeTick? = some (w.now.deadlineTick s) := by
    simp only [World.await, World.begin, Waiting.wakeTick?, Option.map_some, Option.toList_some,
      List.append_nil, List.min?_singleton]
  refine goes_iff_record.mpr ?_
  simp only [start, sleep, wait, flow]
  rw [Flow.record_of_settles wakes (settle?_sleep reached)]
  simp only [Flow.record, World.now_advanceTo, World.await_fst, World.begin]

theorem Goes.bind (first : a.Goes backend w h y v) (rest : (f y).Goes backend v h' x w') :
    (a >>= f).Goes backend w (h ++ h') x w' := by
  rw [goes_iff_record] at first rest ⊢
  rw [start_bind, Flow.record_bind, first]
  change (h ++ ((f y).start.record backend v).1, ((f y).start.record backend v).2) = _
  rw [rest]

end Action

/-! ### Series of attempts -/

/-- An outcome after which another attempt is made, as long as there is one. -/
def goesOn (isTransient : ε → Bool) : Except ε α → Bool
  | .ok _ => false
  | .error e => isTransient e

namespace Backoff

/-- The last of `more + 1` attempts from number `first` on: the first one with an outcome after which no
other attempt is made, or else the last one of them all. -/
def lastFrom (isTransient : ε → Bool) (outcome : Nat → Except ε α) (more first : Nat) : Nat :=
  ((List.range' first (more + 1)).find? fun n => !goesOn isTransient (outcome n)).getD (first + more)

/-- The number of the last attempt, counted from one. -/
def lastAttempt (b : Backoff) (isTransient : ε → Bool) (outcome : Nat → Except ε α) : Nat :=
  ((List.range' 1 b.attempts).find? fun n => !goesOn isTransient (outcome n)).getD b.attempts

/-- What a retried action ends with whose last attempt has this number and outcome. -/
def verdict (isTransient : ε → Bool) (n : Nat) : Except ε α → Except (RetryError ε) α
  | .ok a => .ok a
  | .error e => .error (if isTransient e then .exhausted n e else .permanent e)

/-- The random factor of the next delay and the world in which it has been drawn. Where delays are not
spread, none is drawn. -/
def factorIn (b : Backoff) (w : World σ) : Binary64 × World σ :=
  if b.jitter then w.answer .factor else (smallestFactor, w)

/-- What is seen of a rest that begins in a world. -/
def restIn (b : Backoff) (w : World σ) (delay : Span) : History :=
  (if b.jitter then [.answered w.now .factor (b.factorIn w).1] else []) ++
    [.ended ((b.factorIn w).2.slept delay).now (.sleep delay) [] (.ok ())]

/-- All delays between attempts are spans, whichever random factors there are. -/
def Representable (b : Backoff) (random : Randomness) : Prop :=
  ∀ attempt draw, 1 ≤ attempt → attempt < b.attempts →
    (b.delayAfter? attempt (random.factor draw)).isSome

/-- Attempts number `first` to `last` with these outcomes, over a world: the delays between them, what is
seen of it all, and the world that is left. -/
inductive Attempts (backend : Cache.Backend σ) (b : Backoff) (call : Nat → Action (Except ε α))
    (outcome : Nat → Except ε α) :
    (first last : Nat) → World σ → List Span → History → World σ → Prop where
  | last {n : Nat} {w w' : World σ} {h : History} :
      (call n).Goes backend w h (outcome n) w' → Attempts backend b call outcome n n w [] h w'
  | again {n last : Nat} {w v w' : World σ} {h h' : History} {delay : Span} {delays : List Span} :
      (call n).Goes backend w h (outcome n) v → b.delayAfter? n (b.factorIn v).1 = some delay →
      Attempts backend b call outcome (n + 1) last ((b.factorIn v).2.slept delay) delays h' w' →
      Attempts backend b call outcome n last w (delay :: delays) (h ++ (b.restIn v delay ++ h')) w'

variable {b : Backoff} {isTransient : ε → Bool} {outcome outcome' : Nat → Except ε α} {more first last n : Nat}

theorem lastFrom_zero : lastFrom isTransient outcome 0 first = first := by
  rw [lastFrom, Nat.zero_add, List.range'_one, List.find?_singleton]
  split <;> rfl

theorem lastFrom_succ : lastFrom isTransient outcome (more + 1) first =
    if goesOn isTransient (outcome first) then lastFrom isTransient outcome more (first + 1) else first := by
  rw [lastFrom, List.range'_succ, List.find?_cons]
  cases goesOn isTransient (outcome first) with
  | false => rfl
  | true =>
      rw [lastFrom, Nat.add_right_comm, Nat.add_assoc]
      rfl

theorem lastAttempt_eq :
    b.lastAttempt isTransient outcome = lastFrom isTransient outcome (b.attempts - 1) 1 := by
  have some : 1 ≤ b.attempts := Nat.le_max_right _ _
  rw [lastAttempt, lastFrom, Nat.sub_add_cancel some, Nat.add_sub_cancel' some]

/-- Which attempt is the last one depends on the outcomes from the first one on. -/
theorem lastFrom_congr (agree : ∀ n, first ≤ n → outcome n = outcome' n) :
    lastFrom isTransient outcome more first = lastFrom isTransient outcome' more first := by
  induction more generalizing first with
  | zero => rw [lastFrom_zero, lastFrom_zero]
  | succ more ih =>
      rw [lastFrom_succ, lastFrom_succ, agree first (Nat.le_refl _),
        ih fun n later => agree n (Nat.le_of_succ_le later)]

variable {backend : Cache.Backend σ} {call : Nat → Action (Except ε α)} {w v w' : World σ} {h : History}
  {delay : Span} {delays : List Span}

theorem Attempts.congr (attempts : b.Attempts backend call outcome first last w delays h w')
    (agree : ∀ n, first ≤ n → outcome n = outcome' n) :
    b.Attempts backend call outcome' first last w delays h w' := by
  induction attempts with
  | last goes =>
      rw [agree _ (Nat.le_refl _)] at goes
      exact .last goes
  | again goes found _ ih =>
      rw [agree _ (Nat.le_refl _)] at goes
      exact .again goes found (ih fun n later => agree n (Nat.le_of_succ_le later))

/-- There is one delay fewer than there are attempts. -/
theorem Attempts.length (attempts : b.Attempts backend call outcome first last w delays h w') :
    first + delays.length = last := by
  induction attempts with
  | last goes => rfl
  | again goes found _ ih =>
      rw [List.length_cons, ← ih]
      omega

end Backoff

namespace Action

variable {b : Backoff} {isTransient : ε → Bool} {backend : Cache.Backend σ}
  {call : Nat → Action (Except ε α)} {w v : World σ} {more first n : Nat} {delay : Span}

open Backoff

theorem retryFrom_zero : retryFrom b isTransient call 0 first =
    call first >>= fun x => pure (verdict isTransient first x) := by
  rw [retryFrom]
  congr 1
  funext x
  cases x <;> rfl

theorem retryFrom_succ : retryFrom b isTransient call (more + 1) first =
    call first >>= fun x =>
      if goesOn isTransient x then
        backOff b first >>= fun _ => retryFrom b isTransient call more (first + 1)
      else pure (verdict isTransient first x) := by
  rw [retryFrom]
  congr 1
  funext x
  cases x with
  | ok a => rfl
  | error e =>
      cases transient : isTransient e <;> simp [goesOn, verdict, transient]

/-- A rest draws a factor, if it needs one, and sleeps for its delay. -/
theorem goes_backOff (found : b.delayAfter? n (b.factorIn v).1 = some delay) :
    (backOff b n).Goes backend v (b.restIn v delay) () ((b.factorIn v).2.slept delay) := by
  have sleeps (w : World σ) {factor : Binary64} (found : b.delayAfter? n factor = some delay) :
      (orFault .spanRange (b.delayAfter? n factor) >>= sleep).Goes backend w
        [.ended (w.slept delay).now (.sleep delay) [] (.ok ())] () (w.slept delay) := by
    rw [found]
    exact goes_sleep
  unfold backOff restIn
  cases jitter : b.jitter with
  | false =>
      have factor : b.factorIn v = (smallestFactor, v) := by simp [factorIn, jitter]
      rw [factor] at found ⊢
      exact sleeps v found
  | true =>
      have factor : b.factorIn v = v.answer .factor := by simp [factorIn, jitter]
      rw [factor] at found ⊢
      exact goes_query.bind (sleeps _ found)

/-- A delay is a span for the factor that is drawn for it. -/
theorem exists_delayAfter? (representable : ∀ draw, (b.delayAfter? n (v.random.factor draw)).isSome) :
    ∃ delay, b.delayAfter? n (b.factorIn v).1 = some delay := by
  apply Option.isSome_iff_exists.mp
  unfold factorIn
  cases jitter : b.jitter with
  | false =>
      have found := representable v.draws
      simpa [delayAfter?, jitter] using found
  | true => exact representable v.draws

theorem random_rest : ((b.factorIn v).2.slept delay).random = v.random := by
  refine (World.draws_advanceTo _ _).random.trans ?_
  unfold factorIn
  split
  · exact (v.draws_answer .factor).random
  · rfl

/-- Retrying makes the attempts from number `first` on up to the last one, with rests in between and nothing
else, and ends with the verdict on the last outcome. -/
def RetriesFrom (backend : Cache.Backend σ) (b : Backoff) (isTransient : ε → Bool)
    (call : Nat → Action (Except ε α)) (outcome : Nat → Except ε α) (more first : Nat) (w : World σ) : Prop :=
  ∃ delays h w',
    b.Attempts backend call outcome first (lastFrom isTransient outcome more first) w delays h w' ∧
    (retryFrom b isTransient call more first).Goes backend w h
      (verdict isTransient (lastFrom isTransient outcome more first)
        (outcome (lastFrom isTransient outcome more first))) w'

namespace RetriesFrom

variable {outcome outcome' : Nat → Except ε α} {h : History}

theorem congr (retries : RetriesFrom backend b isTransient call outcome more first w)
    (agree : ∀ n, first ≤ n → outcome n = outcome' n) :
    RetriesFrom backend b isTransient call outcome' more first w := by
  obtain ⟨delays, h, w', attempts, goes⟩ := retries
  refine ⟨delays, h, w', ?_⟩
  rw [← lastFrom_congr agree, ← agree _ (Nat.le_of_add_right_le (Nat.le_of_eq attempts.length))]
  exact ⟨attempts.congr agree, goes⟩

theorem only (goes : (call first).Goes backend w h (outcome first) v) :
    RetriesFrom backend b isTransient call outcome 0 first w := by
  refine ⟨[], h, v, ?_⟩
  rw [lastFrom_zero, retryFrom_zero]
  have whole := goes.bind (f := fun x => pure (verdict isTransient first x)) goes_done
  rw [List.append_nil] at whole
  exact ⟨.last goes, whole⟩

/-- An attempt that ends the series. -/
theorem final (goes : (call first).Goes backend w h (outcome first) v)
    (stops : goesOn isTransient (outcome first) = false) :
    RetriesFrom backend b isTransient call outcome (more + 1) first w := by
  refine ⟨[], h, v, ?_⟩
  rw [lastFrom_succ, retryFrom_succ, stops]
  have whole := goes.bind (f := fun x =>
    if goesOn isTransient x then
      backOff b first >>= fun _ => retryFrom b isTransient call more (first + 1)
    else pure (verdict isTransient first x)) (by rw [stops]; exact goes_done)
  rw [List.append_nil] at whole
  exact ⟨.last goes, whole⟩

/-- An attempt after which there are others. -/
theorem again (goes : (call first).Goes backend w h (outcome first) v)
    (on : goesOn isTransient (outcome first) = true)
    (found : b.delayAfter? first (b.factorIn v).1 = some delay)
    (rest : RetriesFrom backend b isTransient call outcome more (first + 1)
      ((b.factorIn v).2.slept delay)) :
    RetriesFrom backend b isTransient call outcome (more + 1) first w := by
  obtain ⟨delays, h', w', attempts, ends⟩ := rest
  refine ⟨delay :: delays, h ++ (b.restIn v delay ++ h'), w', ?_⟩
  rw [lastFrom_succ, retryFrom_succ, on]
  refine ⟨.again goes found attempts, goes.bind ?_⟩
  rw [on]
  exact (goes_backOff found).bind ends

end RetriesFrom

/-- Retrying calls that always end makes attempts up to the last one, with rests in between, and nothing else.
What is said of the outcome that an attempt has, whichever world it is made in, is true of the outcomes. -/
theorem retriesFrom (said : Nat → Except ε α → Prop)
    (representable : ∀ n draw, first ≤ n → n < first + more →
      (b.delayAfter? n (w.random.factor draw)).isSome)
    (ends : ∀ n v, ∃ x v', (call n).run backend v = (.value x, v') ∧ said n x) :
    ∃ outcome, (∀ n, said n (outcome n)) ∧
      RetriesFrom backend b isTransient call outcome more first w := by
  induction more generalizing first w with
  | zero =>
      obtain ⟨outcome, ended⟩ := Classical.skolem.mp fun n => ends n w
      obtain ⟨v, runs, _⟩ := ended first
      exact ⟨outcome, fun n => (ended n).choose_spec.2, .only ⟨runs, rfl⟩⟩
  | succ more ih =>
      obtain ⟨outcome, ended⟩ := Classical.skolem.mp fun n => ends n w
      have known (n : Nat) : said n (outcome n) := (ended n).choose_spec.2
      obtain ⟨v, runs, _⟩ := ended first
      have goes : (call first).Goes backend w _ (outcome first) v := ⟨runs, rfl⟩
      cases on : goesOn isTransient (outcome first) with
      | false => exact ⟨outcome, known, .final goes on⟩
      | true =>
          have drawn := (call first).draws_run backend w
          rw [runs] at drawn
          have same : v.random = w.random := drawn.random
          obtain ⟨delay, found⟩ : ∃ delay, b.delayAfter? first (b.factorIn v).1 = some delay := by
            refine exists_delayAfter? fun draw => ?_
            rw [same]
            exact representable first draw (Nat.le_refl _) (by omega)
          obtain ⟨later, known', rest⟩ : ∃ later, (∀ n, said n (later n)) ∧
              RetriesFrom backend b isTransient call later more (first + 1)
                ((b.factorIn v).2.slept delay) := by
            refine ih fun n draw beyond below => ?_
            rw [random_rest, same]
            exact representable n draw (Nat.le_of_succ_le beyond) (by omega)
          -- The outcomes of the later attempts, with that of the first one put in front.
          refine ⟨fun n => if n = first then outcome first else later n, fun n => ?_, ?_⟩
          · dsimp only
            split
            · subst n
              exact known first
            · exact known' n
          · refine .again (by rwa [if_pos rfl]) (by rwa [if_pos rfl]) found (rest.congr ?_)
            exact fun n beyond => (if_neg (by omega)).symm

/-- An action without faults has a value under a deadline, whatever it waits for. -/
theorem exists_run_withTimeoutOr (ofTimeout : TimeoutError → ε) (limit : Span)
    {body : Action (Except ε α)} (faultless : ∀ e, (body.run backend w).1 ≠ .fault e) :
    ∃ x w', (withTimeoutOr ofTimeout limit body).run backend w = (.value x, w') := by
  by_cases ends : body.EndsBy backend w (w.now.deadlineTick limit)
  · rw [run_withTimeoutOr_of_endsBy ends]
    obtain ⟨finite, _⟩ := ends
    rcases ran : body.run backend w with ⟨x | e | _, w'⟩
    · exact ⟨x, w', rfl⟩
    · exact absurd (by rw [ran]) (faultless e)
    · exact absurd (by rw [ran]) finite
  · obtain ⟨w', runs, _⟩ := run_withTimeoutOr_of_outlasts ofTimeout ends
    exact ⟨_, w', runs⟩

/-- Retrying calls with these outcomes keeps to the budget: calls are made up to the last attempt, with one
delay between each two of them and none after the last, and nothing else is seen; the whole ends with the
verdict on the last outcome. -/
def KeepsBudget (backend : Cache.Backend σ) (b : Backoff) (isTransient : ε → Bool)
    (call : Nat → Action (Except ε α)) (w : World σ) (outcome : Nat → Except ε α) : Prop :=
  ∃ delays h w',
    b.Attempts backend call outcome 1 (b.lastAttempt isTransient outcome) w delays h w' ∧
    delays.length + 1 = b.lastAttempt isTransient outcome ∧
    (retry b isTransient call).Goes backend w h
      (verdict isTransient (b.lastAttempt isTransient outcome)
        (outcome (b.lastAttempt isTransient outcome))) w'

theorem RetriesFrom.keepsBudget {outcome : Nat → Except ε α}
    (retries : RetriesFrom backend b isTransient call outcome (b.attempts - 1) 1 w) :
    KeepsBudget backend b isTransient call w outcome := by
  obtain ⟨delays, h, w', attempts, goes⟩ := retries
  rw [← lastAttempt_eq] at attempts goes
  exact ⟨delays, h, w', attempts, by rw [Nat.add_comm]; exact attempts.length, goes⟩

/-- As long as all delays are spans, retrying keeps to its budget for every choice of random factors, whatever
the outcomes of the calls are and however long they take. A call under a deadline ends as it does alone, if
that is by the deadline, and otherwise in a timeout error when a sleep as long as the limit would end; so
retried calls under a deadline keep to the budget whatever they wait for. A sleep ends on the first tick that
is not before its end, and on that of the far future where its end is no instant. -/
theorem retry_keepsBudget (backend : Cache.Backend σ) (b : Backoff) (isTransient : ε → Bool)
    (call : Nat → Action (Except ε α)) (w : World σ) (representable : b.Representable w.random) :
    (∀ outcome : Nat → Except ε α, (∀ n v, ∃ v', (call n).run backend v = (.value (outcome n), v')) →
      KeepsBudget backend b isTransient call w outcome) ∧
    (∀ (ofTimeout : TimeoutError → ε) (limit : Span),
      (∀ n v, ((call n).EndsBy backend v (v.now.deadlineTick limit) →
          (withTimeoutOr ofTimeout limit (call n)).run backend v = (call n).run backend v) ∧
        (¬ (call n).EndsBy backend v (v.now.deadlineTick limit) →
          ∃ v', (withTimeoutOr ofTimeout limit (call n)).run backend v =
            (.value (.error (ofTimeout ⟨limit⟩)), v') ∧ v'.now = (v.slept limit).now)) ∧
      ((∀ n v e, ((call n).run backend v).1 ≠ .fault e) →
        ∃ outcome, KeepsBudget backend b isTransient
          (fun n => withTimeoutOr ofTimeout limit (call n)) w outcome)) ∧
    ∀ (v : World σ) s, (v.slept s).now.tick =
      (if (v.now.after? s).isSome then v.now.after s else v.now.after Instant.farFuture).ceilTick := by
  have spans (n draw : Nat) (positive : 1 ≤ n) (below : n < 1 + (b.attempts - 1)) :
      (b.delayAfter? n (w.random.factor draw)).isSome :=
    representable n draw positive (by omega)
  refine ⟨fun outcome ends => ?_, fun ofTimeout limit => ⟨fun n v => ⟨?_, ?_⟩, fun faultless => ?_⟩,
    World.tick_slept⟩
  · obtain ⟨outcome', same, retries⟩ := retriesFrom (fun n x => x = outcome n) spans
      fun n v => ⟨_, (ends n v).choose, (ends n v).choose_spec, rfl⟩
    rw [funext same] at retries
    exact retries.keepsBudget
  · exact run_withTimeoutOr_of_endsBy
  · exact run_withTimeoutOr_of_outlasts ofTimeout
  · obtain ⟨outcome, _, retries⟩ := retriesFrom (fun _ _ => True) spans fun n v => by
      obtain ⟨x, v', runs⟩ := exists_run_withTimeoutOr ofTimeout limit (faultless n v)
      exact ⟨x, v', runs, trivial⟩
    exact ⟨outcome, retries.keepsBudget⟩

end Action

namespace Sample

open TokenAuthority.Action

def timer : World Cache.Memory :=
  ⟨.start, fun _ => 0, ⟨fun _ _ => [], fun _ => Binary64.ofNat 1⟩, 0, ⟨"", {}, .initial⟩, [], .empty⟩

/-- The third attempt succeeds. -/
def thirdTime (n : Nat) : Except TimeoutError Nat :=
  if n = 3 then .ok n else .error ⟨Span.ofMillis 7⟩

/-- A call that takes seven milliseconds. -/
def slow (n : Nat) : Action (Except TimeoutError Nat) := do
  sleep (Span.ofMillis 7)
  return thirdTime n

/-- A call that never answers. -/
def silent : Action (Except TimeoutError Nat) := do
  let impossible ← wait .never
  return impossible.elim

theorem endless_silent (v : World Cache.Memory) : (silent.run Cache.Memory.backend v).1 = .endless := by
  simp [silent, wait, Bind.bind, Action.bind, run, start, flow, Flow.run, World.await, World.begin,
    Waiting.wakeTick?]

/-- By default a call that succeeds at its third attempt is made three times, and calls that never answer
end with a result under a deadline. -/
theorem keepsBudget_slow :
    ({} : Backoff).Representable timer.random ∧
    KeepsBudget Cache.Memory.backend {} (fun _ => true) slow timer thirdTime ∧
    ({} : Backoff).lastAttempt (fun _ => true) thirdTime = 3 ∧
    ∃ outcome, KeepsBudget Cache.Memory.backend {} (fun _ => true)
      (fun _ => withTimeoutOr id (Span.ofMillis 5) silent) timer outcome := by
  have representable : ({} : Backoff).Representable timer.random :=
    fun n draw _ _ => Backoff.delayAfter?_isSome (by decide) n _
  refine ⟨representable, ?_, by decide, ?_⟩
  · refine (retry_keepsBudget _ _ _ slow timer representable).1 thirdTime fun n v => ?_
    have goes : (slow n).Goes Cache.Memory.backend v _ (thirdTime n) _ := goes_sleep.bind goes_done
    exact ⟨_, goes.run⟩
  · refine ((retry_keepsBudget _ _ _ (fun _ => silent) timer representable).2.1 id _).2 fun n v e fails => ?_
    rw [endless_silent] at fails
    cases fails

/-- The longest span with a number of seconds that fits an unsigned word of sixty-four bits. -/
def longest : Span := ⟨18446744073709551615999999999⟩

/-- A limit whose end is no instant passes early: a single call that never answers times out after thirty
years, and not after such a limit. -/
theorem early_timeout :
    ∃ w', (retry .once (fun _ => true) fun _ => withTimeoutOr id longest silent).run Cache.Memory.backend
        timer = (.value (.error (.exhausted 1 ⟨longest⟩)), w') ∧
      w'.now.tick = 946080000000 ∧ (timer.now.after longest).ceilTick = 18446744073709551616000 := by
  obtain ⟨w', runs, now⟩ : ∃ w', (withTimeoutOr id longest silent).run Cache.Memory.backend timer =
      (.value (.error ⟨longest⟩), w') ∧ w'.now = (timer.slept longest).now :=
    run_withTimeoutOr_of_outlasts id fun ends => ends.1 (endless_silent timer)
  refine ⟨w', ?_, ?_, by decide⟩
  · change (retryFrom _ _ _ 0 1).run _ _ = _
    rw [retryFrom_zero, run_bind, runs]
    rfl
  · rw [now, World.tick_slept]
    decide +kernel

end Sample

end TokenAuthority
