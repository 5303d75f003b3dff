import TokenAuthority.Proofs.Effect.History
import TokenAuthority.Resilience.Retry

/-!
# What a retried action sees

The history of a retried action is made of the histories of its attempts with rests in between.

* `Backoff.Rests` — one rest: a random factor where delays are spread, then a sleep, if the delay is a span.
* `Backoff.Tries` — a whole series of attempts, with one constructor for each way in which it can go on
  or end.
* `Action.ensures_retry` — a retried action sees such a series and nothing else.
-/

namespace TokenAuthority

namespace Backoff

/-- What is seen of the rest after the failed attempt with this number, and how the rest ends. -/
inductive Rests (b : Backoff) (attempt : Nat) (ds : List Nat) : History → Except Interruption Unit → Prop where
  | plain {delay : Span} (time : Instant) (x : Except Interruption Unit) :
      b.jitter = false → b.delayAfter? attempt smallestFactor = some delay →
      Rests b attempt ds [.ended time (.sleep delay) ds x] x
  | spread {delay : Span} (asked time : Instant) (factor : Binary64) (x : Except Interruption Unit) :
      b.jitter = true → b.delayAfter? attempt factor = some delay →
      Rests b attempt ds [.answered asked .factor factor, .ended time (.sleep delay) ds x] x
  | plainLong :
      b.jitter = false → b.delayAfter? attempt smallestFactor = none →
      Rests b attempt ds [] (.error (.fault .spanRange))
  | spreadLong (asked : Instant) (factor : Binary64) :
      b.jitter = true → b.delayAfter? attempt factor = none →
      Rests b attempt ds [.answered asked .factor factor] (.error (.fault .spanRange))

/-- What is seen of attempt number `attempt` and up to `more` attempts after it, when an attempt sees
what `each` says, and how the attempts end. -/
inductive Tries {α ε : Type} (b : Backoff) (isTransient : ε → Bool) (ds : List Nat)
    (each : History → Except Interruption (Except ε α) → Prop) :
    (more attempt : Nat) → History → Except Interruption (Except (RetryError ε) α) → Prop where
  | succeeded {more attempt : Nat} {h : History} {a : α} :
      each h (.ok (.ok a)) → Tries b isTransient ds each more attempt h (.ok (.ok a))
  | permanent {more attempt : Nat} {h : History} {e : ε} :
      each h (.ok (.error e)) → isTransient e = false →
      Tries b isTransient ds each more attempt h (.ok (.error (.permanent e)))
  | exhausted {attempt : Nat} {h : History} {e : ε} :
      each h (.ok (.error e)) → isTransient e = true →
      Tries b isTransient ds each 0 attempt h (.ok (.error (.exhausted attempt e)))
  | again {more attempt : Nat} {h rest h' : History} {e : ε}
      {r : Except Interruption (Except (RetryError ε) α)} :
      each h (.ok (.error e)) → isTransient e = true → b.Rests attempt ds rest (.ok ()) →
      Tries b isTransient ds each more (attempt + 1) h' r →
      Tries b isTransient ds each (more + 1) attempt (h ++ (rest ++ h')) r
  | cut {more attempt : Nat} {i : Interruption} {h : History} :
      each h (.error i) → Tries b isTransient ds each more attempt h (.error i)
  | cutResting {more attempt : Nat} {i : Interruption} {h rest : History} {e : ε} :
      each h (.ok (.error e)) → isTransient e = true → b.Rests attempt ds rest (.error i) →
      Tries b isTransient ds each (more + 1) attempt (h ++ rest) (.error i)

end Backoff

namespace Action

variable {α ε : Type} {R : Rule} {ds : List Nat} {h : History} {b : Backoff}

/-- A rest sees a factor, if it needs one, and its sleep, unless the delay is too long. -/
theorem ensures_backOff {attempt : Nat}
    (asked : ∀ time x, R.event h (.answered time .factor x))
    (slept : ∀ tail time s x, (∀ e ∈ tail, ∃ time x, e = Event.answered time .factor x) →
      R.event (h ++ tail) (.ended time (.sleep s) ds x))
    (long : ∀ tail factor, (∀ e ∈ tail, ∃ time x, e = Event.answered time .factor x) →
      b.delayAfter? attempt factor = none → R.fault (h ++ tail) .spanRange) :
    (backOff b attempt).Ensures R ds h (b.Rests attempt ds) := by
  unfold backOff
  cases jitter : b.jitter with
  | false =>
      refine Ensures.orFault (fun none => ⟨?_, .plainLong jitter none⟩) fun delay found => ?_
      · simpa using long [] _ (by simp) none
      refine Ensures.wait (fun time x => by simpa using slept [] time delay x (by simp)) ?_
      exact fun time x => .plain time x jitter found
  | true =>
      refine Ensures.ask asked fun asked factor => ?_
      have known : ∀ e ∈ [Event.answered asked .factor factor],
          ∃ time x, e = Event.answered time .factor x := by
        intro e he
        exact ⟨asked, factor, by simpa using he⟩
      refine Ensures.orFault (fun none => ⟨long _ factor known none, .spreadLong asked factor jitter none⟩)
        fun delay found => ?_
      refine Ensures.wait (fun time x => slept _ time delay x known) ?_
      exact fun time x => .spread asked time factor x jitter found

/-- A retried action sees a series of attempts and rests. What has been seen before each of them is
described by `Before`, which failed attempts and rests keep. -/
theorem ensures_retryFrom {isTransient : ε → Bool} {call : Nat → Action (Except ε α)}
    {each : History → Except Interruption (Except ε α) → Prop} (Before : History → Prop)
    (called : ∀ attempt before, Before before →
      (call attempt).Ensures R ds (h ++ before) each)
    (rested : ∀ attempt before, Before before →
      (backOff b attempt).Ensures R ds (h ++ before) (b.Rests attempt ds))
    (failed : ∀ before tail e, Before before → each tail (.ok (.error e)) → Before (before ++ tail))
    (woken : ∀ before rest attempt, Before before → b.Rests attempt ds rest (.ok ()) →
      Before (before ++ rest))
    (more attempt : Nat) {before : History} (start : Before before) :
    (retryFrom b isTransient call more attempt).Ensures R ds (h ++ before)
      (b.Tries isTransient ds each more attempt) := by
  induction more generalizing attempt before with
  | zero =>
      unfold retryFrom
      refine Ensures.bind each (called attempt before start) ?_ fun _ _ cut => .cut cut
      intro tail x seen
      cases x with
      | ok a => exact Ensures.done (by simpa using .succeeded seen)
      | error e =>
          refine Ensures.done ?_
          cases transient : isTransient e with
          | true => simpa using Backoff.Tries.exhausted seen transient
          | false => simpa using Backoff.Tries.permanent seen transient
  | succ more ih =>
      unfold retryFrom
      refine Ensures.bind each (called attempt before start) ?_ fun _ _ cut => .cut cut
      intro tail x seen
      cases x with
      | ok a => exact Ensures.done (by simpa using .succeeded seen)
      | error e =>
          cases transient : isTransient e with
          | false =>
              simp only [transient, Bool.false_eq_true, if_false]
              exact Ensures.done (by simpa using .permanent seen transient)
          | true =>
              simp only [transient, if_true]
              have kept := failed before tail e start seen
              refine Ensures.bind (b.Rests attempt ds) ?_ ?_ ?_
              · simpa using rested attempt _ kept
              · intro rest _ resting
                have next := ih (attempt + 1) (woken _ rest attempt kept resting)
                rw [List.append_assoc, List.append_assoc, ← List.append_assoc before]
                exact next.mono fun _ _ tries => .again seen transient resting tries
              · exact fun rest i resting => .cutResting seen transient resting

/-- A retried action sees a series of attempts and rests from attempt one on. -/
theorem ensures_retry {isTransient : ε → Bool} {call : Nat → Action (Except ε α)}
    {each : History → Except Interruption (Except ε α) → Prop} (Before : History → Prop)
    (called : ∀ attempt before, Before before →
      (call attempt).Ensures R ds (h ++ before) each)
    (rested : ∀ attempt before, Before before →
      (backOff b attempt).Ensures R ds (h ++ before) (b.Rests attempt ds))
    (failed : ∀ before tail e, Before before → each tail (.ok (.error e)) → Before (before ++ tail))
    (woken : ∀ before rest attempt, Before before → b.Rests attempt ds rest (.ok ()) →
      Before (before ++ rest))
    (start : Before []) :
    (retry b isTransient call).Ensures R ds h
      (b.Tries isTransient ds each (b.attempts - 1) 1) := by
  rw [← List.append_nil h]
  exact ensures_retryFrom Before called rested failed woken (b.attempts - 1) 1 start

end Action

end TokenAuthority
