import TokenAuthority.Effect.Fault
import TokenAuthority.Proofs.Resilience.Rounding
import TokenAuthority.Resilience.Backoff

/-!
# Delays as spans of time

Every delay is cut to the cap, whatever the growth and the random factor come to: they may be negative,
infinite or no number at all. So what is known of the cap is known of every delay and of their sum.

* `Backoff.upTo_capped` — no delay passes the number of seconds of the cap.
* `Backoff.delayAfter?_isSome` — under a cap short of the range of spans every delay is a span.
* `Backoff.HasLongDelay` — the fault of a delay that is too long to be a span.
* `Backoff.worstCase?_eq_some_iff` — when the time for all attempts is a span.
* `Backoff.worstCase?_of_millis` — it is one for up to five hundred attempts, whatever number of
  milliseconds a word gives for the deadline and the cap.
-/

namespace TokenAuthority.Backoff

open Binary64

variable {b : Backoff} {bound c k n : Nat}

theorem upTo_capped (cap : UpTo bound (ofSpan b.cap)) (seconds : Binary64) :
    UpTo bound (b.capped seconds) :=
  cap.clamp

/-- Delays under a bound add up to a sum under as many times the bound, as long as that is a number of
the format. -/
theorem upTo_sumFrom {factor total : Binary64} {first past count : Nat} (small : k ≤ 971)
    (cap : UpTo (c * 2 ^ k * unitsOfOne) (ofSpan b.cap)) (short : (past + count) * c < 2 ^ 53)
    (upTo : UpTo (past * c * 2 ^ k * unitsOfOne) total) :
    UpTo ((past + count) * c * 2 ^ k * unitsOfOne) (b.sumFrom factor first count total) := by
  induction count generalizing first past total with
  | zero => exact upTo
  | succ count ih =>
      have next : past + (count + 1) = past + 1 + count := by omega
      rw [next] at short ⊢
      apply ih short
      have short' : (past + 1) * c < 2 ^ 53 :=
        Nat.lt_of_le_of_lt (Nat.mul_le_mul_right c (Nat.le_add_right _ count)) short
      apply upTo.add (upTo_capped cap _) (representable_seconds short' small)
      apply Nat.le_of_eq
      rw [Nat.succ_mul past c, Nat.add_mul, Nat.add_mul]

/-- Under a cap that lies some thousand seconds below the range of spans every delay is a span. -/
theorem delayAfter?_isSome (cap : b.cap ≤ Span.ofSecs (2 ^ 64 - 4096)) (attempt : Nat)
    (factor : Binary64) : (b.delayAfter? attempt factor).isSome := by
  have secs : b.cap.secs ≤ (2 ^ 52 - 1) * 2 ^ 12 := by
    have := Nat.div_le_div_right (c := Span.nanosPerSecond) cap
    simp only [Span.ofSecs, Span.nanosPerSecond] at this
    simp only [Span.secs, Span.nanosPerSecond]
    omega
  have upTo : UpTo ((2 ^ 53 - 1) * 2 ^ 11 * unitsOfOne) (ofSpan b.cap) :=
    upTo_ofSpan secs (by decide) (representable_seconds (by decide) (by decide))
      (representable_seconds (by decide) (by decide))
  obtain ⟨delay, eq, -⟩ := (upTo_capped upTo (if b.jitter then b.base attempt * factor else
    b.base attempt)).toSpan? (by decide)
  exact Option.isSome_of_eq_some eq

/-- The fault is that of a delay between two attempts that is too long to be a span. -/
def HasLongDelay (b : Backoff) (f : Fault) : Prop :=
  f = .spanRange ∧ ∃ attempt factor, b.delayAfter? attempt factor = none

/-- It takes a cap of almost the whole range of spans. -/
theorem HasLongDelay.cap {f : Fault} (long : b.HasLongDelay f) : Span.ofSecs (2 ^ 64 - 4096) < b.cap := by
  obtain ⟨-, attempt, factor, none⟩ := long
  apply Nat.lt_of_not_le
  intro short
  have some := delayAfter?_isSome short attempt factor
  rw [none] at some
  cases some

/-! ### The time for all attempts -/

/-- The time for all attempts is a span when the delays add up to one and end in the range with the
deadlines of the attempts. -/
theorem worstCase?_eq_some_iff {perAttempt budget : Span} : b.worstCase? perAttempt = some budget ↔
    ∃ delays, b.maxTotalDelay? = some delays ∧
      budget = ⟨perAttempt.nanoseconds * b.attempts + delays.nanoseconds⟩ ∧ budget < Span.limit := by
  constructor
  · intro eq
    unfold worstCase? Span.times? at eq
    dsimp only at eq
    split at eq
    · cases summed : b.maxTotalDelay? with
      | none =>
        rw [summed] at eq
        cases eq
      | some delays =>
        rw [summed] at eq
        simp only [Option.bind_eq_bind, Option.bind_some, Span.add?] at eq
        split at eq
        · cases eq
          exact ⟨delays, rfl, rfl, ‹_›⟩
        · cases eq
    · cases eq
  · rintro ⟨delays, summed, rfl, inRange⟩
    have calls : (⟨perAttempt.nanoseconds * b.attempts⟩ : Span) < Span.limit :=
      Nat.lt_of_le_of_lt (Nat.le_add_right _ _) inRange
    unfold worstCase? Span.times?
    dsimp only
    rw [if_pos calls, summed]
    exact if_pos inRange

/-- The delays between up to five hundred attempts add up to a span when the cap is a number of
milliseconds of sixty-four bits. -/
theorem maxTotalDelay?_of_millis (cap : b.cap = Span.ofMillis n) (word : n < 2 ^ 64)
    (few : b.attempts ≤ 500) :
    ∃ delays, b.maxTotalDelay? = some delays ∧ delays ≤ Span.ofSecs (499 * 525 * 2 ^ 45) := by
  have secs : b.cap.secs ≤ 1152921504606847 * 2 ^ 4 := by
    rw [cap]
    simp only [Span.secs, Span.ofMillis, Span.nanosPerMilli, Span.nanosPerSecond]
    omega
  have upTo : UpTo (525 * 2 ^ 45 * unitsOfOne) (ofSpan b.cap) :=
    upTo_ofSpan secs (by decide) (representable_seconds (by decide) (by decide))
      (representable_seconds (by decide) (by decide))
  have start : UpTo (0 * 525 * 2 ^ 45 * unitsOfOne) (ofNat 0) := by
    rw [ofNat_zero]
    exact upTo_zero
  have sum : UpTo ((0 + (b.attempts - 1)) * 525 * 2 ^ 45 * unitsOfOne)
      (b.sumFrom (if b.jitter then largestFactor else ofNat 1) 1 (b.attempts - 1) (ofNat 0)) :=
    upTo_sumFrom (by decide) upTo (by omega) start
  have most : (0 + (b.attempts - 1)) * 525 * 2 ^ 45 ≤ 499 * 525 * 2 ^ 45 := by omega
  exact (sum.mono (Nat.mul_le_mul_right _ most)).toSpan? (by decide)

/-- Up to five hundred attempts take a span at most when both the deadline of an attempt and the cap are
numbers of milliseconds of sixty-four bits. -/
theorem worstCase?_of_millis {m : Nat} (cap : b.cap = Span.ofMillis n) (word : n < 2 ^ 64)
    (word' : m < 2 ^ 64) (few : b.attempts ≤ 500) : (b.worstCase? (Span.ofMillis m)).isSome := by
  obtain ⟨delays, summed, le⟩ := maxTotalDelay?_of_millis cap word few
  have le : delays.nanoseconds ≤ Span.nanosPerSecond * (499 * 525 * 2 ^ 45) := le
  have calls : m * b.attempts ≤ (2 ^ 64 - 1) * 500 := Nat.mul_le_mul (by omega) few
  apply Option.isSome_of_eq_some
  apply worstCase?_eq_some_iff.mpr
  refine ⟨delays, summed, rfl, ?_⟩
  change Span.nanosPerMilli * m * b.attempts + delays.nanoseconds < Span.nanosPerSecond * 2 ^ 64
  rw [Nat.mul_assoc]
  simp only [Span.nanosPerMilli, Span.nanosPerSecond] at le ⊢
  omega

end TokenAuthority.Backoff
