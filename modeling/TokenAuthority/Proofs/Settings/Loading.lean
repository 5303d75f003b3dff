import TokenAuthority.Proofs.Resilience.Delays
import TokenAuthority.Proofs.Text.Integer
import TokenAuthority.Settings.Environment

/-!
# When loading settings gives an answer

Settings whose limits hold are also asked for the time that all attempts of a look-up can take. That sum is
wanted for a warning only, but where it is no span there is no answer at all, neither settings nor an error.

* `Environment.milliseconds_eq_ok` — what a variable in milliseconds gives is a word of them.
* `Settings.Revocations.BudgetFits` — whether the time for all attempts is a span.
* `Settings.ofEnvironment_answers_iff` — loading answers in exactly the environments whose settings have
  such a time, and in all that ask for no more than five hundred attempts.
-/

namespace TokenAuthority

namespace Environment

variable {env : Environment} {name : String}

/-- A number that is read fits its word, as the default does. -/
theorem unsigned_lt {bits n default : Nat} (fits : default < 2 ^ bits)
    (got : env.number name default (Integer.readUnsigned bits) = .ok n) : n < 2 ^ bits := by
  unfold number at got
  split at got
  · cases got
    exact fits
  · rename_i text _
    cases read : Integer.readUnsigned bits (Blank.trim text) with
    | error e =>
      rw [read] at got
      cases got
    | ok k =>
      rw [read] at got
      cases got
      exact Integer.readUnsigned_lt read

theorem milliseconds_eq_ok {span : Span} {default : Nat} (fits : default < 2 ^ 64)
    (got : env.milliseconds name default = .ok span) : ∃ n, span = Span.ofMillis n ∧ n < 2 ^ 64 := by
  obtain ⟨n, read, rfl⟩ := Integer.eq_ok_of_map got
  exact ⟨n, rfl, unsigned_lt fits read⟩

end Environment

namespace Settings

open Integer (eq_ok_of_bind)

variable {env : Environment}

/-- The deadline of a call and the cap of the delays are read as words of milliseconds. -/
theorem Revocations.words_of_read {r : Revocations} (got : Revocations.read env = .ok r) :
    (∃ n, r.opTimeout = Span.ofMillis n ∧ n < 2 ^ 64) ∧
      ∃ n, r.retry.cap = Span.ofMillis n ∧ n < 2 ^ 64 := by
  obtain ⟨minTtl, -, got⟩ := eq_ok_of_bind got
  obtain ⟨checkTimeout, -, got⟩ := eq_ok_of_bind got
  obtain ⟨opTimeout, opRead, got⟩ := eq_ok_of_bind got
  obtain ⟨maxAttempts, -, got⟩ := eq_ok_of_bind got
  obtain ⟨initial, -, got⟩ := eq_ok_of_bind got
  obtain ⟨cap, capRead, got⟩ := eq_ok_of_bind got
  obtain ⟨failureThreshold, -, got⟩ := eq_ok_of_bind got
  obtain ⟨recoveryTimeout, -, got⟩ := eq_ok_of_bind got
  cases got
  exact ⟨Environment.milliseconds_eq_ok (by decide) opRead,
    Environment.milliseconds_eq_ok (by decide) capRead⟩

theorem revocations_of_read {s : Settings} (got : read env = .ok s) :
    Revocations.read env = .ok s.revocations := by
  obtain ⟨tokens, -, got⟩ := eq_ok_of_bind got
  obtain ⟨passwordCost, -, got⟩ := eq_ok_of_bind got
  obtain ⟨revocations, revocationsRead, got⟩ := eq_ok_of_bind got
  obtain ⟨throttling, -, got⟩ := eq_ok_of_bind got
  obtain ⟨redis, -, got⟩ := eq_ok_of_bind got
  cases got
  exact revocationsRead

/-! ### The time for all attempts -/

/-- Whether the deadlines of all attempts and the delays between them end in the range of spans. -/
def Revocations.BudgetFits (r : Revocations) : Prop :=
  ∃ delays, r.retry.maxTotalDelay? = some delays ∧
    r.opTimeout.nanoseconds * r.retry.attempts + delays.nanoseconds < Span.limit.nanoseconds

theorem Revocations.retryBudget?_isSome_iff {r : Revocations} :
    r.retryBudget?.isSome ↔ r.BudgetFits := by
  rw [Option.isSome_iff_exists]
  constructor
  · rintro ⟨budget, eq⟩
    obtain ⟨delays, summed, rfl, inRange⟩ := Backoff.worstCase?_eq_some_iff.mp eq
    exact ⟨delays, summed, inRange⟩
  · rintro ⟨delays, summed, inRange⟩
    exact ⟨_, Backoff.worstCase?_eq_some_iff.mpr ⟨delays, summed, rfl, inRange⟩⟩

/-- Up to five hundred attempts fit, whatever the environment gives for the rest. -/
theorem budgetFits_of_read {s : Settings} (got : read env = .ok s)
    (few : s.revocations.retry.maxAttempts ≤ 500) : s.revocations.BudgetFits := by
  obtain ⟨⟨m, opTimeout, word⟩, n, cap, word'⟩ := Revocations.words_of_read (revocations_of_read got)
  apply Revocations.retryBudget?_isSome_iff.mp
  unfold Revocations.retryBudget?
  rw [opTimeout]
  apply Backoff.worstCase?_of_millis cap word' word
  exact Nat.max_le.mpr ⟨few, by decide⟩

/-- The check ends in a fault exactly where the limits hold and the time for all attempts is no span. -/
theorem fault?_eq_some_iff {s : Settings} {f : Fault} : s.fault? = some f ↔
    f = .spanRange ∧ s.checkLimits = .ok () ∧ ¬s.revocations.BudgetFits := by
  rw [← Revocations.retryBudget?_isSome_iff]
  unfold fault?
  cases s.checkLimits with
  | error e => simp
  | ok =>
    cases s.revocations.retryBudget? with
    | none => simp [eq_comm]
    | some budget => simp

theorem ofEnvironment_eq_error_iff {f : Fault} : ofEnvironment env = .error f ↔
    f = .spanRange ∧ ∃ s, read env = .ok s ∧ s.checkLimits = .ok () ∧ ¬s.revocations.BudgetFits := by
  unfold ofEnvironment
  cases got : read env with
  | error e => simp
  | ok s =>
    dsimp only
    cases faulty : s.fault? with
    | none =>
      constructor
      · intro eq
        cases eq
      · rintro ⟨rfl, s', same, limits, overflows⟩
        cases same
        rw [fault?_eq_some_iff.mpr ⟨rfl, limits, overflows⟩] at faulty
        cases faulty
    | some g =>
      obtain ⟨rfl, limits, overflows⟩ := fault?_eq_some_iff.mp faulty
      simp [limits, overflows, eq_comm]

/-- Loading settings answers, with settings or with an error, in exactly the environments in which the
settings that are read have a time for all attempts, unless they break a limit before it is asked for.
Otherwise it ends in a fault of its arithmetic. No more than five hundred attempts always have such a time,
whatever the other variables are set to. -/
theorem ofEnvironment_answers_iff (env : Environment) :
    ((∃ answer, ofEnvironment env = .ok answer) ↔
      ∀ s, read env = .ok s → s.checkLimits = .ok () → s.revocations.BudgetFits) ∧
    (∀ f, ofEnvironment env = .error f → f = .spanRange) ∧
    (∀ s, read env = .ok s → s.revocations.retry.maxAttempts ≤ 500 → s.revocations.BudgetFits) := by
  refine ⟨?_, ?_, ?_⟩
  · constructor
    · rintro ⟨answer, eq⟩ s got limits
      apply Classical.byContradiction
      intro overflows
      rw [ofEnvironment_eq_error_iff.mpr ⟨rfl, s, got, limits, overflows⟩] at eq
      cases eq
    · intro fits
      cases eq : ofEnvironment env with
      | ok answer => exact ⟨answer, rfl⟩
      | error f =>
        obtain ⟨-, s, got, limits, overflows⟩ := ofEnvironment_eq_error_iff.mp eq
        exact absurd (fits s got limits) overflows
  · intro f eq
    exact (ofEnvironment_eq_error_iff.mp eq).1
  · intro s got few
    exact budgetFits_of_read got few

end Settings

namespace Sample

open Settings

/-- An environment with the longest deadline and the longest delays that can be set. -/
def patient (attempts : String) : Environment :=
  Environment.ofTexts [("JWT_ALGORITHM", "HS256"), ("JWT_SECRET", "orange gate above the low river"),
    ("CACHE_OP_TIMEOUT_MS", "18446744073709551615"), ("CACHE_RETRY_MAX_ATTEMPTS", attempts),
    ("CACHE_RETRY_INITIAL_BACKOFF_MS", "18446744073709551615"),
    ("CACHE_RETRY_MAX_BACKOFF_MS", "18446744073709551615")]

/-- Five hundred attempts of the longest kind are answered; with a thousand and one the deadlines alone are
too long. -/
theorem loads_patient : (∃ answer, ofEnvironment (patient "500") = .ok answer) ∧
    ¬∃ answer, ofEnvironment (patient "1001") = .ok answer := by
  constructor
  · obtain ⟨answers, -, fits⟩ := ofEnvironment_answers_iff (patient "500")
    have attempts : (read (patient "500")).toOption.map (·.revocations.retry.maxAttempts) = some 500 := by
      decide +kernel
    apply answers.mpr
    intro s got _
    apply fits s got
    rw [got] at attempts
    exact Nat.le_of_eq (Option.some.inj attempts)
  · rintro ⟨answer, eq⟩
    have unanswered : (ofEnvironment (patient "1001")).isOk = false := by decide +kernel
    rw [eq] at unanswered
    cases unanswered

end Sample

end TokenAuthority
