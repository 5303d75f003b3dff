import TokenAuthority.Resilience.Breaker

/-!
# What a breaker remembers

A breaker is asked and told things, one after the other, and time passes in between. What it remembers is
told by that history alone.

* `Breaker.Aged`, `Breaker.Moves` — all that passing time and one step can do to a breaker.
* `Breaker.failuresInRow` — the failures at the end of a history.
* `Breaker.Remembers` — what a breaker with a history remembers. Every step keeps it.
* `Breaker.run_initial` — so a breaker that was new when its history began is closed exactly while the
  failures in a row are too few to open it.
-/

namespace TokenAuthority.Breaker

/-! ### Words -/

theorem toNat_max (a b : UInt32) : (max a b).toNat = max a.toNat b.toNat := by
  change (if a ≤ b then b else a).toNat = _
  by_cases le : a ≤ b
  · rw [if_pos le, Nat.max_eq_right (UInt32.le_iff_toNat_le.mp le)]
  · rw [if_neg le, Nat.max_eq_left (Nat.le_of_not_le (mt UInt32.le_iff_toNat_le.mpr le))]

theorem toNat_ofNatClamp (n : Nat) : (UInt32.ofNatClamp n).toNat = min n (UInt32.size - 1) := by
  by_cases fits : n < UInt32.size
  · rw [UInt32.toNat_ofNatClamp_of_lt fits]
    omega
  · rw [UInt32.toNat_ofNatClamp_of_le (by omega)]
    omega

/-! ### Settings -/

/-- How many probes a half-open circuit admits at a time. -/
def Config.probes (config : Config) : Nat := max config.halfOpenCalls.toNat 1

theorem Config.probes_pos (config : Config) : 0 < config.probes :=
  Nat.lt_of_lt_of_le Nat.one_pos (Nat.le_max_right _ 1)

theorem Config.probes_lt (config : Config) : config.probes < UInt32.size :=
  Nat.max_lt.mpr ⟨config.halfOpenCalls.toNat_lt, by decide⟩

/-- How many failures in a row open the circuit. -/
def Config.threshold (config : Config) : Nat := max config.failureThreshold.toNat 1

theorem Config.threshold_pos (config : Config) : 0 < config.threshold :=
  Nat.lt_of_lt_of_le Nat.one_pos (Nat.le_max_right _ 1)

/-! ### Steps -/

variable {config : Config} {now : Instant} {s s' : State}

/-- What passing time makes of a state. -/
inductive Aged (config : Config) (now : Instant) (s : State) : State → Prop where
  /-- A closed circuit does not change. -/
  | closed : s.circuit = .closed → Aged config now s s
  /-- A circuit without an instant to count from does not change either. -/
  | timeless : s.circuit ≠ .closed → s.openedAt = none → Aged config now s s
  /-- The recovery time has not passed. -/
  | waits {since : Instant} : s.circuit ≠ .closed → s.openedAt = some since →
      now.since since < config.recoveryTimeout → Aged config now s s
  /-- It has, and new probes are admitted. -/
  | admits {since : Instant} : s.circuit ≠ .closed → s.openedAt = some since →
      config.recoveryTimeout ≤ now.since since → Aged config now s ⟨.halfOpen, s.failures, some now, 0⟩

theorem aged_refresh (config : Config) (now : Instant) (s : State) :
    Aged config now s (refresh config now s) := by
  obtain ⟨circuit, failures, openedAt, probes⟩ := s
  cases openedAt with
  | none => cases circuit with
    | closed => exact .closed rfl
    | opened => exact .timeless (by simp) rfl
    | halfOpen => exact .timeless (by simp) rfl
  | some since =>
      by_cases waits : now.since since < config.recoveryTimeout
      · cases circuit with
        | closed => exact .closed rfl
        | opened => simpa [refresh, waits] using Aged.waits (by simp) rfl waits
        | halfOpen => simpa [refresh, waits] using Aged.waits (by simp) rfl waits
      · have passed : config.recoveryTimeout ≤ now.since since := Nat.le_of_not_lt waits
        cases circuit with
        | closed => exact .closed rfl
        | opened => simpa [refresh, waits] using Aged.admits (by simp) rfl passed
        | halfOpen => simpa [refresh, waits] using Aged.admits (by simp) rfl passed

/-- Passing time closes no circuit, and opens none that is closed. -/
theorem Aged.closed_iff (aged : Aged config now s s') : s'.circuit = .closed ↔ s.circuit = .closed := by
  cases aged with
  | closed => rfl
  | timeless => rfl
  | waits => rfl
  | admits notClosed => simp [notClosed]

/-- It opens none at all. -/
theorem Aged.was_opened (aged : Aged config now s s') (opened : s'.circuit = .opened) :
    s.circuit = .opened := by
  cases aged with
  | closed => exact opened
  | timeless => exact opened
  | waits => exact opened
  | admits => exact absurd opened (by simp)

/-- A half-open circuit that admits a probe can count it. -/
theorem toNat_probes_succ (admits : s.probes.toNat < config.probes) :
    (s.probes + 1).toNat = s.probes.toNat + 1 := by
  rw [UInt32.toNat_add]
  exact Nat.mod_eq_of_lt (Nat.lt_of_le_of_lt admits config.probes_lt)

/-- All that one step can answer and leave behind. -/
inductive Moves (config : Config) (now : Instant) (s : State) : (op : Op) → op.Answer → State → Prop where
  /-- A closed circuit permits every call. -/
  | permits {s' : State} : Aged config now s s' → s'.circuit = .closed →
      Moves config now s .acquire true s'
  /-- A half-open one permits calls as long as it admits probes. -/
  | probes {s' : State} : Aged config now s s' → s'.circuit = .halfOpen →
      s'.probes.toNat < config.probes →
      Moves config now s .acquire true { s' with probes := s'.probes + 1 }
  | refuses {s' : State} : Aged config now s s' →
      s'.circuit = .opened ∨ s'.circuit = .halfOpen ∧ config.probes ≤ s'.probes.toNat →
      Moves config now s .acquire false s'
  /-- A success closes every circuit. -/
  | closes : Moves config now s .success () .initial
  /-- A failure opens a half-open circuit, and a closed one if it is one too many. -/
  | opens : s.circuit = .halfOpen ∨ s.circuit = .closed ∧ config.failureThreshold ≤ s.nextFailures →
      Moves config now s .failure () ⟨.opened, s.nextFailures, some now, 0⟩
  | counts : s.circuit = .opened ∨ s.circuit = .closed ∧ ¬ config.failureThreshold ≤ s.nextFailures →
      Moves config now s .failure () { s with failures := s.nextFailures }
  | shows {s' : State} : Aged config now s s' → Moves config now s .state s'.circuit s'

theorem moves_tryAcquire (config : Config) (now : Instant) (s : State) :
    Moves config now s .acquire (tryAcquire config now s).1 (tryAcquire config now s).2 := by
  have aged := aged_refresh config now s
  unfold tryAcquire
  generalize refresh config now s = s' at aged
  dsimp only
  split
  · exact .permits aged ‹_›
  · exact .refuses aged (.inl ‹_›)
  · rename_i halfOpen
    have probes : (max config.halfOpenCalls 1).toNat = config.probes := toNat_max _ _
    split
    · rename_i admits
      exact .probes aged halfOpen (probes ▸ UInt32.lt_iff_toNat_lt.mp admits)
    · rename_i full
      exact .refuses aged (.inr ⟨halfOpen, probes ▸ Nat.le_of_not_lt (mt UInt32.lt_iff_toNat_lt.mpr full)⟩)

theorem moves_recordFailure (config : Config) (now : Instant) (s : State) :
    Moves config now s .failure () (recordFailure config now s) := by
  cases circuit : s.circuit with
  | opened => simpa [recordFailure, circuit] using Moves.counts (.inl circuit)
  | halfOpen => simpa [recordFailure, circuit] using Moves.opens (.inl circuit)
  | closed =>
      by_cases enough : config.failureThreshold ≤ s.nextFailures
      · simpa [recordFailure, circuit, enough] using Moves.opens (.inr ⟨circuit, enough⟩)
      · simpa [recordFailure, circuit, enough] using Moves.counts (.inr ⟨circuit, enough⟩)

theorem moves_step (config : Config) (now : Instant) (s : State) (op : Op) :
    Moves config now s op (step config now s op).1 (step config now s op).2 := by
  cases op with
  | acquire => exact moves_tryAcquire config now s
  | success => exact .closes
  | failure => exact moves_recordFailure config now s
  | state => exact .shows (aged_refresh config now s)

/-- A circuit opens at a failure only, and keeps the time of it. -/
theorem Moves.opened {op : Op} {answer : op.Answer} (moves : Moves config now s op answer s')
    (notOpen : s.circuit ≠ .opened) (opened : s'.circuit = .opened) :
    op = .failure ∧ s'.openedAt = some now := by
  cases moves with
  | permits aged => exact absurd (aged.was_opened opened) notOpen
  | probes aged => exact absurd (aged.was_opened opened) notOpen
  | refuses aged => exact absurd (aged.was_opened opened) notOpen
  | shows aged => exact absurd (aged.was_opened opened) notOpen
  | closes => exact absurd opened (by simp [State.initial])
  | opens => exact ⟨rfl, rfl⟩
  | counts => exact absurd opened notOpen

/-! ### Histories -/

def run (config : Config) (s : State) (ops : List (Instant × Op)) : State :=
  ops.foldl (fun s x => (step config x.1 s x.2).2) s

/-- The failures since the last success, or since the beginning. -/
def failuresInRow (ops : List (Instant × Op)) : Nat :=
  ((ops.map Prod.snd).reverse.takeWhile (· ≠ .success)).count .failure

variable {ops : List (Instant × Op)} {op : Op}

@[simp]
theorem run_nil : run config s [] = s := rfl

@[simp]
theorem run_cons :
    run config s ((now, op) :: ops) = run config (step config now s op).2 ops := rfl

theorem run_append {ops' : List (Instant × Op)} :
    run config s (ops ++ ops') = run config (run config s ops) ops' :=
  List.foldl_append

theorem failuresInRow_success : failuresInRow (ops ++ [(now, .success)]) = 0 := by
  simp [failuresInRow]

theorem failuresInRow_failure :
    failuresInRow (ops ++ [(now, .failure)]) = failuresInRow ops + 1 := by
  simp [failuresInRow]

/-- Operations that report nothing do not change the failures in a row. -/
theorem failuresInRow_other (notSuccess : op ≠ .success) (notFailure : op ≠ .failure) :
    failuresInRow (ops ++ [(now, op)]) = failuresInRow ops := by
  simp [failuresInRow, notSuccess, notFailure]

/-- What a breaker that was new at the beginning of a history remembers of it. -/
structure Remembers (config : Config) (ops : List (Instant × Op)) (s : State) : Prop where
  failures : s.failures.toNat = min (failuresInRow ops) (UInt32.size - 1)
  closed : s.circuit = .closed ↔ failuresInRow ops < config.threshold
  opened : s.openedAt.isSome = true ↔ s.circuit ≠ .closed
  past : ∀ t, s.openedAt = some t → t ∈ ops.map Prod.fst
  idle : s.circuit ≠ .halfOpen → s.probes = 0
  probes : s.probes.toNat ≤ config.probes

/-- A new breaker remembers no failure. -/
theorem remembers_initial (noFailure : failuresInRow ops = 0) : Remembers config ops .initial := by
  constructor
  case failures => simp [noFailure, State.initial]
  case closed => simp [noFailure, State.initial, config.threshold_pos]
  case opened => simp [State.initial]
  case past => simp [State.initial]
  case idle => simp [State.initial]
  case probes => exact Nat.zero_le _

namespace Remembers

theorem toNat_nextFailures (remembers : Remembers config ops s) :
    s.nextFailures.toNat = min (failuresInRow ops + 1) (UInt32.size - 1) := by
  rw [State.nextFailures, toNat_ofNatClamp, remembers.failures]
  omega

/-- One failure more is enough for the threshold just when the count says so. The count stays the same at
its largest value, which no threshold exceeds. -/
theorem enough_iff (remembers : Remembers config ops s) :
    config.failureThreshold ≤ s.nextFailures ↔ config.threshold ≤ failuresInRow ops + 1 := by
  have bounded : config.failureThreshold.toNat < UInt32.size := config.failureThreshold.toNat_lt
  rw [UInt32.le_iff_toNat_le, remembers.toNat_nextFailures, Config.threshold]
  omega

/-- A circuit that is not closed has seen enough failures. -/
theorem enough (remembers : Remembers config ops s) (notClosed : s.circuit ≠ .closed) :
    config.threshold ≤ failuresInRow ops :=
  Nat.le_of_not_lt (mt remembers.closed.mpr notClosed)

/-- Time passes with an operation that reports nothing. -/
theorem aged (remembers : Remembers config ops s) (aged : Aged config now s s')
    (notSuccess : op ≠ .success) (notFailure : op ≠ .failure) :
    Remembers config (ops ++ [(now, op)]) s' := by
  have same : failuresInRow (ops ++ [(now, op)]) = failuresInRow ops :=
    failuresInRow_other notSuccess notFailure
  have kept : Remembers config (ops ++ [(now, op)]) s := by
    constructor
    case failures => rw [same, remembers.failures]
    case closed => rw [same, remembers.closed]
    case opened => exact remembers.opened
    case past =>
        intro t opened
        simp [remembers.past t opened]
    case idle => exact remembers.idle
    case probes => exact remembers.probes
  cases aged with
  | closed => exact kept
  | timeless => exact kept
  | waits => exact kept
  | admits notClosed =>
      constructor
      case failures => exact kept.failures
      case closed => simpa using kept.enough notClosed
      case opened => simp
      case past => simp
      case idle => simp
      case probes => exact Nat.zero_le _

/-- A permitted probe is counted, and is no operation more than the one that asked for it. -/
theorem probed (remembers : Remembers config ops s) (halfOpen : s.circuit = .halfOpen)
    (admits : s.probes.toNat < config.probes) :
    Remembers config ops { s with probes := s.probes + 1 } := by
  constructor
  case failures => exact remembers.failures
  case closed => exact remembers.closed
  case opened => exact remembers.opened
  case past => exact remembers.past
  case idle =>
      intro idle
      exact absurd halfOpen idle
  case probes =>
      rw [toNat_probes_succ admits]
      exact admits

/-- A circuit that opens has seen enough failures. -/
theorem opens (remembers : Remembers config ops s)
    (why : s.circuit = .halfOpen ∨ s.circuit = .closed ∧ config.failureThreshold ≤ s.nextFailures) :
    Remembers config (ops ++ [(now, .failure)]) ⟨.opened, s.nextFailures, some now, 0⟩ := by
  have enough : config.threshold ≤ failuresInRow ops + 1 := by
    rcases why with halfOpen | ⟨-, enough⟩
    · exact Nat.le_succ_of_le (remembers.enough (by simp [halfOpen]))
    · exact remembers.enough_iff.mp enough
  constructor
  case failures => rw [failuresInRow_failure, remembers.toNat_nextFailures]
  case closed => simpa [failuresInRow_failure] using enough
  case opened => simp
  case past => simp
  case idle => simp
  case probes => exact Nat.zero_le _

/-- A circuit that does not open at a failure is open or has not seen enough of them. -/
theorem counts (remembers : Remembers config ops s)
    (why : s.circuit = .opened ∨ s.circuit = .closed ∧ ¬ config.failureThreshold ≤ s.nextFailures) :
    Remembers config (ops ++ [(now, .failure)]) { s with failures := s.nextFailures } := by
  constructor
  case failures => rw [failuresInRow_failure, remembers.toNat_nextFailures]
  case closed =>
      rw [failuresInRow_failure]
      rcases why with opened | ⟨closed, tooFew⟩
      · have enough : config.threshold ≤ failuresInRow ops := remembers.enough (by simp [opened])
        simpa [opened] using Nat.le_succ_of_le enough
      · simpa [closed] using Nat.lt_of_not_le (mt remembers.enough_iff.mpr tooFew)
  case opened => exact remembers.opened
  case past =>
      intro t opened
      simp [remembers.past t opened]
  case idle => exact remembers.idle
  case probes => exact remembers.probes

/-- A step keeps what is remembered. -/
theorem moves {answer : op.Answer} (remembers : Remembers config ops s)
    (moves : Moves config now s op answer s') : Remembers config (ops ++ [(now, op)]) s' := by
  cases moves with
  | permits aged => exact remembers.aged aged (by simp) (by simp)
  | refuses aged => exact remembers.aged aged (by simp) (by simp)
  | shows aged => exact remembers.aged aged (by simp) (by simp)
  | probes aged halfOpen admits =>
      exact (remembers.aged aged (by simp) (by simp)).probed halfOpen admits
  | opens why => exact remembers.opens why
  | counts why => exact remembers.counts why
  | closes => exact remembers_initial failuresInRow_success

theorem run (remembers : Remembers config ops s) (later : List (Instant × Op)) :
    Remembers config (ops ++ later) (run config s later) := by
  induction later generalizing ops s with
  | nil => simpa using remembers
  | cons x later ih =>
      obtain ⟨now, op⟩ := x
      simpa using ih (remembers.moves (moves_step config now s op))

end Remembers

/-- What a breaker is after any run from its beginning. It is closed, and is seen closed, exactly while
the failures in a row are below the threshold; it has an instant to count from exactly while it is not
closed, and none that lies ahead; it counts probes only while it is half-open, and no more than it
admits; and while it is closed it permits every call. -/
theorem run_initial (config : Config) (ops : List (Instant × Op)) :
    let s := run config .initial ops
    (s.circuit = .closed ↔ failuresInRow ops < config.threshold) ∧
    (∀ now, (observe config now s).1 = .closed ↔ failuresInRow ops < config.threshold) ∧
    (s.openedAt.isSome = true ↔ s.circuit ≠ .closed) ∧
    (∀ t now, s.openedAt = some t → (∀ x ∈ ops, x.1 ≤ now) → t ≤ now) ∧
    (s.circuit ≠ .halfOpen → s.probes = 0) ∧
    s.probes.toNat ≤ config.probes ∧
    (s.circuit = .closed → ∀ now, (tryAcquire config now s).1 = true) := by
  intro s
  have remembers : Remembers config ([] ++ ops) s := (remembers_initial rfl).run ops
  rw [List.nil_append] at remembers
  refine ⟨remembers.closed, fun now => ?_, remembers.opened, ?_, remembers.idle, remembers.probes, ?_⟩
  · exact (aged_refresh config now s).closed_iff.trans remembers.closed
  · intro t now opened known
    obtain ⟨x, mem, rfl⟩ := List.mem_map.mp (remembers.past t opened)
    exact known x mem
  · intro closed now
    simp [tryAcquire, refresh, closed]

end TokenAuthority.Breaker
