import TokenAuthority.Proofs.Resilience.Callers

/-!
# Looking at a breaker

Who looks at a circuit is shown it as it is now, and what time has made of it by then is kept. So a look is
not without effect: one that comes when the recovery time has passed begins a window of probes, although
nobody has asked for one, and the next window is counted from it.

* `Breaker.admissions`, `Breaker.blind` — who is permitted a call in a run, and the run without its looks.
* `Breaker.Overdue` — the recovery time has passed, and nobody has come since.
* `Breaker.admissions_blind` — looks at a breaker that is not overdue change nothing that it answers.
* `Breaker.looks_unseen_iff` — every other look changes an answer that is to come.
-/

namespace TokenAuthority.Breaker

/-! ### What can be told from outside -/

/-- Whether the answer to an operation permits a call, where it was asked for one. -/
def Op.admission? : (op : Op) → op.Answer → Option Bool
  | .acquire, granted => some granted
  | .success, _ => none
  | .failure, _ => none
  | .state, _ => none

/-- The answers of a run to those who ask for a permit, in their order. -/
def admissions (config : Config) : State → List (Instant × Op) → List Bool
  | _, [] => []
  | s, (now, op) :: ops =>
    (op.admission? (step config now s op).1).toList ++ admissions config (step config now s op).2 ops

/-- A run without the looks in it. -/
def blind (ops : List (Instant × Op)) : List (Instant × Op) := ops.filter (·.2 ≠ .state)

/-- The circuit is not closed, and the recovery time has passed since the instant it counts from. -/
def Overdue (config : Config) (now : Instant) (s : State) : Prop :=
  s.circuit ≠ .closed ∧ ∃ since, s.openedAt = some since ∧ config.recoveryTimeout ≤ now.since since

def LooksInTime (config : Config) : State → List (Instant × Op) → Prop
  | _, [] => True
  | s, (now, op) :: ops =>
    (op = .state → ¬ Overdue config now s) ∧ LooksInTime config (step config now s op).2 ops

variable {config : Config} {now since t : Instant} {s : State} {ops ops' : List (Instant × Op)}
  {failures probes : UInt32}

theorem admissions_append :
    admissions config s (ops ++ ops') =
      admissions config s ops ++ admissions config (run config s ops) ops' := by
  induction ops generalizing s with
  | nil => rfl
  | cons x ops ih =>
      obtain ⟨now, op⟩ := x
      simp only [List.cons_append, admissions, run_cons, ih, List.append_assoc]

/-! ### Looks in time -/

/-- Time has done nothing to a breaker that is not overdue. -/
theorem refresh_of_not_overdue (inTime : ¬ Overdue config now s) : refresh config now s = s := by
  have aged := aged_refresh config now s
  generalize refresh config now s = s' at aged
  cases aged with
  | closed => rfl
  | timeless => rfl
  | waits => rfl
  | admits notClosed known passed => exact absurd ⟨notClosed, _, known, passed⟩ inTime

/-- It has begun a window for one that is. -/
theorem refresh_of_overdue (overdue : Overdue config now s) :
    refresh config now s = ⟨.halfOpen, s.failures, some now, 0⟩ := by
  obtain ⟨notClosed, since, known, passed⟩ := overdue
  have aged := aged_refresh config now s
  generalize refresh config now s = s' at aged
  cases aged with
  | closed closed => exact absurd closed notClosed
  | timeless _ timeless => cases known.symm.trans timeless
  | waits _ known' waits =>
      cases known.symm.trans known'
      exact absurd passed (Nat.not_le_of_lt waits)
  | admits => rfl

/-- Looks at a breaker that is not overdue change nothing for those who ask for a permit, then or later. -/
theorem admissions_blind (inTime : LooksInTime config s ops) :
    admissions config s (blind ops) = admissions config s ops := by
  induction ops generalizing s with
  | nil => rfl
  | cons x ops ih =>
      obtain ⟨now, op⟩ := x
      obtain ⟨first, rest⟩ := inTime
      have rest := ih rest
      cases op with
      | acquire => simpa [blind, admissions] using rest
      | success => simpa [blind, admissions] using rest
      | failure => simpa [blind, admissions] using rest
      | state =>
          have same : (step config now s .state).2 = s := refresh_of_not_overdue (first rfl)
          rw [same] at rest
          simpa [blind, admissions, same, Op.admission?] using rest

/-! ### Looks at a breaker that is overdue -/

theorem probes_lt_iff : probes < max config.halfOpenCalls 1 ↔ probes.toNat < config.probes := by
  rw [UInt32.lt_iff_toNat_lt, toNat_max]
  rfl

/-- Who asks an overdue breaker begins a window with the first of its probes. -/
theorem tryAcquire_of_overdue (overdue : Overdue config now s) :
    tryAcquire config now s = (true, ⟨.halfOpen, s.failures, some now, 1⟩) := by
  have admits : (0 : UInt32) < max config.halfOpenCalls 1 := probes_lt_iff.mpr config.probes_pos
  simp [tryAcquire, refresh_of_overdue overdue, admits]

/-- Who asks a half-open one in its window gets a probe while there is one left. -/
theorem tryAcquire_in_window (inTime : t.since since < config.recoveryTimeout) :
    tryAcquire config t ⟨.halfOpen, failures, some since, probes⟩ =
      if probes.toNat < config.probes then (true, ⟨.halfOpen, failures, some since, probes + 1⟩)
      else (false, ⟨.halfOpen, failures, some since, probes⟩) := by
  have same : refresh config t ⟨.halfOpen, failures, some since, probes⟩ =
      ⟨.halfOpen, failures, some since, probes⟩ := by simp [refresh, inTime]
  simp only [tryAcquire, same, probes_lt_iff]

/-- So many who ask in a window get the probes that are left. -/
theorem window_admits (failures probes : UInt32) (left : Nat) (inTime : t.since since < config.recoveryTimeout)
    (fits : probes.toNat + left ≤ config.probes) :
    ∃ spent : UInt32, spent.toNat = probes.toNat + left ∧
      run config ⟨.halfOpen, failures, some since, probes⟩ (List.replicate left (t, .acquire)) =
        ⟨.halfOpen, failures, some since, spent⟩ ∧
      admissions config ⟨.halfOpen, failures, some since, probes⟩ (List.replicate left (t, .acquire)) =
        List.replicate left true := by
  induction left generalizing probes with
  | zero => exact ⟨probes, rfl, rfl, rfl⟩
  | succ left ih =>
      have admits : probes.toNat < config.probes := by omega
      have first : tryAcquire config t ⟨.halfOpen, failures, some since, probes⟩ =
          (true, ⟨.halfOpen, failures, some since, probes + 1⟩) := by
        rw [tryAcquire_in_window inTime, if_pos admits]
      have counted : (probes + 1).toNat = probes.toNat + 1 :=
        toNat_probes_succ (s := ⟨.halfOpen, failures, some since, probes⟩) admits
      obtain ⟨spent, all, runs, permits⟩ := ih (probes + 1) (by omega)
      refine ⟨spent, by omega, ?_, ?_⟩
      · rw [List.replicate_succ, run_cons, step, first]
        exact runs
      · rw [List.replicate_succ, admissions, step, first, permits]
        rfl

/-- A breaker that is overdue stays so as long as nobody comes. -/
theorem Overdue.later (overdue : Overdue config now s) (later : now ≤ t) : Overdue config t s := by
  obtain ⟨notClosed, since, known, passed⟩ := overdue
  exact ⟨notClosed, since, known, Nat.le_trans passed (Nat.sub_le_sub_right later _)⟩

/-- Calls that come one nanosecond after a look at an overdue breaker, as many as a window has probes, and
one when the recovery time has passed since the look. -/
def telling (config : Config) (now : Instant) : List (Instant × Op) :=
  List.replicate config.probes (now.after ⟨1⟩, .acquire) ++ [(now.after config.recoveryTimeout, .acquire)]

theorem inOrder_telling (positive : 0 < config.recoveryTimeout.nanoseconds) :
    Instant.InOrder (now :: (telling config now).map Prod.fst) := by
  have first : now ≤ now.after ⟨1⟩ := Nat.le_add_right _ _
  have second : now.after ⟨1⟩ ≤ now.after config.recoveryTimeout := Nat.add_le_add_left positive _
  have last : now ≤ now.after config.recoveryTimeout := Nat.le_trans first second
  have asked : (List.replicate config.probes (now.after ⟨1⟩)).Pairwise (· ≤ ·) :=
    List.pairwise_replicate.mpr (.inr (Nat.le_refl _))
  simp only [Instant.InOrder, telling, List.map_append, List.map_replicate, List.pairwise_cons,
    List.pairwise_append]
  refine ⟨?_, asked, by simp, ?_⟩
  · intro t mem
    rcases List.mem_append.mp mem with mem | mem
    · rw [List.eq_of_mem_replicate mem]
      exact first
    · rw [List.mem_singleton.mp mem]
      exact last
  · intro t mem t' mem'
    rw [List.eq_of_mem_replicate mem, List.mem_singleton.mp mem']
    exact second

/-- After the look the window has passed when the last of them comes, and it gets the first probe of the
next one. -/
theorem admissions_telling_looked (lasting : 1 < config.recoveryTimeout.nanoseconds)
    (overdue : Overdue config now s) :
    admissions config (refresh config now s) (telling config now) =
      List.replicate config.probes true ++ [true] := by
  have inTime : (now.after ⟨1⟩).since now < config.recoveryTimeout := by
    change now.nanoseconds + 1 - now.nanoseconds < config.recoveryTimeout.nanoseconds
    omega
  have passed : config.recoveryTimeout ≤ (now.after config.recoveryTimeout).since now := by
    change config.recoveryTimeout.nanoseconds ≤
      now.nanoseconds + config.recoveryTimeout.nanoseconds - now.nanoseconds
    omega
  obtain ⟨spent, -, runs, permits⟩ := window_admits s.failures 0 config.probes inTime
    (Nat.le_of_eq (Nat.zero_add _))
  have due : Overdue config (now.after config.recoveryTimeout) ⟨.halfOpen, s.failures, some now, spent⟩ :=
    ⟨by simp, now, rfl, passed⟩
  rw [telling, refresh_of_overdue overdue, admissions_append, permits, runs]
  simp [admissions, step, Op.admission?, tryAcquire_of_overdue due]

/-- Without it the window began with the first of them, and refuses the last. -/
theorem admissions_telling_unseen (positive : 0 < config.recoveryTimeout.nanoseconds)
    (overdue : Overdue config now s) :
    admissions config s (telling config now) = List.replicate config.probes true ++ [false] := by
  let began : Instant := now.after ⟨1⟩
  obtain ⟨left, probes⟩ : ∃ left, config.probes = left + 1 :=
    ⟨config.probes - 1, (Nat.succ_pred_eq_of_pos config.probes_pos).symm⟩
  have inTime : began.since began < config.recoveryTimeout := by
    change began.nanoseconds - began.nanoseconds < config.recoveryTimeout.nanoseconds
    omega
  have waits : (now.after config.recoveryTimeout).since began < config.recoveryTimeout := by
    change now.nanoseconds + config.recoveryTimeout.nanoseconds - (now.nanoseconds + 1) <
      config.recoveryTimeout.nanoseconds
    omega
  have first : tryAcquire config began s = (true, ⟨.halfOpen, s.failures, some began, 1⟩) :=
    tryAcquire_of_overdue (overdue.later (Nat.le_add_right _ _))
  obtain ⟨spent, all, runs, permits⟩ := window_admits s.failures 1 left inTime
    (by change 1 + left ≤ config.probes; omega)
  have full : ¬ spent.toNat < config.probes := by
    have all : spent.toNat = 1 + left := all
    omega
  have last : tryAcquire config (now.after config.recoveryTimeout)
      ⟨.halfOpen, s.failures, some began, spent⟩ = (false, ⟨.halfOpen, s.failures, some began, spent⟩) := by
    rw [tryAcquire_in_window waits, if_neg full]
  rw [telling, probes, List.replicate_succ, List.cons_append, admissions, step, first, admissions_append,
    permits, runs]
  simp [admissions, step, Op.admission?, last, List.replicate_succ]

/-- Looks that do not find the breaker overdue, as many as there are, change no answer of a run. One that
does find it so changes an answer to come. -/
theorem looks_unseen_iff (lasting : 1 < config.recoveryTimeout.nanoseconds) (s : State) :
    (∀ ops, LooksInTime config s ops → admissions config s (blind ops) = admissions config s ops) ∧
    ∀ before now,
      (∀ later, Instant.InOrder (now :: later.map Prod.fst) →
        admissions config s (before ++ (now, .state) :: later) = admissions config s (before ++ later)) ↔
      ¬ Overdue config now (run config s before) := by
  refine ⟨fun ops => admissions_blind, fun before now => ?_⟩
  have looked (later : List (Instant × Op)) : admissions config s (before ++ (now, .state) :: later) =
      admissions config s before ++ admissions config (refresh config now (run config s before)) later :=
    admissions_append
  constructor
  case mp =>
      intro unseen overdue
      have same := unseen (telling config now) (inOrder_telling (Nat.lt_of_succ_lt lasting))
      rw [looked, admissions_append, List.append_cancel_left_eq, admissions_telling_looked lasting overdue,
        admissions_telling_unseen (Nat.lt_of_succ_lt lasting) overdue] at same
      simp at same
  case mpr =>
      intro inTime later _
      rw [looked, admissions_append, refresh_of_not_overdue inTime]

end TokenAuthority.Breaker

/-! ### A look at the wrong time -/

namespace TokenAuthority.Sample

open Breaker

/-- A circuit opens. Somebody looks when half a minute has passed, a probe is permitted twenty seconds later,
and another call comes ten seconds after that. -/
def watched : List (Instant × Op) :=
  let second (n : Nat) : Instant := Instant.start.after (Span.ofSecs n)
  [(second 0, .acquire), (second 0, .failure), (second 30, .state), (second 50, .acquire),
   (second 60, .acquire)]

/-- The last call is permitted because of the look, and would be refused without it. -/
theorem seen_watched :
    let now := Instant.start.after (Span.ofSecs 30)
    let before := watched.take 2
    1 < strict.recoveryTimeout.nanoseconds ∧ Overdue strict now (run strict .initial before) ∧
    admissions strict .initial watched = [true, true, true] ∧
    admissions strict .initial (blind watched) = [true, true, false] ∧
    ¬ ∀ later, Instant.InOrder (now :: later.map Prod.fst) →
      admissions strict .initial (before ++ (now, .state) :: later) =
        admissions strict .initial (before ++ later) := by
  intro now before
  have lasting : 1 < strict.recoveryTimeout.nanoseconds := by decide
  have overdue : Overdue strict now (run strict .initial before) :=
    ⟨by decide, Instant.start, by decide, by decide⟩
  refine ⟨lasting, overdue, by decide, by decide, ?_⟩
  intro unseen
  exact ((looks_unseen_iff lasting .initial).2 before now).mp unseen overdue

end TokenAuthority.Sample
