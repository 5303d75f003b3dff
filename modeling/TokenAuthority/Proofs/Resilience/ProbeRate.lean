import TokenAuthority.Proofs.Resilience.Breaker

/-!
# How often a dead backend is probed

As long as no call succeeds, an open circuit permits probes only: so many in each window, and a new window
begins when the recovery time has passed since the last one did. A failed probe starts that time again and
gives no probe back, and probes that are never answered are written off with their window.

* `Breaker.grants` — when a run gives permits.
* `Breaker.recoveries` — how often the recovery time fits between two instants.
* `Breaker.Rationed` — the permits given and those that the window still admits are no more than the
  recovery times up to its beginning allow. Every step but a success keeps it.
* `Breaker.grants_le` — so the permits in any time after the opening are no more than the recovery times
  in it allow.
-/

namespace TokenAuthority.Breaker

/-- Whether an answer is a permit. -/
def Op.permits : (op : Op) → op.Answer → Bool
  | .acquire, granted => granted
  | .success, _ => false
  | .failure, _ => false
  | .state, _ => false

/-- The times at which a run gives permits. -/
def grants (config : Config) : State → List (Instant × Op) → List Instant
  | _, [] => []
  | s, (now, op) :: ops =>
    let rest := grants config (step config now s op).2 ops
    if op.permits (step config now s op).1 then now :: rest else rest

/-- How often the recovery time fits between two instants. -/
def recoveries (config : Config) (t t' : Instant) : Nat :=
  (t'.since t).nanoseconds / config.recoveryTimeout.nanoseconds

/-- The probes that a circuit still admits before its next window. -/
def probesLeft (config : Config) (s : State) : Nat :=
  if s.circuit = .halfOpen then config.probes - s.probes.toNat else 0

variable {config : Config} {t t' now since : Instant} {s s' : State} {op : Op}
  {ops : List (Instant × Op)} {granted : Nat}

theorem recoveries_mono (later : t ≤ t') : recoveries config since t ≤ recoveries config since t' :=
  Nat.div_le_div_right (Nat.sub_le_sub_right later _)

theorem recoveries_succ (positive : 0 < config.recoveryTimeout.nanoseconds) (later : since ≤ t)
    (passed : config.recoveryTimeout ≤ t'.since t) :
    recoveries config since t + 1 ≤ recoveries config since t' := by
  have later : since.nanoseconds ≤ t.nanoseconds := later
  have passed : config.recoveryTimeout.nanoseconds ≤ t'.nanoseconds - t.nanoseconds := passed
  rw [recoveries, ← Nat.add_div_right _ positive]
  apply Nat.div_le_div_right
  simp only [Instant.since]
  omega

/-- A span later the recovery time has fitted in as often as it fits the span. -/
theorem recoveries_after (T : Span) :
    recoveries config t (t.after T) = T.nanoseconds / config.recoveryTimeout.nanoseconds := by
  simp [recoveries, Instant.since, Instant.after]

/-- The first step of a run in time adds its permit, if it gives one. -/
theorem length_grants_cons (inTime : now ≤ t) :
    ((grants config s ((now, op) :: ops)).filter (· ≤ t)).length =
      (op.permits (step config now s op).1).toNat +
        ((grants config (step config now s op).2 ops).filter (· ≤ t)).length := by
  rw [grants]
  cases op.permits (step config now s op).1 with
  | false => simp
  | true => simp [inTime, Nat.add_comm]

/-- Permits are given at times of the run. -/
theorem mem_of_mem_grants (given : t ∈ grants config s ops) : t ∈ ops.map Prod.fst := by
  induction ops generalizing s with
  | nil => simp [grants] at given
  | cons x ops ih =>
      obtain ⟨now, op⟩ := x
      by_cases permits : op.permits (step config now s op).1
      · rw [grants, if_pos permits] at given
        rcases List.mem_cons.mp given with rfl | given
        · simp
        · exact List.mem_cons_of_mem _ (ih given)
      · rw [grants, if_neg permits] at given
        exact List.mem_cons_of_mem _ (ih given)

/-- Since the circuit opened at `opening`, `granted` permits have been given, and the current window began
at `since`. -/
structure Rationed (config : Config) (opening since : Instant) (granted : Nat) (s : State) : Prop where
  notClosed : s.circuit ≠ .closed
  began : s.openedAt = some since
  later : opening ≤ since
  fits : granted + probesLeft config s ≤ config.probes * recoveries config opening since

namespace Rationed

variable {opening : Instant}

/-- A circuit that has just opened admits no probe. -/
theorem opened (circuit : s.circuit = .opened) (since : s.openedAt = some opening) :
    Rationed config opening opening 0 s := by
  constructor
  case notClosed => simp [circuit]
  case began => exact since
  case later => exact Nat.le_refl _
  case fits => simp [probesLeft, circuit]

/-- A window that begins when the recovery time has passed brings its probes. -/
theorem aged (rationed : Rationed config opening since granted s)
    (positive : 0 < config.recoveryTimeout.nanoseconds) (later : since ≤ now)
    (aged : Aged config now s s') :
    ∃ since' ≤ now, Rationed config opening since' granted s' := by
  cases aged with
  | closed closed => exact absurd closed rationed.notClosed
  | timeless => exact ⟨since, later, rationed⟩
  | waits => exact ⟨since, later, rationed⟩
  | @admits since' _ known passed =>
      obtain rfl : since = since' := Option.some.inj (rationed.began.symm.trans known)
      refine ⟨now, Nat.le_refl _, ?_⟩
      constructor
      case notClosed => simp
      case began => rfl
      case later => exact Nat.le_trans rationed.later later
      case fits =>
          calc granted + probesLeft config ⟨.halfOpen, s.failures, some now, 0⟩
              = granted + config.probes := by simp [probesLeft]
            _ ≤ config.probes * recoveries config opening since + config.probes :=
                Nat.add_le_add_right (Nat.le_trans (Nat.le_add_right _ _) rationed.fits) _
            _ = config.probes * (recoveries config opening since + 1) := (Nat.mul_succ _ _).symm
            _ ≤ config.probes * recoveries config opening now :=
                Nat.mul_le_mul_left _ (recoveries_succ positive rationed.later passed)

/-- A permitted probe takes one of those that are left. -/
theorem probed (rationed : Rationed config opening since granted s) (halfOpen : s.circuit = .halfOpen)
    (admits : s.probes.toNat < config.probes) :
    Rationed config opening since (granted + 1) { s with probes := s.probes + 1 } := by
  constructor
  case notClosed => exact rationed.notClosed
  case began => exact rationed.began
  case later => exact rationed.later
  case fits =>
      have fits := rationed.fits
      simp only [probesLeft, halfOpen, if_true] at fits ⊢
      rw [toNat_probes_succ admits]
      omega

/-- Every step but a success keeps to the ration. -/
theorem step {answer : op.Answer} (rationed : Rationed config opening since granted s)
    (positive : 0 < config.recoveryTimeout.nanoseconds) (later : since ≤ now)
    (moves : Moves config now s op answer s') (notSuccess : op ≠ .success) :
    ∃ since' ≤ now, Rationed config opening since' (granted + (op.permits answer).toNat) s' := by
  cases moves with
  | permits aged closed =>
      obtain ⟨_, _, rationed⟩ := rationed.aged positive later aged
      exact absurd closed rationed.notClosed
  | probes aged halfOpen admits =>
      obtain ⟨since', later', rationed⟩ := rationed.aged positive later aged
      exact ⟨since', later', rationed.probed halfOpen admits⟩
  | refuses aged => exact rationed.aged positive later aged
  | shows aged => exact rationed.aged positive later aged
  | closes => exact absurd rfl notSuccess
  | opens =>
      refine ⟨now, Nat.le_refl _, ?_⟩
      constructor
      case notClosed => simp
      case began => rfl
      case later => exact Nat.le_trans rationed.later later
      case fits =>
          calc granted + probesLeft config ⟨.opened, s.nextFailures, some now, 0⟩
              = granted := by simp [probesLeft]
            _ ≤ config.probes * recoveries config opening since :=
                Nat.le_trans (Nat.le_add_right _ _) rationed.fits
            _ ≤ config.probes * recoveries config opening now :=
                Nat.mul_le_mul_left _ (recoveries_mono later)
  | counts =>
      refine ⟨since, later, ?_⟩
      constructor
      case notClosed => exact rationed.notClosed
      case began => exact rationed.began
      case later => exact rationed.later
      case fits => exact rationed.fits

/-- The permits given so far are allowed by the recovery times up to any later instant. -/
theorem granted_le (rationed : Rationed config opening since granted s) (later : since ≤ t) :
    granted ≤ config.probes * recoveries config opening t :=
  calc granted ≤ config.probes * recoveries config opening since :=
        Nat.le_trans (Nat.le_add_right _ _) rationed.fits
    _ ≤ config.probes * recoveries config opening t := Nat.mul_le_mul_left _ (recoveries_mono later)

/-- So are those that a run adds up to that instant. -/
theorem run (rationed : Rationed config opening since granted s)
    (positive : 0 < config.recoveryTimeout.nanoseconds) (later : since ≤ now)
    (ordered : Instant.InOrder (now :: ops.map Prod.fst)) (noSuccess : ∀ x ∈ ops, x.2 ≠ .success)
    (limit : now ≤ t) :
    granted + ((grants config s ops).filter (· ≤ t)).length ≤
      config.probes * recoveries config opening t := by
  induction ops generalizing s granted since now with
  | nil => simpa [grants] using rationed.granted_le (Nat.le_trans later limit)
  | cons x ops ih =>
      obtain ⟨now', op⟩ := x
      obtain ⟨first, ordered'⟩ := List.pairwise_cons.mp ordered
      by_cases inTime : now' ≤ t
      · obtain ⟨since', later', rationed'⟩ := rationed.step positive
          (Nat.le_trans later (first now' (by simp))) (moves_step config now' s op) (noSuccess (now', op) (by simp))
        have rest := ih rationed' later' ordered' (fun x mem => noSuccess x (by simp [mem])) inTime
        rw [length_grants_cons inTime, ← Nat.add_assoc]
        exact rest
      · have none : (grants config s ((now', op) :: ops)).filter (· ≤ t) = [] := by
          apply List.filter_eq_nil_iff.mpr
          intro given mem
          have later' : now' ≤ given := by
            rcases List.mem_cons.mp (mem_of_mem_grants mem) with rfl | mem
            · exact Nat.le_refl _
            · exact (List.pairwise_cons.mp ordered').1 given mem
          intro early
          exact inTime (Nat.le_trans later' (of_decide_eq_true early))
        rw [none]
        exact rationed.granted_le (Nat.le_trans later limit)

end Rationed

/-- After a circuit has opened and until a call succeeds, the permits given in any time `T` are no more than
the probes of a window for each recovery time in it. -/
theorem grants_le {opening : Instant} (positive : 0 < config.recoveryTimeout.nanoseconds)
    (notOpen : s.circuit ≠ .opened) (opens : (step config opening s op).2.circuit = .opened)
    (ordered : Instant.InOrder (opening :: ops.map Prod.fst)) (noSuccess : ∀ x ∈ ops, x.2 ≠ .success)
    (T : Span) :
    ((grants config (step config opening s op).2 ops).filter (· ≤ opening.after T)).length ≤
      config.probes * (T.nanoseconds / config.recoveryTimeout.nanoseconds) := by
  have opened := ((moves_step config opening s op).opened notOpen opens).2
  have rationed : Rationed config opening opening 0 (step config opening s op).2 :=
    .opened opens opened
  have inTime : opening ≤ opening.after T := Nat.le_add_right _ _
  have bounded := rationed.run positive (Nat.le_refl _) ordered noSuccess inTime
  rwa [Nat.zero_add, recoveries_after] at bounded

end TokenAuthority.Breaker

/-! ### Probes of a minute -/

namespace TokenAuthority.Sample

open Breaker

/-- Calls after a circuit with the default settings has opened: one too early, one probe that fails, one
too early again, one probe that is not answered, and one after that. -/
def probing : List (Instant × Op) :=
  let second (n : Nat) : Instant := Instant.start.after (Span.ofSecs n)
  [(second 30, .acquire), (second 60, .acquire), (second 62, .failure), (second 121, .acquire),
   (second 122, .acquire), (second 200, .acquire)]

/-- Two probes in two and a half minutes, which is as many as are allowed. -/
theorem grants_probing :
    let s := run {} .initial (List.replicate 4 (.start, .failure))
    let opened := (step {} .start s .failure).2
    s.circuit ≠ .opened ∧ opened.circuit = .opened ∧
    Instant.InOrder (.start :: probing.map Prod.fst) ∧ (∀ x ∈ probing, x.2 ≠ .success) ∧
    ((grants {} opened probing).filter (· ≤ Instant.start.after (Span.ofSecs 150))).length ≤ 2 ∧
    (grants {} opened probing).length = 3 := by
  intro s opened
  have notOpen : s.circuit ≠ .opened := by decide
  have opens : opened.circuit = .opened := by decide
  have ordered : Instant.InOrder (.start :: probing.map Prod.fst) := by decide
  have noSuccess : ∀ x ∈ probing, x.2 ≠ .success := by decide
  exact ⟨notOpen, opens, ordered, noSuccess,
    grants_le (by decide) notOpen opens ordered noSuccess (Span.ofSecs 150), by decide⟩

end TokenAuthority.Sample
