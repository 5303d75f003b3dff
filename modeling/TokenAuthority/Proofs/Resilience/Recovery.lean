import TokenAuthority.Proofs.Effect.Schedule
import TokenAuthority.Proofs.Resilience.Callers

/-!
# A breaker recovers

A caller that was permitted a call may go without a word. Nobody then gives its probe back, and a window
all of whose probes went that way answers no to everybody. It does so for one recovery time only.

* `Breaker.Remembers.recovers` — whatever a breaker remembers, it permits a call once the recovery time has
  passed since its last operation.
* `Breaker.tryAcquire_recovers` — so a breaker with any history does, whether or not its permits were
  followed by reports.
* `Scene.Steps.operates` — what calls side by side make of a breaker is such a history.
* `Scene.Steps.recovers` — so their breaker recovers too, whichever of them have gone and where.
-/

namespace TokenAuthority

namespace Breaker

variable {config : Config} {t t' : Instant} {s : State} {ops : List (Instant × Op)}

/-- A breaker that is left alone for the recovery time permits the next call. -/
theorem Remembers.recovers (remembers : Remembers config ops s) (noLater : ∀ x ∈ ops, x.1 ≤ t)
    (recovered : t.after config.recoveryTimeout ≤ t') : (tryAcquire config t' s).1 = true := by
  have moves := moves_tryAcquire config t' s
  generalize tryAcquire config t' s = answer at moves
  obtain ⟨granted, s'⟩ := answer
  dsimp only at moves ⊢
  cases moves with
  | permits => rfl
  | probes => rfl
  | refuses aged why =>
      cases aged with
      | closed closed => simp [closed] at why
      | timeless notClosed timeless =>
          have known := remembers.opened.mpr notClosed
          simp [timeless] at known
      | @waits since _ known waits =>
          -- It counts from an operation of its history, so it has waited long enough.
          obtain ⟨x, mem, rfl⟩ := List.mem_map.mp (remembers.past since known)
          have inTime : x.1.nanoseconds ≤ t.nanoseconds := noLater x mem
          have recovered : t.nanoseconds + config.recoveryTimeout.nanoseconds ≤ t'.nanoseconds := recovered
          have waits : t'.nanoseconds - x.1.nanoseconds < config.recoveryTimeout.nanoseconds := waits
          omega
      | admits =>
          rcases why with opened | ⟨-, spent⟩
          · simp at opened
          · exact absurd spent (Nat.not_le_of_lt config.probes_pos)

/-- Whatever has been asked of a new breaker and reported to it, and whichever of its permits were never
followed by a report: if nothing happens to it for the recovery time, it permits the next call. -/
theorem tryAcquire_recovers (noLater : ∀ x ∈ ops, x.1 ≤ t)
    (recovered : t.after config.recoveryTimeout ≤ t') :
    (tryAcquire config t' (run config .initial ops)).1 = true :=
  have remembers : Remembers config ([] ++ ops) (run config .initial ops) := (remembers_initial rfl).run ops
  remembers.recovers noLater recovered

end Breaker

namespace Scene

variable {σ κ α : Type} {backend : Cache.Backend σ} {flow : κ → Flow α}

/-- What an event does to the breaker is an operation at its time, or nothing. -/
theorem Effect.operates {w w' : World σ} {e : Option Event} (effect : Effect backend w e w') :
    ∃ ops : List (Instant × Breaker.Op), (∀ x ∈ ops, x.1 = w.now) ∧
      w'.breaker = { w.breaker with
        state := Breaker.run w.breaker.config w.breaker.state ops } := by
  cases effect with
  | quiet begins => exact ⟨[], by simp, begins.breaker⟩
  | passed s => exact ⟨[], by simp, rfl⟩
  | called ds _ _ begins => exact ⟨[], by simp, begins.breaker⟩
  | slept s ds begins => exact ⟨[], by simp, begins.breaker⟩
  | cut wait ds i begins => exact ⟨[], by simp, begins.breaker⟩
  | asked q begins =>
      cases q with
      | circuit op => exact ⟨[(w.now, op)], by simp, begins.breaker⟩
      | timer => exact ⟨[], by simp, begins.breaker⟩
      | clock => exact ⟨[], by simp, begins.breaker⟩
      | draw count => exact ⟨[], by simp, begins.breaker⟩
      | factor => exact ⟨[], by simp, begins.breaker⟩
      | count event => exact ⟨[], by simp, begins.breaker⟩

/-- What calls side by side do to their breaker is a history of operations, each at its time. -/
theorem Steps.operates {S S' : Scene σ κ α} (steps : Steps backend flow S S')
    (tracked : Tracked backend flow S) :
    ∃ ops : List (Instant × Breaker.Op), (∀ x ∈ ops, x.1 ≤ S'.world.now) ∧
      S'.world.breaker = { S.world.breaker with
        state := Breaker.run S.world.breaker.config S.world.breaker.state ops } := by
  induction steps with
  | refl => exact ⟨[], by simp, rfl⟩
  | @snoc S' S'' l steps step ih =>
      obtain ⟨before, earlier, was⟩ := ih
      have effect := step.effect (steps.tracked tracked)
      obtain ⟨last, times, becomes⟩ := effect.operates
      refine ⟨before ++ last, ?_, ?_⟩
      · intro x mem
        rcases List.mem_append.mp mem with mem | mem
        · exact Nat.le_trans (earlier x mem) effect.now
        · rw [times x mem]
          exact effect.now
      · rw [becomes, was, Breaker.run_append]

/-- The breaker of calls side by side permits a call once it was left alone for the recovery time, however
many of them went without a report. -/
theorem Steps.recovers {w : World σ} {S : Scene σ κ α} {t' : Instant}
    (new : w.breaker.state = .initial) (steps : Steps backend flow ⟨w, []⟩ S)
    (recovered : S.world.now.after S.world.breaker.config.recoveryTimeout ≤ t') :
    (Breaker.tryAcquire S.world.breaker.config t' S.world.breaker.state).1 = true := by
  obtain ⟨ops, noLater, becomes⟩ := steps.operates (tracked_nil w)
  rw [becomes, new] at recovered ⊢
  exact Breaker.tryAcquire_recovers noLater recovered

end Scene

end TokenAuthority

/-! ### A probe that is never answered -/

namespace TokenAuthority.Sample

open Breaker

/-- A circuit opens, its only probe is given away half a minute later, and nothing is heard of it. A second
before another half minute has passed the next caller is refused, then it is permitted. -/
theorem recovers_unanswered :
    let second (n : Nat) : Instant := Instant.start.after (Span.ofSecs n)
    let ops : List (Instant × Op) := [(second 0, .acquire), (second 0, .failure), (second 30, .acquire)]
    (∀ x ∈ ops, x.1 ≤ second 30) ∧ (second 30).after strict.recoveryTimeout ≤ second 60 ∧
    (tryAcquire strict (second 59) (run strict .initial ops)).1 = false ∧
    (tryAcquire strict (second 60) (run strict .initial ops)).1 = true := by
  intro second ops
  have noLater : ∀ x ∈ ops, x.1 ≤ second 30 := by decide
  have recovered : (second 30).after strict.recoveryTimeout ≤ second 60 := by decide
  exact ⟨noLater, recovered, by decide, tryAcquire_recovers noLater recovered⟩

end TokenAuthority.Sample
