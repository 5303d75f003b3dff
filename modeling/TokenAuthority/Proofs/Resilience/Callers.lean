import TokenAuthority.Proofs.Resilience.Breaker

/-!
# Callers of one breaker

Any number of callers share a breaker. Each of them asks for a permit, and one that got it reports once how
its call went. In which order they do so is open, so that a report may find the circuit in another state
than the one that gave the permit.

* `Callers`, `Callers.Step`, `Callers.Steps` — callers, one thing that one of them does, and any number.
* `Callers.StaysOpen` — the circuit is open as it opened, and nobody has been permitted a call since.
* `Callers.Leaves` — the two ways out: the recovery time has passed, or a call that was permitted before
  the opening succeeds.
* `Callers.opened_until` — a circuit that opened stays open until it leaves in one of these ways. The
  second knows no recovery time: it closes the circuit at once, and no probe has been made.
-/

namespace TokenAuthority.Breaker

/-- Callers of one breaker. -/
structure Callers where
  /-- When one of them last did something. -/
  now : Instant
  breaker : State
  /-- Who has a permit and has not reported yet. -/
  permitted : List Nat

namespace Callers

/-- What one of them does, with the answer. -/
inductive Event where
  | asks (caller : Nat) (granted : Bool)
  | succeeds (caller : Nat)
  | fails (caller : Nat)
  | looks (circuit : Circuit)

def start : Callers := ⟨.start, .initial, []⟩

/-- One thing that one of them does, at its time. -/
inductive Step (config : Config) : Callers → Instant × Event → Callers → Prop where
  /-- Who has no permit may ask for one. -/
  | asks {c : Callers} {now : Instant} {i : Nat} : c.now ≤ now → i ∉ c.permitted →
      Step config c (now, .asks i (tryAcquire config now c.breaker).1)
        ⟨now, (tryAcquire config now c.breaker).2,
          if (tryAcquire config now c.breaker).1 then i :: c.permitted else c.permitted⟩
  /-- Who has one may report, which uses it up. -/
  | succeeds {c : Callers} {now : Instant} {i : Nat} : c.now ≤ now → i ∈ c.permitted →
      Step config c (now, .succeeds i) ⟨now, recordSuccess c.breaker, c.permitted.erase i⟩
  | fails {c : Callers} {now : Instant} {i : Nat} : c.now ≤ now → i ∈ c.permitted →
      Step config c (now, .fails i) ⟨now, recordFailure config now c.breaker, c.permitted.erase i⟩
  /-- Everybody may look. -/
  | looks {c : Callers} {now : Instant} : c.now ≤ now →
      Step config c (now, .looks (observe config now c.breaker).1)
        ⟨now, (observe config now c.breaker).2, c.permitted⟩

/-- Any number of them, one after the other. -/
inductive Steps (config : Config) : Callers → List (Instant × Event) → Callers → Prop where
  | refl {c : Callers} : Steps config c [] c
  | cons {c c' c'' : Callers} {x : Instant × Event} {events : List (Instant × Event)} :
      Step config c x c' → Steps config c' events c'' → Steps config c (x :: events) c''

variable {config : Config} {c c' : Callers} {x : Instant × Event} {events : List (Instant × Event)}
  {t now : Instant} {s s' : State} {permitted : List Nat}

/-! ### Time -/

theorem Step.now_eq (step : Step config c x c') : c'.now = x.1 := by
  cases step with
  | asks => rfl
  | succeeds => rfl
  | fails => rfl
  | looks => rfl

theorem Step.le (step : Step config c x c') : c.now ≤ x.1 := by
  cases step with
  | asks later => exact later
  | succeeds later => exact later
  | fails later => exact later
  | looks later => exact later

theorem Steps.le (steps : Steps config c events c') : c.now ≤ c'.now := by
  induction steps with
  | refl => exact Nat.le_refl _
  | cons step _ ih => exact Nat.le_trans (step.now_eq ▸ step.le) ih

/-- Steps up to one event of theirs. -/
theorem Steps.split {before after : List (Instant × Event)}
    (steps : Steps config c (before ++ x :: after) c') :
    ∃ c₁ c₂, Steps config c before c₁ ∧ Step config c₁ x c₂ ∧ Steps config c₂ after c' := by
  induction before generalizing c with
  | nil =>
      cases steps with
      | cons step rest => exact ⟨_, _, .refl, step, rest⟩
  | cons y before ih =>
      cases steps with
      | cons step rest =>
          obtain ⟨c₁, c₂, first, next, last⟩ := ih rest
          exact ⟨c₁, c₂, .cons step first, next, last⟩

theorem Steps.snoc {c'' : Callers} (steps : Steps config c events c') (step : Step config c' x c'') :
    Steps config c (events ++ [x]) c'' := by
  induction steps with
  | refl => exact .cons step .refl
  | cons first _ ih => exact .cons first (ih step)

/-! ### An open circuit -/

/-- The circuit is open as it opened at `t`, nobody has been permitted a call in the events since, and
whoever has a permit had it then. -/
structure StaysOpen (t : Instant) (permitted : List Nat) (events : List (Instant × Event))
    (c : Callers) : Prop where
  opened : c.breaker.circuit = .opened
  since : c.breaker.openedAt = some t
  later : t ≤ c.now
  refused : ∀ x ∈ events, ∀ i, x.2 ≠ .asks i true
  permitted : ∀ i ∈ c.permitted, i ∈ permitted

/-- The ways out of a circuit that opened at `t`, while these callers had permits. -/
inductive Leaves (config : Config) (t : Instant) (permitted : List Nat) :
    Instant × Event → Callers → Prop where
  /-- The recovery time has passed, and probes are admitted. -/
  | recovers {now : Instant} {e : Event} {c : Callers} : t.after config.recoveryTimeout ≤ now →
      c.breaker.circuit = .halfOpen → Leaves config t permitted (now, e) c
  /-- A call that was permitted before succeeds. -/
  | closes {now : Instant} {i : Nat} {c : Callers} : i ∈ permitted →
      c.breaker.circuit = .closed → Leaves config t permitted (now, .succeeds i) c

/-- Passing time leaves a circuit as it opened until the recovery time has passed. -/
theorem aged_since (aged : Aged config now s s') (since : s.openedAt = some t) (later : t ≤ now) :
    s' = s ∨ s'.circuit = .halfOpen ∧ t.after config.recoveryTimeout ≤ now := by
  cases aged with
  | closed => exact .inl rfl
  | timeless => exact .inl rfl
  | waits => exact .inl rfl
  | @admits since' _ known passed =>
      obtain rfl : t = since' := Option.some.inj (since.symm.trans known)
      refine .inr ⟨rfl, ?_⟩
      have passed : config.recoveryTimeout.nanoseconds ≤ now.nanoseconds - t.nanoseconds := passed
      have later : t.nanoseconds ≤ now.nanoseconds := later
      change t.nanoseconds + config.recoveryTimeout.nanoseconds ≤ now.nanoseconds
      omega

/-- What a caller does is a move of the breaker. -/
theorem Step.moves (step : Step config c x c') :
    ∃ (op : Op) (answer : op.Answer), Moves config x.1 c.breaker op answer c'.breaker := by
  cases step with
  | asks => exact ⟨.acquire, _, moves_tryAcquire config _ _⟩
  | succeeds => exact ⟨.success, (), .closes⟩
  | fails => exact ⟨.failure, (), moves_recordFailure config _ _⟩
  | looks => exact ⟨.state, _, .shows (aged_refresh config _ _)⟩

/-- Whoever has a permit when a circuit opens has it from before. -/
theorem Step.opens (step : Step config c x c') (notOpen : c.breaker.circuit ≠ .opened)
    (opened : c'.breaker.circuit = .opened) : StaysOpen x.1 c'.permitted [] c' := by
  obtain ⟨op, answer, moves⟩ := step.moves
  constructor
  case opened => exact opened
  case since => exact (moves.opened notOpen opened).2
  case later => exact Nat.le_of_eq (congrArg Instant.nanoseconds step.now_eq.symm)
  case refused => simp
  case permitted => simp

namespace StaysOpen

/-- It stays open with an event that permits nothing and leaves the breaker as it was. -/
theorem snoc {e : Event} {left : List Nat} (stays : StaysOpen t permitted events c) (later : c.now ≤ now)
    (circuit : s.circuit = .opened) (since : s.openedAt = c.breaker.openedAt)
    (refused : ∀ i, e ≠ .asks i true) (fewer : ∀ i ∈ left, i ∈ c.permitted) :
    StaysOpen t permitted (events ++ [(now, e)]) ⟨now, s, left⟩ := by
  constructor
  case opened => exact circuit
  case since => exact since.trans stays.since
  case later => exact Nat.le_trans stays.later later
  case refused => 
      intro x mem
      rcases List.mem_append.mp mem with earlier | last
      · exact stays.refused x earlier
      · rw [List.mem_singleton.mp last]
        exact refused
  case permitted => exact fun i mem => stays.permitted i (fewer i mem)

theorem step (stays : StaysOpen t permitted events c) (step : Step config c x c') :
    StaysOpen t permitted (events ++ [x]) c' ∨ Leaves config t permitted x c' := by
  cases step with
  | @asks now i later =>
      have moves := moves_tryAcquire config now c.breaker
      generalize tryAcquire config now c.breaker = answer at moves
      obtain ⟨granted, s'⟩ := answer
      have passing {s : State} (aged : Aged config now c.breaker s) :=
        aged_since aged stays.since (Nat.le_trans stays.later later)
      cases moves with
      | permits aged closed =>
          exact absurd ((aged.closed_iff.mp closed).symm.trans stays.opened) (by simp)
      | @probes s' aged halfOpen =>
          rcases passing aged with rfl | ⟨-, passed⟩
          · exact absurd (halfOpen.symm.trans stays.opened) (by simp)
          · exact .inr (.recovers passed halfOpen)
      | refuses aged =>
          rcases passing aged with rfl | ⟨halfOpen, passed⟩
          · exact .inl (stays.snoc later stays.opened rfl (by simp) (by simp))
          · exact .inr (.recovers passed halfOpen)
  | succeeds _ holds => exact .inr (.closes (stays.permitted _ holds) rfl)
  | @fails now i later =>
      have counted : recordFailure config now c.breaker =
          { c.breaker with failures := c.breaker.nextFailures } := by
        simp [recordFailure, stays.opened]
      rw [counted]
      exact .inl (stays.snoc later stays.opened rfl (by simp) (fun i mem => List.mem_of_mem_erase mem))
  | @looks now later =>
      rcases aged_since (aged_refresh config now c.breaker) stays.since
        (Nat.le_trans stays.later later) with same | ⟨halfOpen, passed⟩
      · refine .inl (stays.snoc later ?_ ?_ (by simp) (by simp))
        · exact (congrArg State.circuit same).trans stays.opened
        · exact congrArg State.openedAt same
      · exact .inr (.recovers passed halfOpen)

end StaysOpen

/-- How events go on after the circuit opened at `t`, while these callers had permits: it stays open all
the time, or it does until one step leaves it. -/
inductive OpenUntil (config : Config) (t : Instant) (permitted : List Nat) (c : Callers) :
    List (Instant × Event) → Callers → Prop where
  | stays {events : List (Instant × Event)} {c' : Callers} :
      StaysOpen t permitted events c' → OpenUntil config t permitted c events c'
  | left {before after : List (Instant × Event)} {x : Instant × Event} {c₁ c₂ c' : Callers} :
      Steps config c before c₁ → StaysOpen t permitted before c₁ → Step config c₁ x c₂ →
      Leaves config t permitted x c₂ → Steps config c₂ after c' →
      OpenUntil config t permitted c (before ++ x :: after) c'

theorem StaysOpen.steps {start : Callers} {before : List (Instant × Event)}
    (first : Steps config start before c) (stays : StaysOpen t permitted before c)
    (steps : Steps config c events c') : OpenUntil config t permitted start (before ++ events) c' := by
  induction steps generalizing before with
  | refl => exact .stays (by simpa using stays)
  | cons step rest ih =>
      rcases stays.step step with stays' | leaves
      · simpa using ih (first.snoc step) stays'
      · exact .left first stays step leaves rest

/-- Whoever is permitted a call before the recovery time has passed asked after one of those who had had a
permit already reported a success. -/
theorem OpenUntil.granted {i : Nat} {before : List (Instant × Event)}
    (openUntil : OpenUntil config t permitted c (before ++ [(now, .asks i true)]) c')
    (ends : c'.now = now) (early : now < t.after config.recoveryTimeout) :
    ∃ time, ∃ j ∈ permitted, (time, .succeeds j) ∈ before := by
  generalize all : before ++ [(now, Event.asks i true)] = events at openUntil
  cases openUntil with
  | stays stays =>
      subst all
      exact absurd rfl (stays.refused (now, .asks i true) (by simp) i)
  | @left _ _ x _ _ _ _ _ step leaves rest =>
      cases leaves with
      | @recovers time e _ passed =>
          have inTime : time ≤ now := by
            have reached := step.now_eq
            have inTime := rest.le
            rwa [reached, ends] at inTime
          exact absurd (Nat.le_trans passed inTime) (Nat.not_le_of_lt early)
      | @closes time j _ held =>
          refine ⟨time, j, held, ?_⟩
          have mem : (time, Event.succeeds j) ∈ before ++ [(now, Event.asks i true)] := by
            rw [all]
            simp
          simpa using mem

/-- A circuit that opens stays open until its recovery time has passed and probes are admitted, or until
one of those who had a permit when it opened reports a success. Without such a report nobody is permitted
a call in that time; with it the circuit is closed at once, and everybody is. -/
theorem opened_until {c₁ c₂ : Callers} (notOpen : c.breaker.circuit ≠ .opened)
    (opening : Step config c x c₁) (opened : c₁.breaker.circuit = .opened)
    (steps : Steps config c₁ events c₂) :
    OpenUntil config x.1 c₁.permitted c₁ events c₂ ∧
    (∀ before now i after, events = before ++ (now, .asks i true) :: after →
      now < x.1.after config.recoveryTimeout →
      ∃ time, ∃ j ∈ c₁.permitted, (time, .succeeds j) ∈ before) ∧
    (StaysOpen x.1 c₁.permitted events c₂ → ∀ j ∈ c₂.permitted, ∀ now, c₂.now ≤ now →
      ∃ c₃, Step config c₂ (now, .succeeds j) c₃ ∧ c₃.breaker.circuit = .closed ∧
        ∀ later, (tryAcquire config later c₃.breaker).1 = true) := by
  have opens : StaysOpen x.1 c₁.permitted [] c₁ := opening.opens notOpen opened
  refine ⟨by simpa using opens.steps .refl steps, ?_, ?_⟩
  · intro before now i after split early
    subst split
    obtain ⟨c₃, c₄, first, ask, -⟩ := steps.split
    have asked : OpenUntil config x.1 c₁.permitted c₁ (before ++ [(now, .asks i true)]) c₄ := by
      simpa using opens.steps .refl (first.snoc ask)
    exact asked.granted ask.now_eq early
  · intro _ j held now later
    exact ⟨_, .succeeds later held, rfl, fun _ => rfl⟩

end Callers

end TokenAuthority.Breaker

/-! ### A success that comes late -/

namespace TokenAuthority.Sample

open Breaker

def strict : Config := { failureThreshold := 1, recoveryTimeout := Span.ofSecs 30 }

/-- Two callers are permitted a call each. The first fails and opens the circuit, the second succeeds a
second later, and a third is permitted another second later. -/
theorem granted_late :
    let second (n : Nat) : Instant := Instant.start.after (Span.ofSecs n)
    let events := [(second 2, .succeeds 1), (second 3, .asks 2 true)]
    ∃ c c₁ c₂, Callers.Steps strict .start [(second 0, .asks 0 true), (second 0, .asks 1 true)] c ∧
      c.breaker.circuit = .closed ∧ Callers.Step strict c (second 1, .fails 0) c₁ ∧
      c₁.breaker.circuit = .opened ∧ Callers.Steps strict c₁ events c₂ ∧
      Callers.OpenUntil strict (second 1) c₁.permitted c₁ events c₂ ∧
      second 3 < (second 1).after strict.recoveryTimeout ∧
      ∃ time, ∃ j ∈ c₁.permitted, (time, .succeeds j) ∈ [(second 2, Callers.Event.succeeds 1)] := by
  intro second events
  let c : Callers := ⟨second 0, .initial, [1, 0]⟩
  let c₁ : Callers := ⟨second 1, ⟨.opened, 1, some (second 1), 0⟩, [1]⟩
  have asked : Callers.Steps strict .start [(second 0, .asks 0 true), (second 0, .asks 1 true)] c :=
    .cons (.asks (by decide) (by decide)) (.cons (.asks (by decide) (by decide)) .refl)
  have opening : Callers.Step strict c (second 1, .fails 0) c₁ := .fails (by decide) (by decide)
  have steps : Callers.Steps strict c₁ events ⟨second 3, .initial, [2]⟩ :=
    .cons (.succeeds (by decide) (by decide)) (.cons (.asks (by decide) (by decide)) .refl)
  obtain ⟨openUntil, granted, -⟩ := Callers.opened_until (by decide) opening rfl steps
  have early : second 3 < (second 1).after strict.recoveryTimeout := by decide
  exact ⟨c, c₁, _, asked, rfl, opening, rfl, steps, openUntil, early,
    granted [(second 2, .succeeds 1)] (second 3) 2 [] rfl early⟩

end TokenAuthority.Sample
