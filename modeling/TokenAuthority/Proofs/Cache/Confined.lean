import TokenAuthority.Proofs.Cache.Contract
import TokenAuthority.Proofs.Cache.Counter
import TokenAuthority.Proofs.Effect.Recorded

/-!
# Runs that leave a key alone

A call of a cache touches no key but its own, and a call that only looks touches none. So what is held under
a key is the same after a run as before it, unless the run makes a call that writes there.

* `Cache.Backend.Confined` — what a cache has to promise for that; whether it answers, fails or hangs does
  not matter. A cache that answers truly promises it of the presence of its texts, and a cache in memory,
  also behind a script, of each of its entries as it is.
* `Event.Writes`, `Rule.sparing` — the calls that write under a key, and the rule that none is made.
* `Action.Ensures.run_alike` — what keeps to that rule leaves the key alone.
-/

namespace TokenAuthority

namespace Cache

/-- A call changes nothing that is seen under any key but its own. Its states are those that are `valid`,
and `holds` is what is seen of them under a key from an instant on. -/
structure Backend.Confined {σ : Type} (backend : Backend σ) (valid : σ → Prop)
    (holds : σ → Instant → String → Prop) : Prop where
  starts : ∀ r now c, valid c → valid (backend.start r now c).1 ∧
    ∀ key, ¬ r.Writes key → Alike holds now key c (backend.start r now c).1
  finishes : ∀ {r started before delay finish now c a c'},
    (backend.start r started before).2 = .acts delay finish → valid c → finish now c = .ok (a, c') →
      valid c' ∧ ∀ key, ¬ r.Writes key → Alike holds now key c c'

theorem Backend.AnswersTruly.confined {σ : Type} {backend : Backend σ} {valid : σ → Prop}
    {holds : σ → Instant → String → Prop} (answers : backend.AnswersTruly valid holds) :
    backend.Confined valid holds :=
  ⟨answers.starts, answers.finishes⟩

/-- A cache in memory changes no entry under another key, neither its text nor its end. -/
theorem Memory.confined (e : Memory.Entry) :
    Memory.backend.Confined Memory.Valid fun m t key => m.live? t key = some e where
  starts r now m valid := ⟨valid, fun key _ => .refl m⟩
  finishes begun valid done := by
    cases begun
    refine ⟨(Memory.perform_acts valid done).1, ?_⟩
    intro key spares t later
    dsimp only
    rw [Memory.live?_of_perform valid done spares later]

namespace Scripted

variable {c c' : Scripted} {r : Request} {a : r.Answer} {now : Instant}

/-- A call that is passed on changes no entry under another key. -/
theorem alike_of_passOn (e : Memory.Entry) (valid : c.memory.Valid) (done : passOn r now c = .ok (a, c')) :
    c'.memory.Valid ∧ ∀ key, ¬ r.Writes key →
      Alike (fun c t key => c.memory.live? t key = some e) now key c c' := by
  obtain ⟨m, performed, rfl⟩ := exists_perform_of_passOn done
  have begun : (Memory.backend.start r now c.memory).2 = .acts none fun t m => m.perform t r := rfl
  exact (Memory.confined e).finishes begun valid performed

/-- Nor does one that follows a script, whatever the script says. -/
theorem alike_of_pending (e : Memory.Entry) {act : Act} {delay delay' : Option Span}
    {finish : Instant → Scripted → Except Fault (r.Answer × Scripted)}
    (begun : pending act delay r = .acts delay' finish) (valid : c.memory.Valid)
    (done : finish now c = .ok (a, c')) :
    c'.memory.Valid ∧ ∀ key, ¬ r.Writes key →
      Alike (fun c t key => c.memory.live? t key = some e) now key c c' := by
  induction act generalizing delay with
  | pass =>
      cases begun
      exact alike_of_passOn e valid done
  | fail error =>
      cases begun
      cases done
      exact ⟨valid, fun key _ => .refl c⟩
  | hang => cases begun
  | answer text =>
      cases r with
      | get key =>
          cases begun
          cases done
          exact ⟨valid, fun key _ => .refl c⟩
      | setIfAbsent key value ttl =>
          cases begun
          exact alike_of_passOn e valid done
      | contains key =>
          cases begun
          exact alike_of_passOn e valid done
      | delete key =>
          cases begun
          exact alike_of_passOn e valid done
      | increment key window =>
          cases begun
          exact alike_of_passOn e valid done
      | ping =>
          cases begun
          exact alike_of_passOn e valid done
  | after s act ih => exact ih begun

theorem confined (name : String) (e : Memory.Entry) :
    (backend name).Confined (fun c => c.memory.Valid) fun c t key => c.memory.live? t key = some e where
  starts r now c valid := by
    obtain ⟨_ | ⟨act, script⟩, default, calls, memory⟩ := c
    · exact ⟨valid, fun key _ => fun t _ => Iff.rfl⟩
    · exact ⟨valid, fun key _ => fun t _ => Iff.rfl⟩
  finishes begun valid done := alike_of_pending e begun valid done

end Scripted

end Cache

/-! ### Runs -/

/-- The event is the end of a call that writes under a key. -/
def Event.Writes (key : String) : Event → Prop
  | .ended _ (.cache r) _ _ => r.Writes key
  | _ => False

/-- The rule that no call writes under a key. -/
def Rule.sparing (key : String) : Rule := ⟨fun _ e => ¬ e.Writes key, fun _ _ => True⟩

section Runs

variable {σ α : Type} {backend : Cache.Backend σ} {valid : σ → Prop}
  {holds : σ → Instant → String → Prop} {key : String} {w w' : World σ} {wait : Wait} {ds : List Nat}

/-- The wait is not for a call that writes under a key. -/
def Wait.Spares (key : String) (wait : Wait) : Prop := ∀ r, wait = .cache r → ¬ r.Writes key

theorem World.alike_await (ds : List Nat) (confined : backend.Confined valid holds) (fine : valid w.cache)
    (spares : wait.Spares key) :
    valid (w.await backend wait ds).1.cache ∧
      Cache.Alike holds w.now key w.cache (w.await backend wait ds).1.cache := by
  rw [await_fst]
  cases wait with
  | sleep s => exact ⟨fine, .refl _⟩
  | never => exact ⟨fine, .refl _⟩
  | cache r =>
      obtain ⟨fine', alike⟩ := confined.starts r w.now w.cache fine
      exact ⟨fine', alike key (spares r rfl)⟩

/-- What is due of a wait that has begun leaves the key alone. -/
theorem World.alike_due (confined : backend.Confined valid holds) (spares : wait.Spares key) {tick : Nat}
    {finish : Instant → σ → Except Fault (wait.Answer × σ)}
    (due : (w.await backend wait ds).2.due = some (tick, finish)) {now : Instant} {c c' : σ}
    {a : wait.Answer} (fine : valid c) (done : finish now c = .ok (a, c')) :
    valid c' ∧ Cache.Alike holds now key c c' := by
  cases wait with
  | sleep s =>
      cases due
      cases done
      exact ⟨fine, .refl _⟩
  | never => cases due
  | cache r =>
      unfold World.await World.begin at due
      dsimp only at due
      split at due <;> rename_i begun
      all_goals
        obtain ⟨-, begun⟩ := Prod.mk.inj begun
        cases due
      all_goals
        obtain ⟨fine', alike⟩ := confined.finishes begun fine done
        exact ⟨fine', alike key (spares r rfl)⟩

/-- A wait that is over has left the key alone. -/
theorem World.alike_settle (confined : backend.Confined valid holds) (spares : wait.Spares key)
    {woken settled : World σ} {x : Except Interruption wait.Answer}
    (settles : (w.await backend wait ds).2.settle? woken = some (x, settled))
    (fine : valid woken.cache) :
    valid settled.cache ∧ Cache.Alike holds woken.now key woken.cache settled.cache := by
  cases x with
  | error i =>
      rw [Waiting.settle?_error settles]
      exact ⟨fine, .refl _⟩
  | ok a =>
      obtain ⟨tick, finish, c, due, _, done, rfl⟩ := Waiting.settle?_ok settles
      exact World.alike_due confined spares due fine done

/-- What makes no call that writes under a key leaves the key alone. -/
theorem Flow.Meets.run_alike {f : Flow α} {Q : History → Except Fault α → Prop} {h : History}
    (meets : f.Meets (.sparing key) Q h) (confined : backend.Confined valid holds) (fine : valid w.cache) :
    Cache.Alike holds (f.run backend w).2.now key w.cache (f.run backend w).2.cache := by
  induction f generalizing w h with
  | done a => exact .refl _
  | fault e => exact .refl _
  | ask q next ih =>
      have rest := ih (w.answer q).1 (meets w.now (w.answer q).1).2 (w := (w.answer q).2)
      rw [World.cache_answer] at rest
      exact rest fine
  | await wait ds next ih =>
      have spares : wait.Spares key := by
        intro r same
        subst same
        -- The rule speaks of the call whether it is answered or not.
        exact (meets w.now (.error (.deadline 0))).1
      obtain ⟨fine', begun⟩ := World.alike_await ds confined fine spares
      have moved (tick : Nat) :
          Cache.Alike holds ((w.await backend wait ds).1.advanceTo tick).now key w.cache
            ((w.await backend wait ds).1.advanceTo tick).cache := by
        rw [World.now_advanceTo, World.now_await]
        exact begun.later (Instant.le_advanceTo _ _)
      simp only [run]
      split
      · rw [World.now_await]
        exact begun
      · rename_i tick _
        split
        · exact moved tick
        · rename_i x settled settles
          obtain ⟨fine'', ended⟩ := World.alike_settle confined spares settles fine'
          have later := Flow.now_le_run backend (next x) settled
          have now : settled.now = _ := (Waiting.settle?_keeps settles).1
          rw [now] at later
          exact (((moved tick).trans ended).later later).trans (ih x (meets w.now x).2 fine'')

/-- An action that makes no call that writes under a key leaves the key alone. -/
theorem Action.Ensures.run_alike {a : Action α} {post : History → Except Interruption α → Prop}
    (ensures : a.Ensures (.sparing key) [] [] post) (confined : backend.Confined valid holds)
    (fine : valid w.cache) :
    Cache.Alike holds (a.run backend w).2.now key w.cache (a.run backend w).2.cache := by
  have alike := ensures.start.run_alike confined fine
  unfold Action.run
  split <;> rename_i ended <;> rwa [ended] at alike

end Runs

end TokenAuthority
