import TokenAuthority.Proofs.Cache.Contract
import TokenAuthority.Proofs.Effect.Schedule

/-!
# What a schedule does to a cache

What is held under a key of a cache changes only where a call writes there, and then its event says so.

* `Event.Changes` — the events after which something else may be held under a key.
* `Scene.Steps.alike` — a schedule without such events leaves alone what is held there.
* `Scene.Steps.gains` — if all such events store one text, it is there for its time.
* `Scene.Steps.times` — when things are seen in a schedule.
-/

namespace TokenAuthority

/-- The event is the answer whether an entry was stored under a key. -/
def Event.Sets (key : String) (stored : Bool) (e : Event) : Prop :=
  ∃ time value ttl ds, e = .ended time (.cache (.setIfAbsent key value ttl)) ds (.ok (.ok stored))

/-- The event is the answer that there is no entry under a key. -/
def Event.FindsNone (key : String) (e : Event) : Prop :=
  ∃ time ds, e = .ended time (.cache (.contains key)) ds (.ok (.ok false))

/-- The event is an answer after which something else may be held under a key: the call writes there,
and has not been told that there is an entry already. -/
def Event.Changes (key : String) (e : Event) : Prop :=
  (∃ time r ds, ∃ a : r.Answer, e = .ended time (.cache r) ds (.ok a) ∧ r.Writes key) ∧
    ¬ e.Sets key false

/-- A text was stored under a key at an instant, where there was none, and is there from now on for the
rest of its time. -/
structure Cache.Gains {σ : Type} (holds : σ → Instant → String → Prop) (key : String) (ttl : Span)
    (c : σ) (stored now : Instant) (c' : σ) : Prop where
  absent : ¬ holds c stored key
  lives : ∀ t, now ≤ t → t < stored.after (Span.ofSecs ttl.lifetimeSecs) → holds c' t key

namespace Scene

variable {σ κ α : Type} {backend : Cache.Backend σ} {flow : κ → Flow α} {valid : σ → Prop}
  {holds : σ → Instant → String → Prop} {w w' : World σ} {S S' : Scene σ κ α} {key : String}

theorem Begins.alike (honours : backend.HonoursTime valid holds) (begins : Begins backend w w')
    (fine : valid w.cache) :
    valid w'.cache ∧ ∀ now key, Cache.Alike holds now key w.cache w'.cache := by
  cases begins with
  | nothing => exact ⟨fine, fun now key => .refl _⟩
  | call r =>
      obtain ⟨fine', same⟩ := honours.starts r w.now w.cache fine
      exact ⟨fine', fun now key t _ => same t key⟩

/-- What happens in a world leaves its cache in a valid state. -/
theorem Effect.keeps_valid {e : Option Event} (answers : backend.AnswersTruly valid holds)
    (effect : Effect backend w e w') (fine : valid w.cache) : valid w'.cache := by
  have begun {w₁ : World σ} (begins : Begins backend w₁ w') (fine : valid w₁.cache) :
      valid w'.cache := by
    cases begins with
    | nothing => exact fine
    | call r => exact (answers.starts r w₁.now w₁.cache fine).1
  cases effect with
  | quiet begins => exact begun begins fine
  | passed s => exact fine
  | asked q begins => exact begun begins (by rwa [World.cache_answer])
  | slept s ds begins => exact begun begins fine
  | cut wait ds i begins => exact begun begins fine
  | called ds acts finished begins => exact begun begins (answers.finishes acts fine finished).1

/-- It changes nothing under a key unless its event says so. -/
theorem Effect.alike {e : Option Event} (key : String) (honours : backend.HonoursTime valid holds)
    (effect : Effect backend w e w') (fine : valid w.cache)
    (spares : ∀ event, e = some event → ¬ event.Changes key) :
    Cache.Alike holds w.now key w.cache w'.cache := by
  cases effect with
  | quiet begins => exact (begins.alike honours fine).2 _ _
  | passed s => exact .refl _
  | asked q begins =>
      have alike := (begins.alike honours (by rwa [World.cache_answer])).2 w.now key
      rwa [World.cache_answer] at alike
  | slept s ds begins => exact (begins.alike honours fine).2 _ _
  | cut wait ds i begins => exact (begins.alike honours fine).2 _ _
  | @called r ds started before c delay finish a _ acts finished begins =>
      obtain ⟨fine', acted⟩ := honours.finishes acts fine finished
      refine .trans ?_ ((begins.alike honours fine').2 w.now key)
      by_cases writes : r.Writes key
      · have refused : Event.Sets key false (.ended w.now (.cache r) ds (.ok a)) :=
          Classical.byContradiction fun unrefused =>
            spares _ rfl ⟨⟨_, r, _, a, rfl, writes⟩, unrefused⟩
        obtain ⟨_, _, _, _, same⟩ := refused
        cases same
        exact acted.alike_of_refused key
      · exact acted.alike writes

/-- A text that has been stored is there for its time, and was not there before. -/
theorem Effect.gains {value : String} {ttl : Span} {time : Instant} {ds : List Nat}
    (honours : backend.HonoursTime valid holds)
    (effect : Effect backend w
      (some (.ended time (.cache (.setIfAbsent key value ttl)) ds (.ok (.ok true)))) w')
    (fine : valid w.cache) : Cache.Gains holds key ttl w.cache w.now w.now w'.cache := by
  cases effect with
  | called ds acts finished begins =>
      obtain ⟨fine', acted⟩ := honours.finishes acts fine finished
      cases acted with
      | kept _ untold _ => exact absurd rfl untold
      | stored _ absent _ lives =>
          refine ⟨absent, fun t later inTime => ?_⟩
          exact ((begins.alike honours fine').2 w.now key t later).mpr (lives t later inTime)

theorem Steps.keeps_valid (steps : Steps backend flow S S')
    (answers : backend.AnswersTruly valid holds) (tracked : Tracked backend flow S)
    (fine : valid S.world.cache) : valid S'.world.cache := by
  induction steps with
  | refl => exact fine
  | snoc steps step ih => exact (step.effect (steps.tracked tracked)).keeps_valid answers ih

/-- A step changes nothing under a key unless its event says so. -/
theorem Step.alike {l : Option (Nat × Event)} (step : Step backend flow S l S')
    (honours : backend.HonoursTime valid holds) (tracked : Tracked backend flow S)
    (fine : valid S.world.cache) (spares : ∀ i e, l = some (i, e) → ¬ e.Changes key) :
    Cache.Alike holds S.world.now key S.world.cache S'.world.cache := by
  refine (step.effect tracked).alike key honours fine fun event same => ?_
  obtain ⟨⟨i, _⟩, rfl, rfl⟩ := Option.map_eq_some_iff.mp same
  exact spares i _ rfl

theorem Step.event_mem {i : Nat} {e : Event} (step : Step backend flow S (some (i, e)) S') :
    e ∈ S'.seen i := by
  rw [step.seen i, extend, if_pos rfl]
  exact List.mem_append_right _ (List.mem_singleton_self e)

/-- A schedule that no event says to change anything under a key leaves alone what is held there. -/
theorem Steps.alike (steps : Steps backend flow S S') (honours : backend.HonoursTime valid holds)
    (tracked : Tracked backend flow S) (fine : valid S.world.cache)
    (spares : ∀ i, ∀ e ∈ S'.seen i, ¬ e.Changes key) :
    Cache.Alike holds S'.world.now key S.world.cache S'.world.cache := by
  induction steps with
  | refl => exact .refl _
  | @snoc S' S'' l steps step ih =>
      have last : Steps backend flow S' S'' := .snoc (.refl _) step
      have before := ih fun i e mem => spares i e (last.mem_seen mem)
      have alike : Cache.Alike holds S'.world.now key S'.world.cache S''.world.cache :=
        step.alike honours (steps.tracked tracked)
          (steps.keeps_valid honours.answersTruly tracked fine) fun i e same => by
            subst same
            exact spares i e step.event_mem
      exact (before.trans alike).later (step.effect (steps.tracked tracked)).now

/-- If all events of a schedule that may change something under a key store one text, and there is one,
then that text was stored and is there for its time. -/
theorem Steps.gains {value : String} {ttl : Span} {i : Nat} {e : Event}
    (steps : Steps backend flow S S') (honours : backend.HonoursTime valid holds)
    (tracked : Tracked backend flow S) (fine : valid S.world.cache)
    (unseen : ∀ j, ∀ e ∈ S.seen j, ¬ e.Changes key)
    (stores : ∀ j, ∀ e ∈ S'.seen j, e.Changes key →
      ∃ time ds, e = .ended time (.cache (.setIfAbsent key value ttl)) ds (.ok (.ok true)))
    (mem : e ∈ S'.seen i) (changes : e.Changes key) :
    ∃ stored, S.world.now ≤ stored ∧ stored ≤ S'.world.now ∧
      Cache.Gains holds key ttl S.world.cache stored S'.world.now S'.world.cache := by
  induction steps generalizing i e with
  | refl => exact absurd changes (unseen i e mem)
  | @snoc S' S'' l steps step ih =>
      have last : Steps backend flow S' S'' := .snoc (.refl _) step
      have stores' := fun j e mem => stores j e (last.mem_seen mem)
      have tracked' := steps.tracked tracked
      have fine' := steps.keeps_valid honours.answersTruly tracked fine
      have effect := step.effect tracked'
      by_cases newly : ∃ j e, l = some (j, e) ∧ e.Changes key
      · obtain ⟨j, e, rfl, changes⟩ := newly
        obtain ⟨time, ds, rfl⟩ := stores j e step.event_mem changes
        have gains := effect.gains honours fine'
        have still : S''.world.now = S'.world.now := effect.seen.1
        rw [still]
        by_cases before : ∃ j, ∃ e ∈ S'.seen j, e.Changes key
        · -- it has been stored again, after its time was over
          obtain ⟨j, e, mem, changes⟩ := before
          obtain ⟨stored, first, past, gained⟩ := ih stores' mem changes
          refine ⟨stored, first, past, gained.absent, fun t later inTime => gains.lives t later ?_⟩
          exact Nat.lt_of_lt_of_le inTime (Nat.add_le_add_right past _)
        · have alike := steps.alike honours tracked fine fun j e mem changes =>
            before ⟨j, e, mem, changes⟩
          refine ⟨S'.world.now, steps.now tracked, Nat.le_refl _, ?_, gains.lives⟩
          exact fun there => gains.absent ((alike _ (Nat.le_refl _)).mpr there)
      · have alike : Cache.Alike holds S'.world.now key S'.world.cache S''.world.cache :=
          step.alike honours tracked' fine' fun j e same changes => newly ⟨j, e, same, changes⟩
        rcases step.mem_seen mem with mem | same
        · obtain ⟨stored, first, past, gained⟩ := ih stores' mem changes
          refine ⟨stored, first, Nat.le_trans past effect.now, gained.absent, fun t later inTime => ?_⟩
          have later' := Nat.le_trans effect.now later
          exact (alike t later').mpr (gained.lives t later' inTime)
        · exact absurd ⟨i, e, same, changes⟩ newly

/-- What is seen in a schedule is seen between its begin and its end. -/
theorem Steps.times {i : Nat} {e : Event} (steps : Steps backend flow S S')
    (tracked : Tracked backend flow S) (start : S.strands = []) (mem : e ∈ S'.seen i) :
    S.world.now ≤ e.time ∧ e.time ≤ S'.world.now := by
  induction steps with
  | refl =>
      rw [Scene.seen, start] at mem
      exact (List.not_mem_nil mem).elim
  | @snoc S' S'' l steps step ih =>
      have effect := step.effect (steps.tracked tracked)
      rcases step.mem_seen mem with mem | rfl
      · exact ⟨(ih mem).1, Nat.le_trans (ih mem).2 effect.now⟩
      · obtain ⟨_, time, _⟩ := effect.seen
        rw [time]
        exact ⟨steps.now tracked, effect.now⟩

end Scene

end TokenAuthority
