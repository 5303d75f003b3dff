import TokenAuthority.Proofs.Cache.Changes
import TokenAuthority.Proofs.Effect.Alone

/-!
# Caches that act without an answer

A call that fails, or is given up by its caller, may have been carried out all the same. If a cache just
answers truly, then what a call finds may be what it has put there itself, in an attempt that failed.

* `Cache.Backend.losing` — a cache whose answers may get lost on their way. `HonoursTime.losing` — those
  that arrive are true.
* `Scene.Undisturbed` — a schedule in which nothing changes under a key but by steps of one call.
* `Scene.Undisturbed.not_finds` — if there was nothing under the key, that call finds nothing there,
  unless it has itself made a call that may have stored something.
* `Scene.EndsAlone` — a call that has ended without rivals, from its beginning on.
-/

namespace TokenAuthority

/-- The event is the answer that there is something under a key: a look-up finds it, or a call to store
something is refused. -/
def Event.Finds (key : String) (e : Event) : Prop :=
  (∃ time ds, e = .ended time (.cache (.contains key)) ds (.ok (.ok true))) ∨ e.Sets key false

/-- The event is the end of a cache call that writes under a key, and was not just refused. -/
def Event.MayWrite (key : String) (e : Event) : Prop :=
  (∃ time r ds x, e = .ended time (.cache r) ds x ∧ r.Writes key) ∧ ¬ e.Sets key false

/-- The answer to a question finds nothing. -/
theorem Event.not_finds_answered {key : String} {time : Instant} {q : Query} {x : q.Answer} :
    ¬ (Event.answered time q x).Finds key := by
  rintro (⟨_, _, impossible⟩ | ⟨_, _, _, _, impossible⟩) <;> cases impossible

/-- Nor does a sleep. -/
theorem Event.not_finds_slept {key : String} {time : Instant} {s : Span} {ds : List Nat}
    {x : Except Interruption Unit} : ¬ (Event.ended time (.sleep s) ds x).Finds key := by
  rintro (⟨_, _, impossible⟩ | ⟨_, _, _, _, impossible⟩) <;> cases impossible

/-- Nor does a wait that is given up. -/
theorem Event.not_finds_cut {key : String} {time : Instant} {wait : Wait} {ds : List Nat}
    {i : Interruption} : ¬ (Event.ended time wait ds (.error i)).Finds key := by
  rintro (⟨_, _, impossible⟩ | ⟨_, _, _, _, impossible⟩) <;> cases impossible

namespace Cache

variable {σ : Type} {backend : Backend σ} {valid : σ → Prop} {holds : σ → Instant → String → Prop}
  {now : Instant} {key : String} {c c' : σ}

/-! ### Answers that get lost -/

namespace Backend

/-- A cache whose answers may get lost: the list says which of the calls to come are carried out at once
and never answered. -/
def losing (backend : Backend σ) : Backend (List Bool × σ) where
  name := backend.name
  start r now c :=
    let (c', pending) := backend.start r now c.2
    match c.1, pending with
    | true :: lost, .acts _ finish =>
      match finish now c' with
      | .ok (_, c'') => ((lost, c''), .never)
      | .error _ => ((lost, c'), .never)
    | lost, .acts delay finish =>
      ((lost.tail, c'), .acts delay fun now c => do
        let (a, c') ← finish now c.2
        return (a, (c.1, c')))
    | lost, .never => ((lost.tail, c'), .never)

variable {r : Request} {c : List Bool × σ}

/-- What a call of such a cache does when it starts is what it would do without losses, when it starts or
altogether. -/
theorem losing_start (fine : valid c.2) (honours : backend.HonoursTime valid holds) :
    valid (backend.losing.start r now c).1.2 ∧ ∀ key, ¬ r.Writes key →
      Alike holds now key c.2 (backend.losing.start r now c).1.2 := by
  obtain ⟨fine', same⟩ := honours.starts r now c.2 fine
  have begun (key : String) : Alike holds now key c.2 (backend.start r now c.2).1 :=
    fun t _ => same t key
  unfold losing
  dsimp only
  split
  · rename_i lost delay finish _ acts
    split
    · rename_i a c' finished
      obtain ⟨fine'', acted⟩ := honours.finishes acts fine' finished
      exact ⟨fine'', fun key spares => (begun key).trans (acted.alike spares)⟩
    · exact ⟨fine', fun key _ => begun key⟩
  · exact ⟨fine', fun key _ => begun key⟩
  · exact ⟨fine', fun key _ => begun key⟩

/-- A call that such a cache answers is one that is not lost. -/
theorem losing_acts {delay : Option Span} {started : Instant}
    {finish : Instant → List Bool × σ → Except Fault (r.Answer × (List Bool × σ))}
    (acts : (backend.losing.start r started c).2 = .acts delay finish) :
    (backend.losing.start r started c).1.2 = (backend.start r started c.2).1 ∧
      ∃ finish', (backend.start r started c.2).2 = .acts delay finish' ∧
        ∀ {now c a c'}, finish now c = .ok (a, c') → finish' now c.2 = .ok (a, c'.2) := by
  unfold losing at acts ⊢
  dsimp only at acts ⊢
  split at acts
  · split at acts <;> cases acts
  · rename_i finish' begun _
    cases acts
    refine ⟨rfl, finish', begun, ?_⟩
    intro now c a c' finished
    change (finish' now c.2 >>= fun x => pure (x.1, c.1, x.2)) = _ at finished
    cases performed : finish' now c.2 with
    | error f =>
        rw [performed] at finished
        cases finished
    | ok x =>
        rw [performed] at finished
        cases finished
        rfl
  · cases acts

/-- Whatever gets lost, the answers that arrive are true. -/
theorem HonoursTime.losing (honours : backend.HonoursTime valid holds) :
    backend.losing.AnswersTruly (fun c => valid c.2) (fun c => holds c.2) where
  starts r now c fine := losing_start fine honours
  finishes acts fine finished := by
    obtain ⟨_, finish', acts', same⟩ := losing_acts acts
    obtain ⟨fine', acted⟩ := honours.finishes acts' fine (same finished)
    exact ⟨fine', fun key spares => acted.alike spares⟩
  finds acts before fine finished := by
    obtain ⟨_, finish', acts', same⟩ := losing_acts acts
    exact honours.answersTruly.finds acts' before fine (same finished)
  refuses acts before fine finished := by
    obtain ⟨started, finish', acts', same⟩ := losing_acts acts
    have refused := honours.answersTruly.refuses acts' before fine (same finished)
    rwa [← started] at refused

end Backend

end Cache

namespace Scene

variable {σ κ α : Type} (backend : Cache.Backend σ) (flow : κ → Flow α)
  (holds : σ → Instant → String → Prop) (key : String) (i : Nat)

/-- Any number of steps in which nothing changes under a key, but by steps in which the call with a
number has a part. -/
inductive Undisturbed : Scene σ κ α → Scene σ κ α → Prop where
  | refl (S : Scene σ κ α) : Undisturbed S S
  | snoc {S S' S'' : Scene σ κ α} {l : Option (Nat × Event)} :
      Undisturbed S S' → Step backend flow S' l S'' →
      (S''.strands[i]? = S'.strands[i]? →
        Cache.Alike holds S'.world.now key S'.world.cache S''.world.cache) →
      Undisturbed S S''

variable {backend flow holds key i} {valid : σ → Prop} {w w' : World σ} {S S' : Scene σ κ α}

theorem Undisturbed.steps (path : Undisturbed backend flow holds key i S S') :
    Steps backend flow S S' := by
  induction path with
  | refl => exact .refl _
  | snoc _ step _ ih => exact .snoc ih step

/-! ### What a step keeps -/

/-- There is nothing under the key, or the call is waiting for the cache, and only beginning to wait may
have put something there: there was nothing in the world in which the wait began. -/
def Clear (backend : Cache.Backend σ) (valid : σ → Prop) (holds : σ → Instant → String → Prop)
    (key : String) (w : World σ) : Except Fault (Pool.Member σ α) → Prop
  | .ok (.waiting wait started _) => ∃ w₀ ds, started = (World.await w₀ backend wait ds).2 ∧
      valid w₀.cache ∧ w₀.now ≤ w.now ∧ Cache.Lacks holds key w₀.now w₀.cache ∧
      (Cache.Alike holds w₀.now key w₀.cache (w₀.begin backend wait).1.cache →
        Cache.Lacks holds key w.now w.cache)
  | .ok _ => Cache.Lacks holds key w.now w.cache
  | .error _ => True

/-- What is taken up where there is nothing is clear. -/
theorem clear_take {f : Flow α} (fine : valid w.cache) (lacks : Cache.Lacks holds key w.now w.cache) :
    Clear backend valid holds key (take backend f w).2 (take backend f w).1 := by
  cases f with
  | done a => exact lacks
  | fault e => trivial
  | ask q next => exact lacks
  | await wait ds next =>
      have began : (take backend (.await wait ds next) w).2 = (w.begin backend wait).1 :=
        World.await_fst backend w wait ds
      have still : (w.begin backend wait).1.now = w.now := by
        rw [← World.await_fst backend w wait ds, World.now_await]
      rw [began]
      refine ⟨w, ds, rfl, fine, Nat.le_of_eq (congrArg _ still.symm), lacks, fun alike => ?_⟩
      rw [still]
      exact lacks.alike alike

/-- What changes nothing under the key, at any time, keeps a call clear. -/
theorem Clear.alike {place : Except Fault (Pool.Member σ α)}
    (clear : Clear backend valid holds key w place) (later : w.now ≤ w'.now)
    (alike : Cache.Alike holds w.now key w.cache w'.cache) :
    Clear backend valid holds key w' place := by
  match place with
  | .error _ => trivial
  | .ok (.asking _ _) => exact Cache.Lacks.later (Cache.Lacks.alike clear alike) later
  | .ok (.ended _) => exact Cache.Lacks.later (Cache.Lacks.alike clear alike) later
  | .ok (.waiting _ _ _) =>
      obtain ⟨w₀, ds, rfl, fine, before, lacks, undone⟩ := clear
      refine ⟨w₀, ds, rfl, fine, Nat.le_trans before later, lacks, fun same => ?_⟩
      exact ((undone same).alike alike).later later

/-- The call is clear at its place, or has not entered a scene without anything under the key. -/
def ClearAt (backend : Cache.Backend σ) (valid : σ → Prop) (holds : σ → Instant → String → Prop)
    (key : String) (i : Nat) (S : Scene σ κ α) : Prop :=
  match S.strands[i]? with
  | some strand => Clear backend valid holds key S.world strand.place
  | none => Cache.Lacks holds key S.world.now S.world.cache

/-- A call that has waited for nothing that may write under the key has put nothing there. -/
theorem Clear.undone {wait : Wait} {started : Waiting σ wait} {next : Except Interruption wait.Answer → Flow α}
    {time : Instant} {ds : List Nat} {j : Interruption}
    (clear : Clear backend valid holds key w (.ok (.waiting wait started next)))
    (answers : backend.AnswersTruly valid holds)
    (spares : ¬ Event.MayWrite key (.ended time wait ds (.error j))) :
    Cache.Lacks holds key w.now w.cache := by
  obtain ⟨w₀, _, rfl, fine, _, _, undone⟩ := clear
  cases wait with
  | sleep s => exact undone (.refl _)
  | never => exact undone (.refl _)
  | cache r =>
      refine undone ((answers.starts r w₀.now w₀.cache fine).2 key fun writes => spares ?_)
      refine ⟨⟨time, r, ds, .error j, rfl, writes⟩, ?_⟩
      rintro ⟨_, _, _, _, impossible⟩
      cases impossible

/-- A call that waits and may not have written under the key finds nothing there, and puts nothing
there. -/
theorem Clear.settle {wait : Wait} {started : Waiting σ wait} {next : Except Interruption wait.Answer → Flow α}
    {x : Except Interruption wait.Answer}
    (clear : Clear backend valid holds key w (.ok (.waiting wait started next)))
    (answers : backend.AnswersTruly valid holds) (fine : valid w.cache)
    (settled : started.settle? w = some (x, w'))
    (spares : ¬ Event.MayWrite key (.ended w.now wait started.deadlines x)) :
    valid w'.cache ∧ Cache.Lacks holds key w'.now w'.cache ∧
      ¬ Event.Finds key (.ended w.now wait started.deadlines x) := by
  match x with
  | .error j =>
      cases Waiting.settle?_error settled
      exact ⟨fine, clear.undone answers spares, Event.not_finds_cut⟩
  | .ok a =>
      obtain ⟨w₀, ds, rfl, fine₀, _, lacks, undone⟩ := clear
      obtain ⟨tick, finish, c, due, _, finished, rfl⟩ := Waiting.settle?_ok settled
      cases wait with
      | never => cases due
      | sleep s =>
          cases due
          cases finished
          exact ⟨fine, undone (.refl _), Event.not_finds_slept⟩
      | cache r =>
          obtain ⟨delay, acts⟩ := Waiting.acts_of_due due
          obtain ⟨fine', alike⟩ := answers.finishes acts fine finished
          by_cases writes : r.Writes key
          · -- then it was refused, so there was something after all
            have refused := Classical.byContradiction fun unrefused =>
              spares ⟨⟨_, r, _, .ok a, rfl, writes⟩, unrefused⟩
            obtain ⟨_, _, _, _, same⟩ := refused
            cases same
            obtain ⟨still, there | there⟩ := answers.refuses acts fine₀ fine finished
            · exact absurd there (lacks _ (Nat.le_refl _))
            · exact absurd there (undone still _ (Nat.le_refl _))
          · have none := undone ((answers.starts r w₀.now w₀.cache fine₀).2 key writes)
            refine ⟨fine', none.alike (alike key writes), ?_⟩
            rintro (⟨_, _, same⟩ | ⟨_, _, _, _, same⟩)
            · cases same
              rcases answers.finds acts fine₀ fine finished with there | there
              · exact lacks _ (Nat.le_refl _) there
              · exact none _ (Nat.le_refl _) there
            · cases same
              exact writes rfl

/-- A call that goes on where there is nothing is clear at its next place. -/
theorem clearAt_move {strand : Strand σ κ α} {e : Event} {f : Flow α}
    (here : S.strands[i]? = some strand) (fine : valid w.cache)
    (lacks : Cache.Lacks holds key w.now w.cache) :
    ClearAt backend valid holds key i (S.move backend i strand e f w) := by
  have inside : i < S.strands.length := (List.getElem?_eq_some_iff.mp here).1
  simp only [ClearAt, move, List.getElem?_set_self inside]
  exact clear_take fine lacks

/-- A step in which the call has no part leaves it clear if it changes nothing under the key. -/
theorem ClearAt.alike (clear : ClearAt backend valid holds key i S)
    (same : S'.strands[i]? = S.strands[i]?) (later : S.world.now ≤ S'.world.now)
    (alike : Cache.Alike holds S.world.now key S.world.cache S'.world.cache) :
    ClearAt backend valid holds key i S' := by
  unfold ClearAt at clear ⊢
  rw [same]
  split at clear
  · exact clear.alike later alike
  · exact (clear.alike alike).later later

/-- The move of another call leaves the place of a call. -/
theorem strand_move_of_ne {j : Nat} {strand : Strand σ κ α} {e : Event} {f : Flow α} (other : j ≠ i) :
    (S.move backend j strand e f w).strands[i]? = S.strands[i]? :=
  List.getElem?_set_ne other

/-- A call that enters where there is nothing is clear, and the others stand where they stood. -/
theorem clearAt_enter {k : κ} (fine : valid S.world.cache)
    (clear : ClearAt backend valid holds key i S)
    (kept : (S.strands ++ [⟨k, [], (take backend (flow k) S.world).1⟩])[i]? = S.strands[i]? →
      ClearAt backend valid holds key i ⟨(take backend (flow k) S.world).2,
        S.strands ++ [⟨k, [], (take backend (flow k) S.world).1⟩]⟩) :
    ClearAt backend valid holds key i ⟨(take backend (flow k) S.world).2,
      S.strands ++ [⟨k, [], (take backend (flow k) S.world).1⟩]⟩ := by
  rcases Nat.lt_trichotomy i S.strands.length with before | rfl | after
  · exact kept (List.getElem?_append_left before)
  · unfold ClearAt at clear ⊢
    rw [List.getElem?_eq_none (Nat.le_refl _)] at clear
    rw [List.getElem?_concat_length]
    exact clear_take fine clear
  · refine kept ?_
    rw [List.getElem?_eq_none (Nat.le_of_lt after),
      List.getElem?_eq_none (by simpa using Nat.succ_le_of_lt after)]

/-- A step keeps a call clear that may not have written under the key, and it finds nothing there. -/
theorem Step.clearAt {l : Option (Nat × Event)} (step : Step backend flow S l S')
    (answers : backend.AnswersTruly valid holds) (fine : valid S.world.cache)
    (later : S.world.now ≤ S'.world.now) (clear : ClearAt backend valid holds key i S)
    (spares : ∀ e, l = some (i, e) → ¬ e.MayWrite key)
    (others : S'.strands[i]? = S.strands[i]? →
      Cache.Alike holds S.world.now key S.world.cache S'.world.cache) :
    ClearAt backend valid holds key i S' ∧ ∀ e, l = some (i, e) → ¬ e.Finds key := by
  have own {strand : Strand σ κ α} (here : S.strands[i]? = some strand) :
      Clear backend valid holds key S.world strand.place := by
    unfold ClearAt at clear
    rwa [here] at clear
  have kept (same : S'.strands[i]? = S.strands[i]?) : ClearAt backend valid holds key i S' :=
    clear.alike same later (others same)
  have notMine {j : Nat} {e : Event} (other : j ≠ i) :
      ∀ e', some (j, e) = some (i, e') → ¬ e'.Finds key :=
    fun e' same => absurd (Prod.mk.inj (Option.some.inj same)).1 other
  cases step with
  | enter k => exact ⟨clearAt_enter fine clear kept, fun e impossible => by cases impossible⟩
  | @ask j strand q next here asks =>
      by_cases mine : j = i
      · subst mine
        have lacks := own here
        rw [asks] at lacks
        refine ⟨clearAt_move here (by rwa [World.cache_answer]) ?_, fun e same => ?_⟩
        · rw [World.now_answer, World.cache_answer]
          exact lacks
        · cases same
          exact Event.not_finds_answered
      · exact ⟨kept (strand_move_of_ne mine), notMine mine⟩
  | @settle j strand wait started next x w here waits settled =>
      by_cases mine : j = i
      · subst mine
        have waiting := own here
        rw [waits] at waiting
        obtain ⟨fine', lacks, finds⟩ := waiting.settle answers fine settled (spares _ rfl)
        refine ⟨clearAt_move here fine' lacks, fun e same => ?_⟩
        cases same
        exact finds
      · exact ⟨kept (strand_move_of_ne mine), notMine mine⟩
  | @leave j strand wait started next here waits =>
      by_cases mine : j = i
      · subst mine
        have waiting := own here
        rw [waits] at waiting
        refine ⟨clearAt_move here fine (waiting.undone answers (spares _ rfl)), fun e same => ?_⟩
        cases same
        exact Event.not_finds_cut
      · exact ⟨kept (strand_move_of_ne mine), notMine mine⟩
  | pass s => exact ⟨kept rfl, fun e impossible => by cases impossible⟩

/-- Where there was nothing under a key, and nobody else puts anything there, a call finds nothing,
unless it has itself made a call that may have put something there. -/
theorem Undisturbed.not_finds (path : Undisturbed backend flow holds key i S S')
    (answers : backend.AnswersTruly valid holds) (tracked : Tracked backend flow S)
    (fine : valid S.world.cache) (outside : S.strands.length ≤ i)
    (lacks : Cache.Lacks holds key S.world.now S.world.cache)
    (spares : ∀ e ∈ S'.seen i, ¬ e.MayWrite key) :
    ClearAt backend valid holds key i S' ∧ ∀ e ∈ S'.seen i, ¬ e.Finds key := by
  have absent : S.strands[i]? = none := List.getElem?_eq_none outside
  induction path with
  | refl =>
      unfold ClearAt Scene.seen
      rw [absent]
      exact ⟨lacks, fun e none => (List.not_mem_nil none).elim⟩
  | @snoc S' S'' l path step others ih =>
      have last : Steps backend flow S' S'' := .snoc (.refl _) step
      have steps := path.steps
      obtain ⟨clear, none⟩ := ih fun e mem => spares e (last.mem_seen mem)
      obtain ⟨clear', none'⟩ := step.clearAt answers (steps.keeps_valid answers tracked fine)
        (step.effect (steps.tracked tracked)).now clear
        (fun e same => by subst same; exact spares e step.event_mem) others
      refine ⟨clear', fun e mem => ?_⟩
      rcases step.mem_seen mem with mem | same
      · exact none e mem
      · exact none' e same

/-! ### Calls without rivals -/

/-- A call has entered where there was nothing under a key, nobody else has changed anything there since,
and it has ended with a history and a value. -/
inductive EndsAlone (backend : Cache.Backend σ) (flow : κ → Flow α) (valid : σ → Prop)
    (holds : σ → Instant → String → Prop) (key : String) : κ → History → α → Prop where
  | mk {S S' : Scene σ κ α} {i : Nat} {k : κ} {h : History} {a : α} :
      Tracked backend flow S → valid S.world.cache → S.strands.length ≤ i →
      Cache.Lacks holds key S.world.now S.world.cache → Undisturbed backend flow holds key i S S' →
      S'.strands[i]? = some ⟨k, h, .ok (.ended a)⟩ → EndsAlone backend flow valid holds key k h a

variable {k : κ} {h : History} {a : α}

/-- Such a call has seen nothing that it is not promised. -/
theorem EndsAlone.value {R : Rule} {Q : History → Except Fault α → Prop}
    (ends : EndsAlone backend flow valid holds key k h a) (meets : (flow k).Meets R Q []) : Q h (.ok a) := by
  obtain ⟨tracked, _, _, _, path, here⟩ := ends
  exact (path.steps.tracked tracked).value here rfl meets

/-- Nor anything that its rule does not allow. -/
theorem EndsAlone.allowed {R : Rule} {Q : History → Except Fault α → Prop} {e : Event}
    (ends : EndsAlone backend flow valid holds key k h a) (meets : (flow k).Meets R Q [])
    (mem : e ∈ h) : ∃ before, R.event before e := by
  obtain ⟨tracked, _, _, _, path, here⟩ := ends
  obtain ⟨before, after, rfl⟩ := List.append_of_mem mem
  have sees := ((path.steps.tracked tracked).left here rfl).1
  exact ⟨_, meets.event sees⟩

/-- If it has found something, it has made a call that may have stored it. -/
theorem EndsAlone.mayWrite (ends : EndsAlone backend flow valid holds key k h a)
    (answers : backend.AnswersTruly valid holds) (finds : ∃ e ∈ h, e.Finds key) :
    ∃ e ∈ h, e.MayWrite key := by
  obtain ⟨tracked, fine, outside, lacks, path, here⟩ := ends
  obtain ⟨e, mem, found⟩ := finds
  apply Classical.byContradiction
  intro spares
  have none := path.not_finds answers tracked fine outside lacks
  rw [seen_of_strand here] at none
  exact (none fun e' mem' may => spares ⟨e', mem', may⟩).2 e mem found

/-- A step changes nothing in the cache if the first call has no part in it and there is no other. -/
theorem Step.cache_of_single {l : Option (Nat × Event)} (step : Step backend flow S l S')
    (single : S'.strands.length ≤ 1) (same : S'.strands[0]? = S.strands[0]?) :
    S'.world.cache = S.world.cache := by
  have silent : ∀ j e, l ≠ some (j, e) := by
    rintro j e rfl
    obtain ⟨k, here⟩ := step.caller
    obtain ⟨strand, here, -⟩ := Option.map_eq_some_iff.mp (step.call? here)
    have inside := (List.getElem?_eq_some_iff.mp here).1
    obtain rfl : j = 0 := by omega
    have seen := step.seen 0
    rw [extend, if_pos rfl, Scene.seen, same, ← Scene.seen] at seen
    exact absurd (congrArg List.length seen) (by simp)
  cases step with
  | enter k =>
      rcases strands : S.strands with _ | ⟨strand, others⟩
      · simp [strands] at same
      · simp [strands] at single
  | ask => exact absurd rfl (silent _ _)
  | settle => exact absurd rfl (silent _ _)
  | leave => exact absurd rfl (silent _ _)
  | pass => rfl

theorem Step.length {l : Option (Nat × Event)} (step : Step backend flow S l S') :
    S.strands.length ≤ S'.strands.length := by
  cases step <;> simp [move]

/-- Where there is only one call, nobody disturbs it. -/
theorem Steps.undisturbed (steps : Steps backend flow S S') (single : S'.strands.length ≤ 1) :
    Undisturbed backend flow holds key 0 S S' := by
  induction steps with
  | refl => exact .refl _
  | snoc _ step ih =>
      refine .snoc (ih (Nat.le_trans step.length single)) step fun same => ?_
      rw [step.cache_of_single single same]
      exact .refl _

/-- The run of an action is such a call. -/
theorem EndsAlone.of_run {β : Type} {action : Action β} {x : β}
    (run : action.run backend w = (.value x, w')) (fine : valid w.cache)
    (lacks : Cache.Lacks holds key w.now w.cache) :
    EndsAlone backend (fun _ : Unit => action.start) valid holds key () (action.history backend w)
      (some x) :=
  .mk (tracked_nil w) fine (Nat.le_refl 0) lacks
    ((steps_action run).undisturbed (Nat.le_refl 1)) rfl

end Scene

end TokenAuthority
