import TokenAuthority.Proofs.Effect.Pooled
import TokenAuthority.Proofs.Revocation.Kept
import TokenAuthority.Proofs.Service.Overrun

/-!
# Many tokens revoked at once

The calls that revoke many tokens run side by side through one breaker, and each of them tries again on its
own. Whatever the cache and the breaker do, every entry is reported once and in its place; what is reported
as revoked, by this call or by another one, was in the cache when that was found.

* `BulkOutcome.Splits`, `BulkOutcome.splits_collect` — the report has each entry in one of its lists.
* `Cache.Backend.StoresAtOnce` — what is relied on of the cache.
* `Store.Answering` — the step in which the call for an entry is answered.
* `Store.bulkRevoke_answers` — every report, with the steps behind it.
* `Store.Adds`, `Store.bulkRevoke_ordered` — over a cache in memory entries under different identifiers are
  stored, or fail to be, in every order alike.
* `Store.bulkRevoke_reports` — both.
-/

namespace TokenAuthority

open TokenAuthority.Action
open Cache (Memory)

/-! ### Reports -/

namespace Revocation.BulkOutcome

/-- Each entry is put into the list of its outcome, in the order of the entries. -/
inductive Splits : List Entry → List (Except Error Bool) → BulkOutcome → Prop where
  | nil : Splits [] [] ⟨[], [], []⟩
  | revoked {e : Entry} {es : List Entry} {rs : List (Except Error Bool)} {o : BulkOutcome} :
      Splits es rs o → Splits (e :: es) (.ok true :: rs) { o with revoked := e.tokenId :: o.revoked }
  | alreadyRevoked {e : Entry} {es : List Entry} {rs : List (Except Error Bool)} {o : BulkOutcome} :
      Splits es rs o →
      Splits (e :: es) (.ok false :: rs) { o with alreadyRevoked := e.tokenId :: o.alreadyRevoked }
  | failed {e : Entry} {es : List Entry} {error : Error} {rs : List (Except Error Bool)} {o : BulkOutcome} :
      Splits es rs o →
      Splits (e :: es) (.error error :: rs) { o with failed := (e.tokenId, error.message) :: o.failed }

/-- As many outcomes as there are entries are all reported. -/
theorem splits_collect {entries : List Entry} {outcomes : List (Except Error Bool)}
    (same : outcomes.length = entries.length) : Splits entries outcomes (collect entries outcomes) := by
  induction entries generalizing outcomes with
  | nil =>
      cases List.length_eq_zero_iff.mp same
      exact .nil
  | cons e entries ih =>
      cases outcomes with
      | nil => cases same
      | cons r outcomes =>
          have rest := ih (Nat.succ.inj same)
          match r with
          | .ok true => exact .revoked rest
          | .ok false => exact .alreadyRevoked rest
          | .error error => exact .failed rest

end Revocation.BulkOutcome

/-! ### The cache -/

namespace Cache

variable {σ : Type}

/-- A cache answers a call to store in one step: it answers whether nothing was there, and then something is
there. What else may happen then, to other keys, and what comes of calls that are not answered, is open. -/
structure Backend.StoresAtOnce (backend : Backend σ) (valid : σ → Prop)
    (holds : σ → Instant → String → Prop) : Prop where
  starts : ∀ r now c, valid c → valid (backend.start r now c).1
  finishes : ∀ {r : Request} {started before delay finish now c a c'},
    (backend.start r started before).2 = .acts delay finish → valid c → finish now c = .ok (a, c') → valid c'
  stores : ∀ {key value ttl started before delay finish now c stored c'},
    (backend.start (.setIfAbsent key value ttl) started before).2 = .acts delay finish → valid c →
      finish now c = .ok (.ok stored, c') → (stored = true ↔ ¬ holds c now key) ∧ holds c' now key

/-- A cache that keeps texts for their time does so. -/
theorem Backend.HonoursTime.storesAtOnce {backend : Backend σ} {valid : σ → Prop}
    {holds : σ → Instant → String → Prop} (honours : backend.HonoursTime valid holds) :
    backend.StoresAtOnce valid holds where
  starts r now c fine := (honours.starts r now c fine).1
  finishes begun fine done := (honours.finishes begun fine done).1
  stores := by
    intro key value ttl started before delay finish now c stored c' begun fine done
    have acts := (honours.finishes begun fine done).2
    cases acts with
    | kept alike unstored there =>
        cases stored with
        | true => exact absurd rfl unstored
        | false =>
            refine ⟨⟨fun impossible => ?_, fun absent => absurd (there rfl) absent⟩, ?_⟩
            · cases impossible
            · exact (alike key now (Nat.le_refl _)).mpr (there rfl)
    | stored others absent told lives =>
        cases stored with
        | false => exact absurd rfl told
        | true =>
            refine ⟨⟨fun _ => absent, fun _ => rfl⟩, lives now (Nat.le_refl _) ?_⟩
            have second : 0 < Span.nanosPerSecond * ttl.lifetimeSecs :=
              Nat.mul_pos (by decide) (Nat.lt_of_lt_of_le Nat.zero_lt_one (Nat.le_max_right _ _))
            exact Nat.lt_add_of_pos_right second

section Valid

variable {backend : Backend σ} {valid : σ → Prop} {holds : σ → Instant → String → Prop}

theorem Backend.StoresAtOnce.valid_of_begins (atOnce : backend.StoresAtOnce valid holds) {w w' : World σ}
    (begins : Scene.Begins backend w w') (fine : valid w.cache) : valid w'.cache := by
  cases begins with
  | nothing => exact fine
  | call r => exact atOnce.starts r _ _ fine

theorem Backend.StoresAtOnce.valid_of_effect (atOnce : backend.StoresAtOnce valid holds) {w w' : World σ}
    {e : Option Event} (effect : Scene.Effect backend w e w') (fine : valid w.cache) : valid w'.cache := by
  cases effect with
  | quiet begins => exact atOnce.valid_of_begins begins fine
  | passed s => exact fine
  | asked q begins => exact atOnce.valid_of_begins begins (by rwa [World.cache_answer])
  | called ds acts finished begins =>
      exact atOnce.valid_of_begins begins (atOnce.finishes acts fine finished)
  | slept s ds begins => exact atOnce.valid_of_begins begins fine
  | cut wait ds i begins => exact atOnce.valid_of_begins begins fine

/-- Its states stay valid on every schedule. -/
theorem Backend.StoresAtOnce.valid_of_steps {κ α : Type} {flow : κ → Flow α} {S S' : Scene σ κ α}
    (atOnce : backend.StoresAtOnce valid holds) (steps : Scene.Steps backend flow S S')
    (tracked : Scene.Tracked backend flow S) (fine : valid S.world.cache) : valid S'.world.cache := by
  induction steps with
  | refl => exact fine
  | snoc steps step ih => exact atOnce.valid_of_effect (step.effect (steps.tracked tracked)) ih

end Valid

end Cache

/-! ### The calls -/

namespace Revocation.Store

variable {σ : Type} {backend : Cache.Backend σ} {s : Store} {entries : List Entry} {e e' : Entry}

/-- Keeping an entry has limited waits. -/
theorem revokeEntry_limited :
    (s.revokeEntry e).Ensures (.limited s.retry.HasLongDelay) [] [] (s.Keeps e []) := by
  have lenient : (Rule.limited s.retry.HasLongDelay).Lenient :=
    ⟨fun _ _ _ _ _ => trivial, fun _ _ _ _ => trivial⟩
  refine ensures_revokeEntry lenient fun k _ => ⟨?_, ?_, ?_⟩
  · exact fun _ _ _ d ds _ => .inl (List.cons_ne_nil d ds)
  · exact fun _ _ _ span _ _ => .inr ⟨span, rfl⟩
  · exact fun _ _ attempt factor long => ⟨rfl, attempt, factor, long⟩

/-- Once the call to keep an entry has been answered, no cache call ends any more. -/
def onceAnswered (e : Entry) : Rule where
  event h event := (∃ time r ds x, event = .ended time (.cache r) ds x) →
    ∀ seen ∈ h, ∀ k, ¬ seen.Answers (.setIfAbsent k e.text e.ttl)
  fault _ _ := True

/-- Keeping an entry makes no cache call after one that was answered. -/
theorem revokeEntry_onceAnswered :
    (s.revokeEntry e).Ensures (onceAnswered e) [] [] (s.Keeps e []) := by
  have lenient : (onceAnswered e).Lenient := by
    refine ⟨?_, ?_⟩
    · rintro h time q x _ ⟨_, _, _, _, impossible⟩
      cases impossible
    · rintro h time x _ ⟨_, _, _, _, impossible⟩
      cases impossible
  refine ensures_revokeEntry lenient fun k _ => ⟨?_, ?_, fun _ _ _ _ _ => trivial⟩
  · intro tail leads time d ds x _ seen mem k' answers
    obtain ⟨isOf, unanswered⟩ := leads seen mem
    obtain ⟨time', ds', v, rfl⟩ := answers
    -- An answer of this call would be one to its own request.
    obtain here | ⟨span, impossible⟩ := isOf
    · cases here
      exact unanswered ⟨time', ds', v, rfl⟩
    · cases impossible
  · rintro tail _ time span ds x ⟨_, _, _, _, impossible⟩
    cases impossible

/-- The calls as they run side by side. -/
abbrev flowOf (s : Store) (e : Entry) : Flow (Option (Except Error Bool)) := (s.revokeEntry e).start

/-- On the way from one scene to another the call for an entry is answered in this step: the cache tells
whether it has nothing under the key, and has something there right after. -/
structure Answering (s : Store) (backend : Cache.Backend σ) (holds : σ → Instant → String → Prop)
    (k : String) (first : Scene σ Entry (Option (Except Error Bool))) (i : Nat) (e : Entry) (stored : Bool)
    (before after last : Scene σ Entry (Option (Except Error Bool))) : Prop where
  passes : ∃ ds, Scene.Passes backend s.flowOf first i
    (.ended before.world.now (.cache (.setIfAbsent k e.text e.ttl)) ds (.ok (.ok stored))) before after last
  missing : stored = true ↔ ¬ holds before.world.cache before.world.now k
  atOnce : after.world.now = before.world.now
  there : holds after.world.cache after.world.now k

section Answering

variable {valid : σ → Prop} {holds : σ → Instant → String → Prop} {k : String} {i : Nat} {stored : Bool}
  {time : Instant} {ds : List Nat} {first before after last : Scene σ Entry (Option (Except Error Bool))}

/-- A step in which the call for an entry is answered. -/
theorem answering_of_passes (atOnce : backend.StoresAtOnce valid holds)
    (passes : Scene.Passes backend s.flowOf first i
      (.ended time (.cache (.setIfAbsent k e.text e.ttl)) ds (.ok (.ok stored))) before after last)
    (tracked : Scene.Tracked backend s.flowOf first) (fine : valid first.world.cache)
    (here : last.call? i = some e) : s.Answering backend holds k first i e stored before after last := by
  have caller : before.call? i = some e := by
    obtain ⟨e', called⟩ := passes.step.caller
    have same := passes.later.call? (passes.step.call? called)
    rw [here] at same
    rw [called, same]
  obtain ⟨started, state, delay, finish, c, acts, finished, rfl, left⟩ :=
    passes.step.answered (passes.earlier.tracked tracked) caller revokeEntry_onceAnswered.start
      fun h time' r' ds' x' answered =>
        answered ⟨_, _, _, _, rfl⟩ _ (List.mem_append_right _ List.mem_cons_self) k ⟨_, _, _, rfl⟩
  obtain ⟨missing, there⟩ :=
    atOnce.stores acts (atOnce.valid_of_steps passes.earlier tracked fine) finished
  refine ⟨⟨ds, passes⟩, missing, by rw [left], ?_⟩
  rw [left]
  exact there

/-- The call for an entry that is over has seen its answer. -/
theorem seen_of_ended {outcomes : List (Except Error Bool)} (tracked : Scene.Tracked backend s.flowOf last)
    (calls : last.strands.map Strand.call = entries)
    (places : last.strands.map Strand.place = outcomes.map fun x => .ok (.ended (some x)))
    (entered : entries[i]? = some e) (told : outcomes[i]? = some (.ok stored)) :
    last.call? i = some e ∧ ∃ k time ds, s.key e.tokenId = .ok k ∧
      Event.ended time (.cache (.setIfAbsent k e.text e.ttl)) ds (.ok (.ok stored)) ∈ last.seen i := by
  rw [← calls, List.getElem?_map, Option.map_eq_some_iff] at entered
  obtain ⟨strand, found, rfl⟩ := entered
  have place : (last.strands.map Strand.place)[i]? = some (.ok (.ended (some (.ok stored)))) := by
    rw [places, List.getElem?_map, told]
    rfl
  rw [List.getElem?_map, found, Option.map_some, Option.some_inj] at place
  have keeps : s.Keeps strand.call [] strand.seen (.ok (.ok stored)) :=
    tracked.value found place revokeEntry_limited.start
  obtain ⟨k, keyed, concludes⟩ := keeps.concludes
  obtain ⟨time, ds, mem⟩ := concludes.mem
  refine ⟨Scene.call?_of_strand found, k, time, ds, keyed, ?_⟩
  rwa [Scene.seen_of_strand found]

end Answering

/-- The steps behind a report: the call for each entry that is reported as revoked, now or before, was
answered in some step, and of two that are reported as revoked now under one identifier, the later one was
answered when nothing was there any more. -/
structure Founded (s : Store) (backend : Cache.Backend σ) (holds : σ → Instant → String → Prop)
    (entries : List Entry) (outcomes : List (Except Error Bool))
    (first last : Scene σ Entry (Option (Except Error Bool))) : Prop where
  once : ∀ i e stored, entries[i]? = some e → outcomes[i]? = some (.ok stored) →
    ∃ k before after, s.key e.tokenId = .ok k ∧
      s.Answering backend holds k first i e stored before after last
  twice : ∀ i j e e', i ≠ j → entries[i]? = some e → entries[j]? = some e' → e'.tokenId = e.tokenId →
    outcomes[i]? = some (.ok true) → outcomes[j]? = some (.ok true) →
      ∃ k before after before' after', s.key e.tokenId = .ok k ∧
        (s.Answering backend holds k first i e true before after last ∧
            s.Answering backend holds k after j e' true before' after' last ∨
          s.Answering backend holds k first j e' true before' after' last ∧
            s.Answering backend holds k after' i e true before after last)

/-- On a schedule on which all calls have ended with outcomes, these are founded. -/
theorem founded_of_steps {valid : σ → Prop} {holds : σ → Instant → String → Prop} {w : World σ}
    {outcomes : List (Except Error Bool)} {last : Scene σ Entry (Option (Except Error Bool))}
    (atOnce : backend.StoresAtOnce valid holds) (fine : valid w.cache)
    (steps : Scene.Steps backend s.flowOf ⟨w, []⟩ last) (calls : last.strands.map Strand.call = entries)
    (places : last.strands.map Strand.place = outcomes.map fun x => .ok (.ended (some x))) :
    s.Founded backend holds entries outcomes ⟨w, []⟩ last := by
  have start : Scene.Tracked backend s.flowOf ⟨w, []⟩ := Scene.tracked_nil w
  have tracked := steps.tracked start
  refine ⟨fun i e stored entered told => ?_, fun i j e e' other entered entered' same told told' => ?_⟩
  · obtain ⟨here, k, time, ds, keyed, mem⟩ := seen_of_ended tracked calls places entered told
    obtain ⟨before, after, passes⟩ := steps.passes mem (Scene.not_mem_seen_nil w i _)
    exact ⟨k, before, after, keyed, answering_of_passes atOnce passes start fine here⟩
  · obtain ⟨here, k, time, ds, keyed, mem⟩ := seen_of_ended tracked calls places entered told
    obtain ⟨here', k', time', ds', keyed', mem'⟩ := seen_of_ended tracked calls places entered' told'
    rw [same, keyed] at keyed'
    cases keyed'
    obtain ⟨before, after, before', after', ⟨passes, passes'⟩ | ⟨passes', passes⟩⟩ :=
      steps.passes_both other mem mem' (Scene.not_mem_seen_nil w i _) (Scene.not_mem_seen_nil w j _)
    · have reached := passes.earlier.trans (.snoc (.refl _) passes.step)
      exact ⟨k, before, after, before', after', keyed, .inl
        ⟨answering_of_passes atOnce passes start fine here,
          answering_of_passes atOnce passes' (reached.tracked start)
            (atOnce.valid_of_steps reached start fine) here'⟩⟩
    · have reached := passes'.earlier.trans (.snoc (.refl _) passes'.step)
      exact ⟨k, before, after, before', after', keyed, .inr
        ⟨answering_of_passes atOnce passes' start fine here',
          answering_of_passes atOnce passes (reached.tracked start)
            (atOnce.valid_of_steps reached start fine) here⟩⟩

/-- Whatever the state of the breaker is and whatever the cache does, all entries are reported, or the cache or a
delay ends in a fault. If the cache stores at once, what is reported is founded. -/
def ReportsAll (s : Store) (backend : Cache.Backend σ) (entries : List Entry) (w : World σ) : Prop :=
  (∃ f, Action.runAll backend (s.bulkRevoke entries) w = .error f ∧
      (backend.Faults f ∨ s.retry.HasLongDelay f)) ∨
    ∃ (outcomes : List (Except Error Bool)) (last : Scene σ Entry (Option (Except Error Bool))),
      Action.runAll backend (s.bulkRevoke entries) w = .ok (outcomes.map some, last.world) ∧
      BulkOutcome.Splits entries outcomes (.collect entries outcomes) ∧
      ∀ valid holds, backend.StoresAtOnce valid holds → valid w.cache →
        s.Founded backend holds entries outcomes ⟨w, []⟩ last

theorem bulkRevoke_answers (s : Store) (backend : Cache.Backend σ) (entries : List Entry) (w : World σ) :
    s.ReportsAll backend entries w := by
  have steady (e : Entry) (_ : e ∈ entries) :
      (s.revokeEntry e).start.Steady fun f => backend.Faults f ∨ s.retry.HasLongDelay f :=
    revokeEntry_limited.steady fun _ => .inr
  rcases Action.runAll_schedule (fun _ => .inl) steady w with
    ⟨f, runs, faults⟩ | ⟨outcomes, last, runs, steps, calls, places⟩
  · exact .inl ⟨f, runs, faults⟩
  · have same : outcomes.length = entries.length := by
      rw [← calls, List.length_map, ← List.length_map Strand.place, places, List.length_map]
    exact .inr ⟨outcomes, last, runs, BulkOutcome.splits_collect same, fun valid holds atOnce fine =>
      founded_of_steps atOnce fine steps calls places⟩

end Revocation.Store

/-! ### Over a cache in memory -/

namespace Cache.Memory

variable {m : Memory} {now : Instant} {key value : String} {ttl : Span}

theorem not_overruns_of_perform {r : Request.Answer (.setIfAbsent key value ttl) × Memory}
    (done : m.perform now (.setIfAbsent key value ttl) = .ok r) : ¬ m.Overruns now key ttl := by
  obtain ⟨fine, _⟩ | ⟨_, fails⟩ := @setIfAbsent_overruns m now key value ttl
  · exact fine
  · cases fails.symm.trans done

theorem overruns_of_perform {f : Fault} (fails : m.perform now (.setIfAbsent key value ttl) = .error f) :
    m.Overruns now key ttl ∧ f = .instantRange := by
  obtain ⟨_, a, m', done⟩ | ⟨overruns, fails'⟩ := @setIfAbsent_overruns m now key value ttl
  · cases done.symm.trans fails
  · cases fails'.symm.trans fails
    exact ⟨overruns, rfl⟩

end Cache.Memory

/-- A closed breaker grants a call, however many failures it has counted. -/
theorem World.answer_acquire_closed {w : World Memory} (closed : w.breaker.state.circuit = .closed) :
    (w.answer (.circuit .acquire)).1 = true := by
  obtain ⟨_, _, _, _, ⟨name, config, ⟨circuit, failures, openedAt, probes⟩⟩, _, _⟩ := w
  cases closed
  rfl

namespace Revocation.Store

variable {s : Store} {w w' w'' : World Memory} {request : Cache.Request} {operation : Operation}
  {e : Entry} {es entries entries' : List Entry} {k : String}

/-- Behind a closed breaker a call for a token is one cache call. -/
theorem yields_onKey_closed {request : String → Cache.Request} {α : Type} {tokenId : String}
    {next : (k : String) → (request k).Value → Except Error α} (closed : w.breaker.state.circuit = .closed)
    (keyed : s.key tokenId = .ok k) (uncounted : ∀ key window, request k ≠ .increment key window) :
    (s.onKey operation tokenId request next).Yields w fun r w' =>
      (∃ v, r = .ok (next k v) ∧ Answered w (request k) v w') ∨
        ∃ f, r = .error f ∧ w.cache.perform w.now (request k) = .error f := by
  refine (yields_onKey_outcome keyed uncounted).mono fun r w' comes => ?_
  cases comes with
  | answered answered => exact .inl ⟨_, rfl, answered⟩
  | fault fails _ => exact .inr ⟨_, rfl, fails⟩
  | refused refused _ =>
      rw [World.answer_acquire_closed closed] at refused
      cases refused

/-- What becomes of the call for an entry: it has no valid identifier, or it is stored if nothing is there. -/
def outcomeIn (s : Store) (w : World Memory) (e : Entry) : Except Error Bool :=
  (s.key e.tokenId).map fun k => (w.cache.live? w.now k).isNone

/-- One world comes from another by storing some entries, each where there was nothing. -/
structure Adds (s : Store) (entries : List Entry) (w w' : World Memory) : Prop where
  now : w'.now = w.now
  valid : w'.cache.Valid
  closed : w'.breaker.state.circuit = .closed
  added : ∀ e ∈ entries, ∀ k, s.key e.tokenId = .ok k → w.cache.live? w.now k = none → ∀ t, w.now ≤ t →
    w'.cache.live? t k = (some (stored e w.now)).filter fun x => t < x.expiresAt
  others : ∀ k, (∀ e ∈ entries, s.key e.tokenId = .ok k → w.cache.live? w.now k ≠ none) → ∀ t, w.now ≤ t →
    w'.cache.live? t k = w.cache.live? t k

theorem Adds.count {event : Metrics.Event} (adds : s.Adds entries w w') :
    s.Adds entries w (w'.answer (.count event)).2 :=
  ⟨adds.now, adds.valid, adds.closed, adds.added, adds.others⟩

/-- An entry is stored exactly if nothing is there, and then it is all that is added. -/
theorem Answered.adds {v : Bool} (answered : Answered w (.setIfAbsent k e.text e.ttl) v w')
    (keyed : s.key e.tokenId = .ok k) (valid : w.cache.Valid) :
    v = (w.cache.live? w.now k).isNone ∧ s.Adds [e] w w' := by
  have stores := Cache.Memory.setIfAbsent_of_perform answered.performs
  have told := Cache.Memory.stored_of_setIfAbsent stores
  refine ⟨told, answered.now, (Cache.Memory.perform_acts valid answered.performs).1, ?_, ?_, ?_⟩
  · rw [answered.closed]
    rfl
  · intro e' mem k' keyed' none t later
    cases List.mem_singleton.mp mem
    cases keyed.symm.trans keyed'
    rw [none] at told
    subst told
    rw [Cache.Memory.live?_of_setIfAbsent valid stores later, Entry.ofSecs_lifetimeSecs_ttl]
    rfl
  · intro k' spared t later
    by_cases same : k' = k
    · subst same
      obtain ⟨x, live⟩ := Option.ne_none_iff_exists'.mp (spared e List.mem_cons_self keyed)
      rw [Cache.Memory.setIfAbsent_of_live live] at stores
      rw [← (Prod.mk.inj (Except.ok.inj stores)).2, Cache.Memory.live?_noteWrite valid later]
    · exact Cache.Memory.live?_of_perform valid answered.performs (fun here => same here.symm) later

theorem yields_revokeEntry_adds (valid : w.cache.Valid) (closed : w.breaker.state.circuit = .closed) :
    (s.revokeEntry e).Yields w fun r w' =>
      s.Overruns w e ∧ r = .error .instantRange ∨
        ¬ s.Overruns w e ∧ r = .ok (s.outcomeIn w e) ∧ s.Adds [e] w w' := by
  unfold revokeEntry Overruns outcomeIn
  cases keyed : s.key e.tokenId with
  | error error =>
      refine Yields.bind (fun r w' => r = .ok (.error error) ∧ w' = w)
        (yields_onKey_invalid keyed ⟨rfl, rfl⟩) ?_ fun f w' impossible => by cases impossible.1
      rintro _ _ ⟨same, rfl⟩
      cases same
      refine Yields.done (.inr ⟨by simp, rfl, rfl, valid, closed, ?_, fun _ _ _ _ => rfl⟩)
      intro e' mem k keyed'
      cases List.mem_singleton.mp mem
      cases keyed.symm.trans keyed'
  | ok k =>
      simp only [Except.ok.injEq, exists_eq_left']
      refine Yields.bind _ (yields_onKey_closed closed keyed fun _ _ impossible => by cases impossible) ?_ ?_
      · rintro _ w' (⟨v, same, answered⟩ | ⟨f, impossible, _⟩)
        · cases same
          have fine := Cache.Memory.not_overruns_of_perform answered.performs
          obtain ⟨rfl, adds⟩ := answered.adds keyed valid
          split
          · exact Yields.ask (Yields.done (.inr ⟨fine, rfl, adds.count⟩))
          · exact Yields.done (.inr ⟨fine, rfl, adds⟩)
        · cases impossible
      · rintro f w' (⟨v, impossible, _⟩ | ⟨f, same, fails⟩)
        · cases impossible
        · cases same
          obtain ⟨overruns, rfl⟩ := Cache.Memory.overruns_of_perform fails
          exact .inl ⟨overruns, rfl⟩

/-- After an entry has been added nothing has changed for one under another identifier. -/
theorem Adds.apart (adds : s.Adds [e] w w') {e' : Entry} (other : e'.tokenId ≠ e.tokenId) :
    s.outcomeIn w' e' = s.outcomeIn w e' ∧ (s.Overruns w' e' ↔ s.Overruns w e') := by
  have same (k : String) (keyed : s.key e'.tokenId = .ok k) :
      w'.cache.live? w'.now k = w.cache.live? w.now k := by
    rw [adds.now]
    refine adds.others k ?_ w.now (Nat.le_refl _)
    intro e'' mem keyed'
    cases List.mem_singleton.mp mem
    exact absurd (eq_of_key keyed' keyed) other
  unfold outcomeIn Overruns
  cases keyed : s.key e'.tokenId with
  | error error => simp [Except.map]
  | ok k =>
      have same := same k keyed
      rw [adds.now] at same
      simp [Except.map, Cache.Memory.Overruns, adds.now, same]

/-- Entries that are added one after the other, under different identifiers. -/
theorem Adds.cons (first : s.Adds [e] w w') (rest : s.Adds es w' w'')
    (others : ∀ e' ∈ es, e'.tokenId ≠ e.tokenId) : s.Adds (e :: es) w w'' where
  now := rest.now.trans first.now
  valid := rest.valid
  closed := rest.closed
  added := by
    intro e' mem k keyed missing t later
    have later' : w'.now ≤ t := by rwa [first.now]
    rcases List.mem_cons.mp mem with rfl | mem
    · rw [rest.others k ?_ t later', first.added e' List.mem_cons_self k keyed missing t later]
      intro e'' mem keyed'
      exact absurd (eq_of_key keyed keyed') (others e'' mem)
    · have untouched : w'.cache.live? w'.now k = none := by
        rw [first.now, first.others k ?_ w.now (Nat.le_refl _), missing]
        intro e'' mem' keyed'
        cases List.mem_singleton.mp mem'
        exact absurd (eq_of_key keyed' keyed) (others e' mem)
      rw [rest.added e' mem k keyed untouched t later', first.now]
  others := by
    intro k spared t later
    have later' : w'.now ≤ t := by rwa [first.now]
    have untouched (t : Instant) (later : w.now ≤ t) : w'.cache.live? t k = w.cache.live? t k := by
      refine first.others k ?_ t later
      intro e' mem keyed
      cases List.mem_singleton.mp mem
      exact spared e List.mem_cons_self keyed
    rw [rest.others k ?_ t later', untouched t later]
    intro e' mem keyed
    rw [first.now, untouched w.now (Nat.le_refl _)]
    exact spared e' (List.mem_cons_of_mem _ mem) keyed

/-- Entries under different identifiers that are kept in turn, behind a closed breaker. -/
theorem yields_inTurn_adds (valid : w.cache.Valid) (closed : w.breaker.state.circuit = .closed)
    (distinct : (entries.map Entry.tokenId).Nodup) :
    (Action.inTurn (s.bulkRevoke entries)).Yields w fun r w' =>
      (∃ e ∈ entries, s.Overruns w e) ∧ r = .error .instantRange ∨
        (∀ e ∈ entries, ¬ s.Overruns w e) ∧ r = .ok (entries.map (s.outcomeIn w)) ∧
          s.Adds entries w w' := by
  induction entries generalizing w with
  | nil =>
      refine Yields.done (.inr ⟨fun e none => (List.not_mem_nil none).elim, rfl, rfl, valid, closed, ?_, ?_⟩)
      · exact fun e none => (List.not_mem_nil none).elim
      · exact fun _ _ _ _ => rfl
  | cons e es ih =>
      obtain ⟨new, distinct⟩ := List.nodup_cons.mp distinct
      have others (e' : Entry) (mem : e' ∈ es) : e'.tokenId ≠ e.tokenId :=
        fun same => new (same ▸ List.mem_map_of_mem mem)
      refine Yields.bind _ (yields_revokeEntry_adds valid closed) ?_ ?_
      · rintro outcome w₁ (⟨_, impossible⟩ | ⟨fine, same, first⟩)
        · cases impossible
        · cases same
          refine Yields.bind _ (ih first.valid first.closed distinct) ?_ ?_
          · rintro outcomes w' (⟨_, impossible⟩ | ⟨allFine, same, rest⟩)
            · cases impossible
            · cases same
              refine Yields.done (.inr ⟨?_, ?_, first.cons rest others⟩)
              · refine List.forall_mem_cons.mpr ⟨fine, fun e' mem overruns => ?_⟩
                exact allFine e' mem ((first.apart (others e' mem)).2.mpr overruns)
              · have unchanged : es.map (s.outcomeIn w₁) = es.map (s.outcomeIn w) :=
                  List.map_congr_left fun e' mem => (first.apart (others e' mem)).1
                rw [unchanged]
                rfl
          · rintro f w' (⟨⟨e', mem, overruns⟩, same⟩ | ⟨_, impossible, _⟩)
            · cases same
              exact .inl ⟨⟨e', List.mem_cons_of_mem _ mem,
                (first.apart (others e' mem)).2.mp overruns⟩, rfl⟩
            · cases impossible
      · rintro f w' (⟨overruns, same⟩ | ⟨_, impossible, _⟩)
        · cases same
          exact .inl ⟨⟨e, List.mem_cons_self, overruns⟩, rfl⟩
        · cases impossible

/-- What is added does not depend on the order of the entries. -/
theorem Adds.perm (adds : s.Adds entries w w') (same : entries.Perm entries') : s.Adds entries' w w' where
  now := adds.now
  valid := adds.valid
  closed := adds.closed
  added e mem := adds.added e (same.mem_iff.mpr mem)
  others k spared := adds.others k fun e mem => spared e (same.mem_iff.mp mem)

/-- Where the same entries have been added the same is there. -/
theorem Adds.live?_eq {t : Instant} (adds : s.Adds entries w w') (adds' : s.Adds entries w w'')
    (later : w.now ≤ t) : w'.cache.live? t k = w''.cache.live? t k := by
  by_cases stores : ∃ e ∈ entries, s.key e.tokenId = .ok k ∧ w.cache.live? w.now k = none
  · obtain ⟨e, mem, keyed, missing⟩ := stores
    rw [adds.added e mem k keyed missing t later, adds'.added e mem k keyed missing t later]
  · have spared (e : Entry) (mem : e ∈ entries) (keyed : s.key e.tokenId = .ok k) :
        w.cache.live? w.now k ≠ none := fun missing => stores ⟨e, mem, keyed, missing⟩
    rw [adds.others k spared t later, adds'.others k spared t later]

/-- Entries are revoked to the same end in every order: one of them overruns, or each has its outcome and
what is there later is the same. -/
def SettlesInAnyOrder (s : Store) (entries : List Entry) (w : World Memory) : Prop :=
  (∃ e ∈ entries, s.Overruns w e) ∧ (∀ entries', entries.Perm entries' →
      Action.runAll Memory.backend (s.bulkRevoke entries') w = .error .instantRange) ∨
    (∀ e ∈ entries, ¬ s.Overruns w e) ∧
      ∃ left : Instant → String → Option Memory.Entry, ∀ entries', entries.Perm entries' → ∃ w',
        Action.runAll Memory.backend (s.bulkRevoke entries') w =
            .ok ((entries'.map (s.outcomeIn w)).map some, w') ∧
          s.Adds entries w w' ∧ ∀ t k, w.now ≤ t → w'.cache.live? t k = left t k

/-- One order of entries under different identifiers, behind a closed breaker. -/
theorem runAll_bulkRevoke (valid : w.cache.Valid) (closed : w.breaker.state.circuit = .closed)
    (distinct : (entries.map Entry.tokenId).Nodup) :
    (∃ e ∈ entries, s.Overruns w e) ∧
        Action.runAll Memory.backend (s.bulkRevoke entries) w = .error .instantRange ∨
      (∀ e ∈ entries, ¬ s.Overruns w e) ∧ ∃ w', Action.runAll Memory.backend (s.bulkRevoke entries) w =
          .ok ((entries.map (s.outcomeIn w)).map some, w') ∧ s.Adds entries w w' := by
  obtain ⟨_, w', ⟨overruns, rfl⟩ | ⟨fine, rfl, adds⟩, runs⟩ :=
    Action.runAll_of_yields (yields_inTurn_adds valid closed distinct)
  · exact .inl ⟨overruns, runs⟩
  · exact .inr ⟨fine, w', runs, adds⟩

/-- Behind a closed breaker the order of entries under different identifiers does not matter. -/
theorem bulkRevoke_ordered (valid : w.cache.Valid) (closed : w.breaker.state.circuit = .closed)
    (distinct : (entries.map Entry.tokenId).Nodup) : s.SettlesInAnyOrder entries w := by
  have ordered {entries' : List Entry} (same : entries.Perm entries') :=
    runAll_bulkRevoke (s := s) valid closed ((same.map Entry.tokenId).nodup_iff.mp distinct)
  rcases ordered (.refl entries) with ⟨⟨e, mem, overruns⟩, _⟩ | ⟨fine, w₁, _, adds₁⟩
  · refine .inl ⟨⟨e, mem, overruns⟩, fun entries' same => ?_⟩
    rcases ordered same with ⟨_, runs⟩ | ⟨fine, _⟩
    · exact runs
    · exact absurd overruns (fine e (same.mem_iff.mp mem))
  · refine .inr ⟨fine, fun t k => w₁.cache.live? t k, fun entries' same => ?_⟩
    rcases ordered same with ⟨⟨e, mem, overruns⟩, _⟩ | ⟨_, w', runs, adds⟩
    · exact absurd overruns (fine e (same.mem_iff.mpr mem))
    · have adds := adds.perm same.symm
      exact ⟨w', runs, adds, fun t k later => adds.live?_eq adds₁ later⟩

/-- All entries are reported in their order, whatever the cache and the breaker do, and what is reported as
revoked is founded, unless a fault of the cache or of a delay ends the call. Over a cache in memory and behind
a closed breaker, entries under different identifiers end it so only where one of them overruns, and their
order does not matter. -/
theorem bulkRevoke_reports (s : Store) (entries : List Entry) :
    (∀ {σ : Type} (backend : Cache.Backend σ) (w : World σ), s.ReportsAll backend entries w) ∧
      ∀ w : World Memory, w.cache.Valid → w.breaker.state.circuit = .closed →
        (entries.map Entry.tokenId).Nodup → s.SettlesInAnyOrder entries w :=
  ⟨fun backend w => bulkRevoke_answers s backend entries w, fun _ valid closed distinct =>
    bulkRevoke_ordered valid closed distinct⟩

end Revocation.Store

/-! ### An entry without an identifier and one without an end -/

namespace Sample

open Revocation Revocation.Store

def anonymous : Entry := ⟨"", 0, 5, .logout, none⟩

/-- An entry that is never to be forgotten. -/
def endless : Entry := ⟨"endless", 0, Int64.maxValue, .security, none⟩

/-- Of two entries one is revoked and one has failed, and both are reported. Two other entries bring the call
to a fault, in both orders. -/
theorem reports_departed :
    (∃ outcomes last, Action.runAll Memory.backend (service.store.bulkRevoke [departed, anonymous]) world =
          .ok (outcomes.map some, last.world) ∧
        BulkOutcome.collect [departed, anonymous] outcomes = ⟨["id"], [], [("", "invalid token id")]⟩ ∧
        service.store.Founded Memory.backend Memory.Holds [departed, anonymous] outcomes ⟨world, []⟩ last) ∧
      Action.runAll Memory.backend (service.store.bulkRevoke [departed, endless]) world =
          .error .instantRange ∧
      Action.runAll Memory.backend (service.store.bulkRevoke [endless, departed]) world =
          .error .instantRange := by
  have valid : world.cache.Valid := Memory.valid_empty _
  refine ⟨?_, ?_⟩
  · obtain ⟨founds, settles⟩ := bulkRevoke_reports service.store [departed, anonymous]
    rcases settles world valid rfl (by decide) with ⟨⟨e, mem, k, keyed, overruns⟩, _⟩ | ⟨_, _, settled⟩
    · rcases List.mem_pair.mp mem with rfl | rfl
      · have fits : (world.now.after? (Span.ofSecs departed.ttl.lifetimeSecs)).isSome := by decide +kernel
        rw [overruns.2] at fits
        cases fits
      · have unnamed : service.store.key anonymous.tokenId = .error .invalidTokenId := by decide +kernel
        cases unnamed.symm.trans keyed
    · obtain ⟨w', runs, _⟩ := settled _ (.refl _)
      rcases founds Memory.backend world with ⟨f, fails, _⟩ | ⟨outcomes, last, runs', _, founded⟩
      · cases runs.symm.trans fails
      · refine ⟨outcomes, last, runs', ?_, founded _ _ Memory.honoursTime.storesAtOnce valid⟩
        have same := (Prod.mk.inj (Except.ok.inj (runs.symm.trans runs'))).1
        rw [← (List.map_inj_right fun _ _ => Option.some.inj).mp same]
        decide +kernel
  · have settles := (bulkRevoke_reports service.store [departed, endless]).2 world valid rfl (by decide)
    rcases settles with ⟨_, fails⟩ | ⟨fine, _⟩
    · exact ⟨fails _ (.refl _), fails _ (.swap _ _ _)⟩
    · refine absurd ?_ (fine endless (List.mem_cons_of_mem _ List.mem_cons_self))
      exact ⟨"auth:revoked:endless", rfl, by decide +kernel, by decide +kernel⟩

end Sample

end TokenAuthority
