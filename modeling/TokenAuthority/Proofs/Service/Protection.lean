import TokenAuthority.Proofs.Cache.Changes
import TokenAuthority.Proofs.Service.Calls

/-!
# What protects a token in a schedule

One key of a cache is watched while calls go on side by side, until the second from which on the
credential behind the key is never current. Under the key there is nothing, or an entry that lasts until
then; once any call has been told about an entry there, it is the latter.

* `TokenService.Watch`, `Watch.Lacks`, `Watch.Covers` — what is watched, and the two states of it.
* `Watch.Invariant` — the invariant of a schedule. `Invariant.step`, `Invariant.steps` carry it along.
* `Watch.Covers.steps` — an entry stays until the end, so that no call stores another one and none finds
  the key empty before.
-/

namespace TokenAuthority

namespace TokenService

variable {σ : Type}

/-- A key that is watched from one instant to another, and until the clock reads a second. -/
structure Watch (σ : Type) where
  /-- What a cache holds. -/
  holds : σ → Instant → String → Prop
  key : String
  clock : Instant → Int64
  offset : Int
  first : Instant
  last : Instant
  steady : Steady clock offset first last
  /-- The second until which the key matters. -/
  ends : Int

/-- The key of a credential, watched until the credential is never current again. -/
def watch (s : TokenService) (c : Credential) (holds : σ → Instant → String → Prop) (key : String)
    {clock : Instant → Int64} {offset : Int} {first last : Instant}
    (steady : Steady clock offset first last) : Watch σ :=
  ⟨holds, key, clock, offset, first, last, steady, s.lastSecond c⟩

namespace Watch

/-- There is nothing under the key. -/
def Lacks (W : Watch σ) (now : Instant) (c : σ) : Prop := ∀ t, now ≤ t → ¬ W.holds c t W.key

/-- There is an entry under the key for as long as it matters. -/
def Covers (W : Watch σ) (now : Instant) (c : σ) : Prop :=
  ∀ t, now ≤ t → t ≤ W.last → (W.clock t).toInt < W.ends → W.holds c t W.key

/-- There is nothing under the key, or an entry for as long as it matters. -/
def Decided (W : Watch σ) (now : Instant) (c : σ) : Prop := W.Lacks now c ∨ W.Covers now c

variable {W : Watch σ} {now now' : Instant} {c c' : σ}

theorem Lacks.alike (lacks : W.Lacks now c) (alike : Cache.Alike W.holds now W.key c c') :
    W.Lacks now c' :=
  Cache.Lacks.alike lacks alike

theorem Covers.alike (covers : W.Covers now c) (alike : Cache.Alike W.holds now W.key c c') :
    W.Covers now c' :=
  fun t later inTime current => (alike t later).mpr (covers t later inTime current)

theorem Lacks.later (lacks : W.Lacks now c) (le : now ≤ now') : W.Lacks now' c :=
  Cache.Lacks.later lacks le

theorem Covers.later (covers : W.Covers now c) (le : now ≤ now') : W.Covers now' c :=
  fun t later => covers t (Nat.le_trans le later)

theorem Decided.alike (decided : W.Decided now c) (alike : Cache.Alike W.holds now W.key c c') :
    W.Decided now c' :=
  decided.imp (·.alike alike) (·.alike alike)

theorem Decided.later (decided : W.Decided now c) (le : now ≤ now') : W.Decided now' c :=
  decided.imp (·.later le) (·.later le)

/-- Where there is something under the key, there is an entry for as long as it matters. -/
theorem Decided.covers (decided : W.Decided now c) (there : W.holds c now W.key) :
    W.Covers now c := by
  rcases decided with lacks | covers
  · exact absurd there (lacks now (Nat.le_refl _))
  · exact covers

/-! ### Cache calls -/

/-- An entry that is stored under the key lasts for as long as it matters. -/
theorem covers_of_stored {s : TokenService} {credential : Credential} {read : Instant} {told : Int64}
    {ttl : Span} {reason : Revocation.Reason} (ends : s.lastSecond credential = W.ends)
    (nonneg : ¬ credential.expiresAt < 0) (found : s.revocationTtl? credential told = some ttl)
    (truthful : told = W.clock read) (started : W.first ≤ read) (later : read ≤ now)
    (inTime : now ≤ W.last)
    (lives : ∀ t, now ≤ t →
      t < now.after (Span.ofSecs (entryFor credential told ttl reason).ttl.lifetimeSecs) →
      W.holds c t W.key) : W.Covers now c := by
  intro t after early current
  have begun := Nat.le_trans started later
  have reads : told.toInt = read.secs + W.offset := by
    rw [truthful]
    exact W.steady.reads read started (Nat.le_trans later inTime)
  refine lives t after (entry_outlasts reason found nonneg reads later ?_ ?_)
  · rw [ends, ← W.steady.reads t (Nat.le_trans begun after) early]
    exact current
  · exact Nat.lt_of_le_of_lt (Instant.secs_mono early) W.steady.inRange

/-- What has been seen is true, and was seen since the watch began. -/
def Knows (W : Watch σ) (now : Instant) (h : History) : Prop :=
  ∀ e ∈ h, e.IsTruthful W.clock ∧ W.first ≤ e.time ∧ e.time ≤ now

/-- A cache call of a call that keeps to the rule changes nothing under the key, or leaves an entry there
for as long as it matters. If it is told about an entry, there is one. -/
theorem alike_or_covers {s : TokenService} {h : History} {r : Cache.Request} {a : r.Answer}
    (inTime : now ≤ W.last) (knows : W.Knows now h)
    (entry : r.Writes W.key → s.StoresEntry W.key W.ends h r)
    (acts : Cache.Acts W.holds now c r a c') :
    Cache.Alike W.holds now W.key c c' ∧
        (r.Writes W.key → ∀ v, a = .ok v → W.holds c now W.key) ∨
      W.Covers now c' := by
  by_cases writes : r.Writes W.key
  · obtain ⟨read, told, credential, ttl, reason, seen, ends, nonneg, found, rfl⟩ := entry writes
    obtain ⟨truthful, started, later⟩ := knows _ seen
    cases acts with
    | kept alike notTrue there =>
        refine .inl ⟨alike W.key, fun _ v same => ?_⟩
        cases v with
        | true => exact absurd same notTrue
        | false => exact there same
    | stored _ _ _ lives =>
        exact .inr (covers_of_stored ends nonneg found truthful started later inTime lives)
  · exact .inl ⟨acts.alike writes, fun impossible => absurd impossible writes⟩

/-- While there is an entry, no call stores another one. -/
theorem Covers.not_stored {value : String} {ttl : Span} (covers : W.Covers now c)
    (inTime : now ≤ W.last) (current : (W.clock now).toInt < W.ends) :
    ¬ Cache.Acts W.holds now c (.setIfAbsent W.key value ttl) (.ok true) c' := by
  intro acts
  cases acts with
  | kept _ notTrue _ => exact notTrue rfl
  | stored _ absent _ _ => exact absent (covers now (Nat.le_refl _) inTime current)

/-- While there is an entry, no look-up finds none. -/
theorem Covers.not_findsNone (covers : W.Covers now c) (inTime : now ≤ W.last)
    (current : (W.clock now).toInt < W.ends) :
    ¬ Cache.Acts W.holds now c (.contains W.key) (.ok false) c' := by
  intro acts
  cases acts with
  | looked _ finds =>
      have found := (finds false rfl).mpr (covers now (Nat.le_refl _) inTime current)
      exact Bool.false_ne_true found

/-! ### Schedules -/

variable {backend : Cache.Backend σ} {valid : σ → Prop} {s : TokenService}
  {S S' : Scene σ Call (Option Reply)} {l : Option (Nat × Event)}

/-- What holds of a schedule all along. -/
structure Invariant (W : Watch σ) (backend : Cache.Backend σ) (valid : σ → Prop) (s : TokenService)
    (S : Scene σ Call (Option Reply)) : Prop where
  tracked : S.Tracked backend (Call.flow s)
  valid : valid S.world.cache
  clock : S.world.clock = W.clock
  started : W.first ≤ S.world.now
  knows : ∀ i, W.Knows S.world.now (S.seen i)
  decided : W.Decided S.world.now S.world.cache
  covered : ∀ i, ∀ e ∈ S.seen i, ∀ stored, e.Sets W.key stored →
    W.Covers S.world.now S.world.cache

/-- What a world keeps while something happens in it. -/
structure Carries (W : Watch σ) (valid : σ → Prop) (w w' : World σ) : Prop where
  valid : valid w'.cache
  decided : W.Decided w'.now w'.cache
  covers : W.Covers w.now w.cache → W.Covers w'.now w'.cache

/-- What keeps all that there is under the key carries everything over. -/
theorem Carries.of_alike {w w' : World σ} (holds : valid w'.cache) (later : w.now ≤ w'.now)
    (decided : W.Decided w.now w.cache) (alike : Cache.Alike W.holds w.now W.key w.cache w'.cache) :
    W.Carries valid w w' where
  valid := holds
  decided := (decided.alike alike).later later
  covers covers := (covers.alike alike).later later

/-- What happens in a world, if calls keep to the rule, carries everything over; and if a call is told
about an entry under the key, there is one. -/
theorem effect_carries {w w' : World σ} {e : Option Event} {h : History}
    (honours : backend.HonoursTime valid W.holds) (effect : Scene.Effect backend w e w')
    (holds : valid w.cache) (inTime : w.now ≤ W.last) (decided : W.Decided w.now w.cache)
    (knows : W.Knows w.now h)
    (entries : ∀ time r ds x, e = some (.ended time (.cache r) ds x) → r.Writes W.key →
      s.StoresEntry W.key W.ends h r) :
    W.Carries valid w w' ∧
      ∀ event stored, e = some event → event.Sets W.key stored → W.Covers w'.now w'.cache := by
  have quiet {w₁ w₂ : World σ} (begins : Scene.Begins backend w₁ w₂) (same : w₁.cache = w.cache)
      (still : w₁.now = w.now) : W.Carries valid w w₂ := by
    obtain ⟨valid', alike⟩ := begins.alike honours (by rwa [same])
    refine .of_alike valid' ?_ decided ?_
    · rw [begins.now, still]
      exact Nat.le_refl _
    · rw [← same]
      exact alike w.now W.key
  cases effect with
  | quiet begins => exact ⟨quiet begins rfl rfl, fun event stored impossible => by cases impossible⟩
  | passed span =>
      refine ⟨.of_alike holds (Nat.le_add_right _ _) decided fun t _ => Iff.rfl, ?_⟩
      exact fun event stored impossible => by cases impossible
  | asked q begins =>
      refine ⟨quiet begins (w.cache_answer q) (w.now_answer q), ?_⟩
      rintro event stored same ⟨_, _, _, _, rfl⟩
      cases same
  | slept span ds begins =>
      refine ⟨quiet begins rfl rfl, ?_⟩
      rintro event stored same ⟨_, _, _, _, rfl⟩
      cases same
  | cut wait ds i begins =>
      refine ⟨quiet begins rfl rfl, ?_⟩
      rintro event stored same ⟨_, _, _, _, rfl⟩
      cases same
  | @called r ds _ _ c _ _ a _ acts finished begins =>
      obtain ⟨valid', acted⟩ := honours.finishes acts holds finished
      obtain ⟨valid'', begun⟩ := begins.alike honours valid'
      rw [begins.now]
      rcases alike_or_covers inTime knows (entries _ r ds _ rfl) acted with ⟨alike, told⟩ | covers
      · have alike' : Cache.Alike W.holds w.now W.key w.cache w'.cache := fun t later =>
          (begun w.now W.key t later).trans (alike t later)
        refine ⟨.of_alike valid'' ?_ decided alike', ?_⟩
        · rw [begins.now]
          exact Nat.le_refl _
        · rintro event stored same ⟨time, value, ttl, ds', rfl⟩
          cases same
          exact (decided.covers (told rfl stored rfl)).alike alike'
      · have covers' : W.Covers w.now w'.cache := covers.alike (begun w.now W.key)
        refine ⟨⟨valid'', ?_, fun _ => ?_⟩, fun _ _ _ _ => covers'⟩
        · rw [begins.now]
          exact .inr covers'
        · rw [begins.now]
          exact covers'

/-- All calls under way leave the key to entries of credentials that end with the watch. -/
def Respected (W : Watch σ) (s : TokenService) (S : Scene σ Call (Option Reply)) : Prop :=
  ∀ i k, S.call? i = some k → k.Respects s W.key W.ends

/-- One step keeps the invariant, and an entry that there is. -/
theorem Invariant.step (invariant : W.Invariant backend valid s S)
    (step : Scene.Step backend (Call.flow s) S l S') (honours : backend.HonoursTime valid W.holds)
    (spares : s.Spares W.key) (respected : W.Respected s S) (inTime : S.world.now ≤ W.last) :
    W.Invariant backend valid s S' ∧
      (W.Covers S.world.now S.world.cache → W.Covers S'.world.now S'.world.cache) := by
  have effect := step.effect invariant.tracked
  obtain ⟨h, knows, entries⟩ : ∃ h, W.Knows S.world.now h ∧ ∀ time r ds x,
      l.map Prod.snd = some (.ended time (.cache r) ds x) → r.Writes W.key →
        s.StoresEntry W.key W.ends h r := by
    match l with
    | none => exact ⟨[], (fun e none => (List.not_mem_nil none).elim), fun _ _ _ _ none => by cases none⟩
    | some (i, e) =>
        obtain ⟨k, here⟩ := step.caller
        have ensures := Call.ensures_entryRule spares (respected i k here)
        have allowed := step.allowed invariant.tracked here ensures.start
        refine ⟨S.seen i, invariant.knows i, fun time r ds x same writes => ?_⟩
        cases same
        exact allowed r rfl writes
  obtain ⟨carries, told⟩ := effect_carries honours effect invariant.valid inTime invariant.decided
    knows entries
  refine ⟨⟨step.tracked invariant.tracked, carries.valid, effect.clock.trans invariant.clock,
    Nat.le_trans invariant.started effect.now, ?_, carries.decided, ?_⟩, carries.covers⟩
  · intro i e mem
    rcases step.mem_seen mem with before | rfl
    · obtain ⟨truthful, started, past⟩ := invariant.knows i e before
      exact ⟨truthful, started, Nat.le_trans past effect.now⟩
    · obtain ⟨still, now, truthful⟩ := effect.seen
      rw [invariant.clock] at truthful
      refine ⟨truthful, ?_, ?_⟩
      · rw [now]
        exact invariant.started
      · rw [now, still]
        exact Nat.le_refl _
  · intro i e mem stored sets
    rcases step.mem_seen mem with before | rfl
    · exact carries.covers (invariant.covered i e before stored sets)
    · exact told e stored rfl sets

/-- Any number of steps keep the invariant, and an entry that there is. -/
theorem Invariant.steps (invariant : W.Invariant backend valid s S)
    (steps : Scene.Steps backend (Call.flow s) S S') (honours : backend.HonoursTime valid W.holds)
    (spares : s.Spares W.key) (respected : W.Respected s S') (inTime : S'.world.now ≤ W.last) :
    W.Invariant backend valid s S' ∧
      (W.Covers S.world.now S.world.cache → W.Covers S'.world.now S'.world.cache) := by
  induction steps with
  | refl => exact ⟨invariant, id⟩
  | snoc steps step ih =>
      have later := (step.effect (steps.tracked invariant.tracked)).now
      have before := fun i k here => respected i k (step.call? here)
      obtain ⟨kept, covers⟩ := ih before (Nat.le_trans later inTime)
      obtain ⟨kept', covers'⟩ := kept.step step honours spares before (Nat.le_trans later inTime)
      exact ⟨kept', covers' ∘ covers⟩

/-! ### While there is an entry -/

/-- The event shows that there was no entry under the key: it was stored anew, or a look-up found none. -/
def Misses (W : Watch σ) (e : Event) : Prop := e.Sets W.key true ∨ e.FindsNone W.key

/-- The event was seen while the key matters. -/
def IsCurrent (W : Watch σ) (e : Event) : Prop := (W.clock e.time).toInt < W.ends

/-- What a cache call has answered, it has acted on. -/
theorem acts_of_effect {w w' : World σ} {time : Instant} {r : Cache.Request} {ds : List Nat}
    {a : r.Answer} (honours : backend.HonoursTime valid W.holds) (holds : valid w.cache)
    (effect : Scene.Effect backend w (some (.ended time (.cache r) ds (.ok a))) w') :
    ∃ c', Cache.Acts W.holds w.now w.cache r a c' := by
  cases effect with
  | called ds acts finished _ => exact ⟨_, (honours.finishes acts holds finished).2⟩

/-- While there is an entry, no event shows that there is none. -/
theorem Invariant.not_misses {i : Nat} {e : Event} (invariant : W.Invariant backend valid s S)
    (step : Scene.Step backend (Call.flow s) S (some (i, e)) S')
    (honours : backend.HonoursTime valid W.holds) (inTime : S.world.now ≤ W.last)
    (covers : W.Covers S.world.now S.world.cache) (current : W.IsCurrent e) : ¬ W.Misses e := by
  have effect : Scene.Effect backend S.world (some e) S'.world := step.effect invariant.tracked
  rw [IsCurrent, effect.seen.2.1] at current
  rintro (⟨time, value, ttl, ds, rfl⟩ | ⟨time, ds, rfl⟩)
  · obtain ⟨c', acts⟩ := acts_of_effect honours invariant.valid effect
    exact covers.not_stored inTime current acts
  · obtain ⟨c', acts⟩ := acts_of_effect honours invariant.valid effect
    exact covers.not_findsNone inTime current acts

/-- Once there is an entry, all later events that show that there is none come after it matters. -/
theorem Covers.steps (covers : W.Covers S.world.now S.world.cache)
    (invariant : W.Invariant backend valid s S) (steps : Scene.Steps backend (Call.flow s) S S')
    (honours : backend.HonoursTime valid W.holds) (spares : s.Spares W.key)
    (respected : W.Respected s S') (inTime : S'.world.now ≤ W.last) {i : Nat} {e : Event}
    (mem : e ∈ S'.seen i) (misses : W.Misses e) (current : W.IsCurrent e) : e ∈ S.seen i := by
  induction steps with
  | refl => exact mem
  | snoc steps step ih =>
      have later := (step.effect (steps.tracked invariant.tracked)).now
      have before := fun i k here => respected i k (step.call? here)
      have inTime' := Nat.le_trans later inTime
      rcases step.mem_seen mem with mem | rfl
      · exact ih before inTime' mem
      · obtain ⟨kept, covers'⟩ := invariant.steps steps honours spares before inTime'
        exact absurd misses (kept.not_misses step honours inTime' (covers' covers) current)

/-- Two calls do not both store an entry while it matters, if there was none to begin with. -/
theorem Invariant.sets_unique (invariant : W.Invariant backend valid s S)
    (steps : Scene.Steps backend (Call.flow s) S S') (honours : backend.HonoursTime valid W.holds)
    (spares : s.Spares W.key) (respected : W.Respected s S') (inTime : S'.world.now ≤ W.last)
    (start : S.strands = []) {i j : Nat} {e e' : Event} (mem : e ∈ S'.seen i) (mem' : e' ∈ S'.seen j)
    (sets : e.Sets W.key true) (sets' : e'.Sets W.key true) (current : W.IsCurrent e)
    (current' : W.IsCurrent e') : i = j ∧ e = e' := by
  induction steps with
  | refl =>
      rw [Scene.seen, start] at mem
      exact ((List.not_mem_nil mem).elim)
  | snoc steps step ih =>
      have later := (step.effect (steps.tracked invariant.tracked)).now
      have before := fun i k here => respected i k (step.call? here)
      have inTime' := Nat.le_trans later inTime
      obtain ⟨kept, _⟩ := invariant.steps steps honours spares before inTime'
      rcases step.mem_seen mem with mem | rfl <;> rcases step.mem_seen mem' with mem' | same
      · exact ih before inTime' mem mem'
      · subst same
        have covers := kept.covered i e mem true sets
        exact absurd (.inl sets') (kept.not_misses step honours inTime' covers current')
      · have covers := kept.covered j e' mem' true sets'
        exact absurd (.inl sets) (kept.not_misses step honours inTime' covers current)
      · cases same
        exact ⟨rfl, rfl⟩

/-- A schedule without calls, over a cache in which the key is decided. -/
theorem Invariant.nil {w : World σ} (holds : valid w.cache) (clock : w.clock = W.clock)
    (started : W.first ≤ w.now) (decided : W.Decided w.now w.cache) :
    W.Invariant backend valid s ⟨w, []⟩ where
  tracked := Scene.tracked_nil w
  valid := holds
  clock := clock
  started := started
  knows _ _ none := (List.not_mem_nil none).elim
  decided := decided
  covered _ _ none := (List.not_mem_nil none).elim

end Watch

end TokenService

end TokenAuthority
