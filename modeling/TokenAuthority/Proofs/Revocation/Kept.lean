import TokenAuthority.Proofs.Cache.Counter
import TokenAuthority.Proofs.Json.Record
import TokenAuthority.Proofs.Revocation.Duration
import TokenAuthority.Proofs.Token.Written

/-!
# What is kept of a revoked token

An entry that was stored over a cache in memory is found until its time is over, as it was stored, whatever
the store and others do meanwhile, as long as nobody removes it. How long its time is depends on the seconds
of the entry alone, so a span with a part of a second is not covered to its end.

* `Entry.parse?_text` — an entry is read back from its text.
* `Store.Uses` — what the store can be used for without removing the entry of a token.
* `Store.Visits` — the worlds that uses, calls of others and pauses lead to, one after the other.
* `Store.Kept`, `Store.kept_of_visits` — the entry in such a world.
* `Store.remembers_of_stored` — a stored entry is found, and revoking its token again changes nothing.
* `Store.covers_of_revoke` — how much of a span a token stays revoked for.
-/

namespace TokenAuthority

open TokenAuthority.Action
open Cache (Memory)

namespace Revocation.Entry

/-! ### Entries as text -/

/-- The fields as they are written, in the order in which they are read. -/
theorem fields?_toJson (e : Entry) : e.toJson.fields? fieldNames =
    some [some (.string e.tokenId), some (.int e.revokedAt.toInt), some (.int e.expiresAt.toInt),
      some (.string e.reason.name), e.userId.map .string] := by
  obtain ⟨tokenId, revokedAt, expiresAt, reason, userId⟩ := e
  cases userId <;> rfl

/-- The members of an entry are fields of it, and within the limits of the reader. -/
theorem mem_toJson {e : Entry} {ms : List (String × Json)} (same : e.toJson = .object ms)
    {member : String × Json} (mem : member ∈ ms) :
    fieldNames.contains member.1 ∧ member.2.Fits (Json.maxDepth - 1) := by
  cases same
  simp only [List.mem_append, Option.mem_toList, Option.map_eq_some_iff, List.mem_cons,
    List.not_mem_nil, or_false] at mem
  rcases mem with (rfl | rfl | rfl | rfl) | ⟨userId, _, rfl⟩
  · exact ⟨rfl, .string _⟩
  · exact ⟨rfl, Json.fits_int _⟩
  · exact ⟨rfl, Json.fits_int _⟩
  · exact ⟨rfl, .string _⟩
  · exact ⟨rfl, .string userId⟩

/-- An entry is read back from its text, whatever its times, its reason and its user are. -/
theorem parse?_text (e : Entry) : parse? e.text = some e := by
  have read : Json.record? fieldNames e.text = e.toJson.fields? fieldNames :=
    Json.record?_render (fun _ mem => (mem_toJson rfl mem).1) (.object fun _ mem => (mem_toJson rfl mem).2)
  rw [parse?, read, fields?_toJson]
  simp only [Option.bind_eq_bind, Option.bind_some, Json.text?, Json.int64?_int, Int64.ofInt_toInt,
    Json.choice?, Reason.ofName?_name, Json.optional?_texts]
  rfl

/-- An entry is kept for a second at least. -/
theorem second_le_ttl (e : Entry) : Span.ofSecs 1 ≤ e.ttl := by
  have least : 1 ≤ (max (Seconds.minus e.expiresAt e.revokedAt).toInt 1).toNat := by omega
  exact Nat.mul_le_mul_left Span.nanosPerSecond least

/-- The time that a token stays revoked for is no shorter than a span exactly if the span is no longer than a
second, or is in whole seconds of which the clock has as many left. -/
theorem le_keptSecs_iff {now : Int64} {ttl : Span} : ttl ≤ Span.ofSecs (keptSecs now ttl.secs) ↔
    ttl ≤ Span.ofSecs 1 ∨ ttl.subsecNanos = 0 ∧ (ttl.secs : Int) ≤ 2 ^ 63 - 1 - max now.toInt 0 := by
  obtain ⟨n⟩ := ttl
  have greatest := now.toInt_lt
  change n ≤ _ ↔ n ≤ _ ∨ _
  simp only [Span.ofSecs, keptSecs, Span.secs, Span.subsecNanos, Span.nanosPerSecond]
  omega

end Revocation.Entry

/-! ### Entries in the cache -/

namespace Cache.Memory

variable {m m' : Memory} {now t : Instant} {key value : String} {ttl : Span} {e : Entry}

/-- What is stored is told: it is stored if nothing is live. -/
theorem stored_of_setIfAbsent {stored : Bool} (stores : m.setIfAbsent now key value ttl = .ok (stored, m')) :
    stored = (m.live? now key).isNone := by
  unfold setIfAbsent at stores
  split at stores <;> rename_i live
  · rw [live, ← (Prod.mk.inj (Except.ok.inj stores)).1]
    rfl
  · split at stores
    · rw [live, ← (Prod.mk.inj (Except.ok.inj stores)).1]
      rfl
    · cases stores

/-- What was stored is live for its time. -/
theorem live?_of_setIfAbsent (valid : m.Valid) (stores : m.setIfAbsent now key value ttl = .ok (true, m'))
    (later : now ≤ t) : m'.live? t key =
      (some ⟨value, now.after (Span.ofSecs ttl.lifetimeSecs)⟩ : Option Entry).filter
        fun e => t < e.expiresAt := by
  unfold setIfAbsent at stores
  split at stores
  · cases stores
  · split at stores
    · rename_i made
      obtain ⟨_, same⟩ := Prod.mk.inj (Except.ok.inj stores)
      rw [← same, live?_put_noteWrite valid later, if_pos rfl, ← expiresAt_of_new? made]
      obtain ⟨_, _, rfl⟩ := Option.map_eq_some_iff.mp made
      rfl
    · cases stores

end Cache.Memory

/-- Asking a breaker that is as it was in the beginning leaves it so. -/
theorem World.answer_state {w : World Memory} (closed : w.breaker.state = .initial) :
    (w.answer (.circuit .state)).2 = w := by
  obtain ⟨_, _, _, _, ⟨name, config, state⟩, _, _⟩ := w
  cases closed
  rfl

namespace Revocation.Store

variable {s : Store} {w w' w₀ w₁ : World Memory} {operation : Operation} {tokenId k : String} {e : Entry}

/-! ### Uses of the store -/

/-- The store is used without removing the entry of a token. It may revoke the token if `again`. -/
inductive Uses (s : Store) (tokenId : String) (again : Prop) : {α : Type} → Action α → Prop where
  | isRevoked (id : String) : Uses s tokenId again (s.isRevoked id)
  | lookup (id : String) : Uses s tokenId again (s.lookup id)
  | revokeEntry {e : Entry} : (e.tokenId = tokenId → again) → Uses s tokenId again (s.revokeEntry e)
  | revoke {id : String} (ttl : Span) : (id = tokenId → again) → Uses s tokenId again (s.revoke id ttl)
  | remove {id : String} : id ≠ tokenId → Uses s tokenId again (s.remove id)
  | health (backend : String) : Uses s tokenId again (s.health backend)
  | map {α β : Type} {a : Action α} (f : α → β) :
      Uses s tokenId again a → Uses s tokenId again (a >>= fun x => pure (f x))

/-- The one cache call of a use of the store, if it makes any: a request that does not write the key `k`, or one
that stores under `k` what is absent, and that only if `again`. -/
inductive CacheCall (w : World Memory) (k : String) (again : Prop) : World Memory → Prop where
  | nothing {w' : World Memory} : w.Leaves w.cache w' → CacheCall w k again w'
  | spares {r : Cache.Request} {a : r.Answer} {c : Memory} {w' : World Memory} :
      w.cache.perform w.now r = .ok (a, c) → w.Leaves c w' → ¬ r.Writes k → CacheCall w k again w'
  | stores {value : String} {ttl : Span} {stored : Bool} {c : Memory} {w' : World Memory} :
      w.cache.perform w.now (.setIfAbsent k value ttl) = .ok (.ok stored, c) → w.Leaves c w' → again →
      CacheCall w k again w'

theorem CacheCall.now {again : Prop} (called : CacheCall w k again w') : w'.now = w.now := by
  cases called with
  | nothing leaves => exact leaves.now
  | spares _ leaves _ => exact leaves.now
  | stores _ leaves _ => exact leaves.now

theorem Recorded.cacheCall {again : Prop} {outcome : Except Error Bool} (keyed : s.key tokenId = .ok k)
    (mayStore : e.tokenId = tokenId → again) (recorded : s.Recorded e w (.ok outcome) w') :
    CacheCall w k again w' := by
  cases recorded with
  | invalid _ leaves => exact .nothing leaves
  | refused _ leaves => exact .nothing leaves
  | @answered k' _ _ keyed' answered =>
      by_cases same : k' = k
      · cases same
        exact .stores answered.performs answered.leaves (mayStore (eq_of_key keyed keyed'))
      · exact .spares answered.performs answered.leaves same

theorem yields_onKey_cacheCall {request : String → Cache.Request} {α : Type} {again : Prop} {id : String}
    {next : (k : String) → (request k).Value → Except Error α} (closed : w.breaker.state = .initial)
    (uncounted : ∀ k key window, request k ≠ .increment key window)
    (spares : ∀ k', s.key id = .ok k' → ¬ (request k').Writes k) :
    (s.onKey operation id request next).Yields w fun r w' => ∀ x, r = .ok x → CacheCall w k again w' := by
  cases keyed : s.key id with
  | error error => exact yields_onKey_invalid keyed fun _ _ => .nothing w.leaves_self
  | ok k' =>
      refine (yields_onKey closed keyed (uncounted k')).mono ?_
      rintro _ w' (⟨performs, leaves⟩ | ⟨_, _⟩)
      · exact fun _ _ => .spares performs leaves (spares k' keyed)
      · exact fun x impossible => by cases impossible

/-- A use of the store makes at most one cache call. -/
theorem Uses.yields {again : Prop} {α : Type} {a : Action α} (uses : s.Uses tokenId again a)
    (keyed : s.key tokenId = .ok k) (closed : w.breaker.state = .initial) :
    a.Yields w fun r w' => ∀ x, r = .ok x → CacheCall w k again w' := by
  induction uses with
  | isRevoked _ =>
      exact yields_onKey_cacheCall closed (fun _ _ _ impossible => by cases impossible) fun _ _ => id
  | lookup _ =>
      exact yields_onKey_cacheCall closed (fun _ _ _ impossible => by cases impossible) fun _ _ => id
  | remove other =>
      refine yields_onKey_cacheCall closed (fun _ _ _ impossible => by cases impossible) ?_
      intro k' keyed' same
      cases same
      exact other (eq_of_key keyed keyed')
  | revokeEntry mayStore =>
      refine yields_revokeEntry.mono fun r w' recorded x same => ?_
      cases same
      exact recorded.cacheCall keyed mayStore
  | revoke ttl mayStore =>
      unfold Store.revoke
      refine Yields.ask (Yields.bind _ yields_revokeEntry ?_ fun f w' _ x impossible => by
        cases impossible)
      intro outcome w' recorded
      have called := recorded.cacheCall keyed mayStore
      cases outcome with
      | ok stored => exact Yields.done fun _ _ => called
      | error error => exact Yields.done fun _ _ => called
  | health backend =>
      unfold Store.health
      refine Yields.bind _ (yields_attempt fun _ _ impossible => by cases impossible) ?_ ?_
      · rintro _ w' ⟨performs, leaves⟩
        refine Yields.ask ?_
        rw [World.answer_state (leaves.closed closed)]
        exact Yields.done fun _ _ => .spares performs leaves id
      · intro f w' _ x impossible
        cases impossible
  | map f _ ih =>
      refine Yields.bind _ ih ?_ fun f w' _ x impossible => by cases impossible
      exact fun x w' called => Yields.done fun _ _ => called x rfl

/-- The worlds that are reached from `w₁` on without removing the entry of a token, which is revoked only at
moments of `again`: the store is used, for one thing after the other or for many side by side, others use the
cache for other keys, it is swept, and time passes. -/
inductive Visits (s : Store) (tokenId : String) (again : Instant → Prop) (w₁ : World Memory) :
    World Memory → Prop where
  | start : Visits s tokenId again w₁ w₁
  | use {w w' : World Memory} {α : Type} {a : Action α} {x : α} :
      Visits s tokenId again w₁ w → s.Uses tokenId (again w.now) a →
      a.run Memory.backend w = (.value x, w') → Visits s tokenId again w₁ w'
  | uses {w w' : World Memory} {α : Type} {as : List (Action α)} {xs : List α} :
      Visits s tokenId again w₁ w → (∀ a ∈ as, s.Uses tokenId (again w.now) a) →
      Action.runAll Memory.backend as w = .ok (xs.map some, w') → Visits s tokenId again w₁ w'
  | call {w w' : World Memory} {r : Cache.Request} {a : r.Answer} {c : Memory} :
      Visits s tokenId again w₁ w → (∀ k, s.key tokenId = .ok k → ¬ r.Writes k) →
      w.cache.perform w.now r = .ok (a, c) → w.Leaves c w' → Visits s tokenId again w₁ w'
  | purge {w : World Memory} :
      Visits s tokenId again w₁ w →
      Visits s tokenId again w₁ { w with cache := (w.cache.purge w.now).2 }
  | pause {w : World Memory} (span : Span) :
      Visits s tokenId again w₁ w → Visits s tokenId again w₁ (w.advance span)

/-! ### The entry meanwhile -/

/-- The entry under a key is there until its end, unless the key may have been written after its end. -/
structure Kept (k : String) (entry : Memory.Entry) (again : Instant → Prop) (w : World Memory) : Prop where
  valid : w.cache.Valid
  closed : w.breaker.state = .initial
  live : (∀ t, entry.expiresAt ≤ t → t ≤ w.now → ¬ again t) → ∀ t, w.now ≤ t →
    w.cache.live? t k = (some entry).filter fun e => t < e.expiresAt

namespace Kept

variable {entry : Memory.Entry} {again : Instant → Prop}

/-- Before its end the entry is there. -/
theorem present (kept : Kept k entry again w) (early : w.now < entry.expiresAt) :
    w.cache.live? w.now k = some entry := by
  rw [kept.live (fun t past before => absurd (Nat.lt_of_le_of_lt before early) (Nat.not_lt.mpr past)) w.now
    (Nat.le_refl _), Option.filter_some, if_pos (decide_eq_true early)]

/-- From its end on it is not, if the key has not been written since. -/
theorem absent (kept : Kept k entry again w) (late : entry.expiresAt ≤ w.now)
    (unwritten : ∀ t, entry.expiresAt ≤ t → ¬ again t) : w.cache.live? w.now k = none := by
  rw [kept.live (fun t past _ => unwritten t past) w.now (Nat.le_refl _), Option.filter_some, if_neg]
  exact fun early => absurd (of_decide_eq_true early) (Nat.not_lt.mpr late)

theorem pause (kept : Kept k entry again w) (span : Span) : Kept k entry again (w.advance span) where
  valid := kept.valid
  closed := kept.closed
  live unwritten t later := by
    have before : w.now ≤ (w.advance span).now := Nat.le_add_right _ _
    exact kept.live (fun t past le => unwritten t past (Nat.le_trans le before)) t
      (Nat.le_trans before later)

/-- A use of the store or a call of others leaves the entry as it is. -/
theorem called (kept : Kept k entry again w) (called : CacheCall w k (again w.now) w') :
    Kept k entry again w' := by
  obtain ⟨valid, closed, live⟩ := kept
  cases called with
  | nothing leaves =>
      refine ⟨?_, leaves.closed closed, ?_⟩
      · rwa [leaves.cache]
      · rwa [leaves.cache, leaves.now]
  | spares performs leaves spares =>
      refine ⟨?_, leaves.closed closed, fun unwritten t later => ?_⟩
      · rw [leaves.cache]
        exact (Cache.Memory.perform_acts valid performs).1
      · rw [leaves.now] at later unwritten
        rw [leaves.cache, Cache.Memory.live?_of_perform valid performs spares later, live unwritten t later]
  | stores performs leaves mayStore =>
      refine ⟨?_, leaves.closed closed, fun unwritten t later => ?_⟩
      · rw [leaves.cache]
        exact (Cache.Memory.perform_acts valid performs).1
      · rw [leaves.now] at later unwritten
        -- The token is revoked again now, so the time of its entry is not over.
        have early : w.now < entry.expiresAt :=
          Nat.not_le.mp fun past => unwritten w.now past (Nat.le_refl _) mayStore
        have stores := Cache.Memory.setIfAbsent_of_perform performs
        rw [Cache.Memory.setIfAbsent_of_live (present ⟨valid, closed, live⟩ early)] at stores
        cases stores
        rw [leaves.cache, Cache.Memory.live?_noteWrite valid later, live unwritten t later]

end Kept

/-- The entry that was stored is kept in every world that is visited. -/
theorem kept_of_visits {entry : Memory.Entry} {again : Instant → Prop} (keyed : s.key tokenId = .ok k)
    (kept : Kept k entry again w₁) (visits : s.Visits tokenId again w₁ w) : Kept k entry again w := by
  induction visits with
  | start => exact kept
  | use _ uses runs kept => exact kept.called ((uses.yields keyed kept.closed).of_run runs _ rfl)
  | @uses w w' _ as xs _ uses runs kept =>
      have inTurn : (Action.inTurn as).Yields w fun r w₁ => ∀ xs, r = .ok xs →
          Kept k entry again w₁ ∧ w₁.now = w.now := by
        refine Action.yields_inTurn ⟨kept, rfl⟩ ?_
        rintro a mem w₂ ⟨kept, now⟩
        refine ((uses a mem).yields keyed kept.closed).mono fun r w₃ called x same => ?_
        have called := called x same
        rw [← now] at called
        exact ⟨kept.called called, called.now.trans now⟩
      exact (inTurn.of_runAll runs xs rfl).1
  | call _ foreign performs leaves kept =>
      exact kept.called (.spares performs leaves (foreign k keyed))
  | @purge w _ kept =>
      refine ⟨Cache.Memory.valid_sweep kept.valid, kept.closed, fun unwritten t later => ?_⟩
      exact (Cache.Memory.live?_sweep kept.valid later).trans (kept.live unwritten t later)
  | pause span _ kept => exact kept.pause span

/-! ### What is answered -/

theorem endsUnchanged_lookup (keyed : s.key tokenId = .ok k) (closed : w.breaker.state = .initial)
    {found : Option Entry}
    (holds : w.cache.live? w.now k = none ∧ found = none ∨
      ∃ e expiresAt, w.cache.live? w.now k = some ⟨e.text, expiresAt⟩ ∧ found = some e) :
    EndsUnchanged (s.lookup tokenId) (.ok found) w := by
  refine endsUnchanged_of_yields (c := w.cache) ?_ fun _ _ _ => rfl
  refine (yields_onKey closed keyed fun _ _ impossible => by cases impossible).mono ?_
  rintro _ w' (⟨performs, leaves⟩ | ⟨performs, _⟩)
  · cases performs
    refine ⟨?_, leaves⟩
    obtain ⟨none, rfl⟩ | ⟨e, expiresAt, some, rfl⟩ := holds
    · rw [none]
      rfl
    · rw [some]
      simp [Entry.parse?_text]
  · cases performs

/-! ### Stored entries -/

/-- The entry in the cache of an entry of the store that was stored at a moment. -/
def stored (e : Entry) (now : Instant) : Memory.Entry := ⟨e.text, now.after e.ttl⟩

/-- An entry that was stored is kept from then on. -/
theorem Answered.kept (valid : w₀.cache.Valid) {again : Instant → Prop}
    (answered : Answered w₀ (.setIfAbsent k e.text e.ttl) true w₁) :
    Kept k (stored e w₀.now) again w₁ where
  valid := (Cache.Memory.perform_acts valid answered.performs).1
  closed := answered.closed
  live _ t later := by
    rw [answered.now] at later
    rw [Cache.Memory.live?_of_setIfAbsent valid (Cache.Memory.setIfAbsent_of_perform answered.performs) later,
      Entry.ofSecs_lifetimeSecs_ttl]
    rfl

/-- A stored entry is found as it is until its time is over, and revoking its token meanwhile succeeds and
changes nothing, whatever was done since, as long as it was not removed. From then on it is not found, if
the token has not been revoked since. The time of every entry is a second at least. -/
theorem remembers_of_stored (valid : w₀.cache.Valid)
    (stores : (s.revokeEntry e).run Memory.backend w₀ = (.value (.ok true), w₁)) :
    (∀ e' : Entry, Span.ofSecs 1 ≤ e'.ttl) ∧
      (∀ w, s.Visits e.tokenId (fun _ => True) w₁ w → w.now < w₀.now.after e.ttl →
        EndsUnchanged (s.lookup e.tokenId) (.ok (some e)) w ∧ EndsUnchanged (s.isRevoked e.tokenId) (.ok true) w ∧
          (∀ e' : Entry, e'.tokenId = e.tokenId → EndsUnchanged (s.revokeEntry e') (.ok false) w) ∧
          ∀ ttl, EndsUnchanged (s.revoke e.tokenId ttl) (.ok ()) w) ∧
      ∀ w, s.Visits e.tokenId (fun t => t < w₀.now.after e.ttl) w₁ w → w₀.now.after e.ttl ≤ w.now →
        EndsUnchanged (s.lookup e.tokenId) (.ok none) w ∧ EndsUnchanged (s.isRevoked e.tokenId) (.ok false) w := by
  obtain _ | _ | ⟨keyed, answered⟩ := yields_revokeEntry.of_run stores
  refine ⟨Entry.second_le_ttl, fun w visits early => ?_, fun w visits late => ?_⟩
  · have kept := kept_of_visits keyed (answered.kept valid) visits
    have present := kept.present early
    refine ⟨endsUnchanged_lookup keyed kept.closed (.inr ⟨e, _, present, rfl⟩), ?_, fun e' same => ?_, fun ttl => ?_⟩
    · have tells := endsUnchanged_isRevoked keyed kept.closed
      rwa [present] at tells
    · exact endsUnchanged_revokeEntry (by rw [same, keyed]) kept.valid kept.closed present
    · exact endsUnchanged_revoke keyed kept.valid kept.closed present ttl
  · have kept := kept_of_visits keyed (answered.kept valid) visits
    have absent := kept.absent late fun t past early => absurd early (Nat.not_lt.mpr past)
    refine ⟨endsUnchanged_lookup keyed kept.closed (.inl ⟨absent, rfl⟩), ?_⟩
    have tells := endsUnchanged_isRevoked keyed kept.closed
    rwa [absent] at tells

/-! ### Spans that are covered -/

/-- At every moment before a span after `w₀` has passed the token is revoked, whatever is done meanwhile, as
long as its entry is not removed. -/
def Covers (s : Store) (tokenId : String) (w₀ w₁ : World Memory) (span : Span) : Prop :=
  ∀ w, s.Visits tokenId (fun _ => True) w₁ w → w.now < w₀.now.after span →
    EndsUnchanged (s.isRevoked tokenId) (.ok true) w

/-- A token whose entry is kept for a time is revoked throughout a span exactly if the span is no longer. -/
theorem covers_iff {entry : Memory.Entry} {lasting span : Span} (keyed : s.key tokenId = .ok k)
    (ends : entry.expiresAt = w₀.now.after lasting) (now : w₁.now = w₀.now)
    (kept : ∀ {again : Instant → Prop}, Kept k entry again w₁) :
    s.Covers tokenId w₀ w₁ span ↔ span ≤ lasting := by
  constructor
  · refine fun covered => Nat.le_of_not_lt fun longer => ?_
    -- When the entry has ended and nothing was done since, the token is not revoked any more.
    have now : (w₁.advance lasting).now = w₀.now.after lasting := congrArg (Instant.after · lasting) now
    obtain ⟨w', told, _⟩ := covered _ (.pause _ .start) (by
      rw [now]
      exact Nat.add_lt_add_left longer _)
    have kept := kept_of_visits (s := s) keyed (@kept fun _ => False) (.pause lasting .start)
    obtain ⟨w'', tells, _⟩ := endsUnchanged_isRevoked keyed kept.closed
    rw [kept.absent (by rw [ends, now]; exact Nat.le_refl _) fun _ _ => id, told] at tells
    cases tells
  · intro le w visits early
    have kept := kept_of_visits keyed kept visits
    have tells := endsUnchanged_isRevoked keyed kept.closed
    rwa [kept.present] at tells
    rw [ends]
    exact Nat.lt_of_lt_of_le early (Nat.add_le_add_left le _)

/-- A token that was not revoked and then is for a span stays so for the whole seconds of the span, or for
one. This covers the span exactly if it is no longer than a second, or has no part of a second and no more
seconds than the clock has left. -/
theorem covers_of_revoke {ttl : Span} (valid : w₀.cache.Valid) (absent : s.finds w₀ tokenId = .ok false)
    (revokes : (s.revoke tokenId ttl).run Memory.backend w₀ = (.value (.ok ()), w₁)) :
    s.Covers tokenId w₀ w₁ (Span.ofSecs (Entry.keptSecs (w₀.clock w₀.now) ttl.secs)) ∧
      (s.Covers tokenId w₀ w₁ ttl ↔ ttl ≤ Span.ofSecs 1 ∨
        ttl.subsecNanos = 0 ∧ (ttl.secs : Int) ≤ 2 ^ 63 - 1 - max (w₀.clock w₀.now).toInt 0) := by
  obtain ⟨stored?, _ | _ | @⟨k, _, _, keyed, answered⟩⟩ := yields_revoke.of_run revokes () rfl
  have keyed : s.key tokenId = .ok k := keyed
  -- The token was not revoked, so it is this entry that is kept.
  have told := Cache.Memory.stored_of_setIfAbsent (Cache.Memory.setIfAbsent_of_perform answered.performs)
  rw [finds, keyed] at absent
  have dead : w₀.cache.live? w₀.now k = none :=
    Option.isNone_iff_eq_none.mp (Option.isSome_eq_false_iff.mp (Except.ok.inj absent))
  rw [dead] at told
  subst told
  have ends : (stored (Entry.forSpan tokenId (w₀.clock w₀.now) ttl .logout) w₀.now).expiresAt =
      w₀.now.after (Span.ofSecs (Entry.keptSecs (w₀.clock w₀.now) ttl.secs)) := by
    rw [stored, Entry.ttl_forSpan]
  have covers {span : Span} : s.Covers tokenId w₀ w₁ span ↔ _ :=
    covers_iff keyed ends answered.now (answered.kept valid)
  exact ⟨covers.mpr (Nat.le_refl _), covers.trans Entry.le_keptSecs_iff⟩

end Revocation.Store

end TokenAuthority

/-! ### An old entry and a short span -/

namespace TokenAuthority.Sample

open Revocation Revocation.Store
open Cache (Memory)

/-- An entry from before 1970, of a user whose name needs escapes. -/
def departed : Entry := ⟨"id", Int64.ofInt (-5), 5, .admin, some "Zoë \"\\\n"⟩

/-- The world in which it has been stored. -/
def remembering : World Memory := ((service.store.revokeEntry departed).run Memory.backend world).2

theorem stores_departed :
    (service.store.revokeEntry departed).run Memory.backend world = (.value (.ok true), remembering) :=
  Prod.ext (Ending.eq_of_toOption (by decide +kernel)) rfl

theorem revokes_departed :
    (service.store.revoke "id" (Span.ofSecs 100)).run Memory.backend remembering =
      (.value (.ok ()), (revokes 100 remembering).2) :=
  Prod.ext (Ending.eq_of_toOption (by decide +kernel)) rfl

/-- Its token is revoked again, for longer. The entry is there after nine seconds, and is not after ten. -/
theorem remembers_departed :
    (service.store.revokeEntry departed).run Memory.backend world = (.value (.ok true), remembering) ∧
      EndsUnchanged (service.store.lookup "id") (.ok (some departed))
        ((revokes 100 remembering).2.advance (Span.ofSecs 9)) ∧
      EndsUnchanged (service.store.lookup "id") (.ok none)
        ((revokes 100 remembering).2.advance (Span.ofSecs 10)) := by
  obtain ⟨_, before, after⟩ := remembers_of_stored (Cache.Memory.valid_empty _) stores_departed
  have visits {again : Instant → Prop} (now : again remembering.now) (span : Span) :
      service.store.Visits "id" again remembering ((revokes 100 remembering).2.advance span) :=
    .pause span (.use .start (.revoke _ fun _ => now) revokes_departed)
  refine ⟨stores_departed, ?_, ?_⟩
  · exact (before _ (visits trivial _) (by decide +kernel)).1
  · exact (after _ (visits (by decide +kernel) _) (by decide +kernel)).1

/-- The world in which a token has been revoked for a second and a half. -/
def briefly : World Memory := ((service.store.revoke "id" (Span.ofMillis 1500)).run Memory.backend world).2

theorem revokes_briefly :
    (service.store.revoke "id" (Span.ofMillis 1500)).run Memory.backend world =
      (.value (.ok ()), briefly) :=
  Prod.ext (Ending.eq_of_toOption (by decide +kernel)) rfl

/-- It is revoked for a second, and not for half a second more. -/
theorem covers_briefly :
    (service.store.revoke "id" (Span.ofMillis 1500)).run Memory.backend world =
        (.value (.ok ()), briefly) ∧
      service.store.Covers "id" world briefly (Span.ofSecs 1) ∧
      ¬ service.store.Covers "id" world briefly (Span.ofMillis 1500) := by
  have absent : service.store.finds world "id" = .ok false := by decide +kernel
  obtain ⟨covers, covers_iff⟩ := covers_of_revoke (Cache.Memory.valid_empty _) absent revokes_briefly
  refine ⟨revokes_briefly, ?_, fun covered => ?_⟩
  · have second : Entry.keptSecs (world.clock world.now) (Span.ofMillis 1500).secs = 1 := by decide +kernel
    rwa [second] at covers
  · have nowhere : ¬ (Span.ofMillis 1500 ≤ Span.ofSecs 1 ∨ (Span.ofMillis 1500).subsecNanos = 0 ∧
        ((Span.ofMillis 1500).secs : Int) ≤ 2 ^ 63 - 1 - max (world.clock world.now).toInt 0) := by
      decide +kernel
    exact nowhere (covers_iff.mp covered)

end TokenAuthority.Sample
