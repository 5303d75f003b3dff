import TokenAuthority.Proofs.Cache.Counter
import TokenAuthority.Proofs.Effect.Together
import TokenAuthority.Proofs.Revocation.Prompt
import TokenAuthority.Proofs.Service.Credentials

/-!
# How long a token stays revoked

Over a cache in memory tokens are revoked one after the other and in bulk, again and again, and nothing is
removed. The entry of a token is that of the call that found none: a call that finds a token revoked succeeds
as well, and changes nothing.

* `Store.Revocations` — the calls made so far, each for how long, and the world they have left.
* `Store.revokedAt` — whether such calls have a token revoked at a moment.
* `Store.loggedEntry_of_revocations` — the cache holds an entry exactly then.
* `Store.EndsUnchanged` — a call of the store ends with a value, and the live entries stay as they were.
* `Store.isRevoked_of_revocations` — look-ups answer `revokedAt` at every later moment, and the next call
  stores its entry if that is false and leaves all entries as they are if it is true.
-/

namespace TokenAuthority.Revocation

open TokenAuthority.Action
open Cache (Memory)

namespace Entry

/-- For how many seconds a token stays revoked that is revoked for some seconds when the clock reads `now`:
for as many as fit between that reading and the last one, and for one at least. -/
def keptSecs (now : Int64) (secs : Nat) : Nat := max (min secs (2 ^ 63 - 1 - max now.toInt 0).toNat) 1

/-- An entry for a span is kept for its seconds. -/
theorem ttl_forSpan {tokenId : String} {now : Int64} {ttl : Span} {reason : Reason} :
    (forSpan tokenId now ttl reason).ttl = Span.ofSecs (keptSecs now ttl.secs) := by
  have low := now.le_toInt
  have high := now.toInt_lt
  unfold Entry.ttl
  congr 1
  simp only [forSpan, keptSecs, Span.lifetimeSecs, Seconds.minus, Seconds.plus, Seconds.toInt_nearest_eq]
  omega

/-- The time of an entry is in whole seconds. -/
theorem ofSecs_lifetimeSecs_ttl (e : Entry) : Span.ofSecs e.ttl.lifetimeSecs = e.ttl := by
  unfold Entry.ttl
  rw [Span.lifetimeSecs_ofSecs]
  congr 1
  omega

end Entry

namespace Store

/-- A call to revoke a token: when it was made, and for how long the token is to stay revoked. -/
structure Mark where
  time : Instant
  tokenId : String
  ttl : Span
deriving DecidableEq

/-- What an entry is to do that is to be kept from some time on. -/
def Mark.ofEntry (time : Instant) (e : Entry) : Mark := ⟨time, e.tokenId, e.ttl⟩

/-- The calls that were made one after the other from a world on and have all succeeded, the last one first,
and the world that they have left. Look-ups and pauses may come in between. -/
inductive Revocations (s : Store) (w₀ : World Memory) : List Mark → World Memory → Prop where
  | start : Revocations s w₀ [] w₀
  | revoke {log : List Mark} {w w' : World Memory} {tokenId : String} {ttl : Span} :
      Revocations s w₀ log w → (s.revoke tokenId ttl).run Memory.backend w = (.value (.ok ()), w') →
      Revocations s w₀
        (⟨w.now, tokenId, Span.ofSecs (Entry.keptSecs (w.clock w.now) ttl.secs)⟩ :: log) w'
  | revokeEntry {log : List Mark} {w w' : World Memory} {e : Entry} {stored : Bool} :
      Revocations s w₀ log w → (s.revokeEntry e).run Memory.backend w = (.value (.ok stored), w') →
      Revocations s w₀ (.ofEntry w.now e :: log) w'
  | bulkRevoke {log : List Mark} {w w' : World Memory} {entries : List Entry} {stored : List Bool} :
      Revocations s w₀ log w →
      Action.runAll Memory.backend (s.bulkRevoke entries) w =
        .ok ((stored.map .ok).map some, w') →
      Revocations s w₀ ((entries.map (Mark.ofEntry w.now)).reverse ++ log) w'
  | isRevoked {log : List Mark} {w w' : World Memory} {tokenId : String}
      {ending : Ending (Except Error Bool)} :
      Revocations s w₀ log w → (s.isRevoked tokenId).run Memory.backend w = (ending, w') →
      Revocations s w₀ log w'
  | pause {log : List Mark} {w : World Memory} (span : Span) :
      Revocations s w₀ log w → Revocations s w₀ log (w.advance span)

/-- Whether a token is revoked at a moment: it was revoked until then before all calls, or a call for it
found it not revoked and its time is not over. -/
def revokedAt (before : Instant → Bool) (tokenId : String) : List Mark → Instant → Bool
  | [], t => before t
  | m :: log, t =>
    revokedAt before tokenId log t ||
      (m.tokenId = tokenId && !revokedAt before tokenId log m.time && t < m.time.after m.ttl)

variable {s : Store} {before : Instant → Bool} {tokenId k : String} {log : List Mark} {w w' w₀ : World Memory}
  {e : Entry}

/-- Revoking a token is keeping an entry. -/
theorem yields_revoke {ttl : Span} :
    (s.revoke tokenId ttl).Yields w fun r w' => ∀ u, r = .ok (.ok u) →
      ∃ stored, s.Recorded (.forSpan tokenId (w.clock w.now) ttl .logout) w (.ok (.ok stored)) w' := by
  unfold revoke
  refine Yields.ask ?_
  refine Yields.bind _ yields_revokeEntry ?_ fun f w' _ u impossible => by cases impossible
  intro outcome w' kept
  cases outcome with
  | ok stored => exact Yields.done fun _ _ => ⟨stored, kept⟩
  | error e => exact Yields.done fun _ impossible => by cases impossible

/-- From now on the entry under the key `k` is live at exactly the moments at which the calls of a log have
`tokenId` revoked. -/
structure LoggedEntry (before : Instant → Bool) (tokenId k : String) (log : List Mark) (w : World Memory) :
    Prop where
  valid : w.cache.Valid
  closed : w.breaker.state = .initial
  holds : ∀ t, w.now ≤ t → (w.cache.Holds t k ↔ revokedAt before tokenId log t = true)

namespace LoggedEntry

theorem leaves (logged : LoggedEntry before tokenId k log w) (leaves : w.Leaves w.cache w') :
    LoggedEntry before tokenId k log w' where
  valid := by
    rw [leaves.cache]
    exact logged.valid
  closed := leaves.closed logged.closed
  holds := by
    rw [leaves.cache, leaves.now]
    exact logged.holds

theorem pause (logged : LoggedEntry before tokenId k log w) (span : Span) :
    LoggedEntry before tokenId k log (w.advance span) where
  valid := logged.valid
  closed := logged.closed
  holds t later := logged.holds t (Nat.le_trans (Nat.le_add_right _ _) later)

/-- A look-up answers whether the token is revoked now. -/
theorem finds (logged : LoggedEntry before tokenId k log w) (keyed : s.key tokenId = .ok k) :
    s.finds w tokenId = .ok (revokedAt before tokenId log w.now) := by
  have found : (w.cache.live? w.now k).isSome = revokedAt before tokenId log w.now :=
    Bool.eq_iff_iff.mpr
      ((Cache.Memory.live?_isSome_iff logged.valid).trans (logged.holds _ (Nat.le_refl _)))
  rw [Store.finds, keyed, ← found]
  rfl

/-- An entry that is found stays, and so does everything else. -/
theorem kept_of_holds {e : Entry} {k' : String} (logged : LoggedEntry before tokenId k log w)
    (same : k = k' ↔ e.tokenId = tokenId) (present : w.cache.Holds w.now k')
    (leaves : w.Leaves (w.cache.noteWrite w.now) w') :
    LoggedEntry before tokenId k (.ofEntry w.now e :: log) w' ∧
      (e.tokenId = tokenId → revokedAt before tokenId log w.now = true) := by
  have stood (here : e.tokenId = tokenId) : revokedAt before tokenId log w.now = true := by
    rw [← same.mpr here] at present
    exact (logged.holds w.now (Nat.le_refl _)).mp present
  refine ⟨⟨?_, leaves.closed logged.closed, fun t later => ?_⟩, stood⟩
  · rw [leaves.cache]
    exact Cache.Memory.valid_noteWrite logged.valid
  · rw [leaves.now] at later
    rw [leaves.cache, Cache.Memory.holds_noteWrite later, logged.holds t later]
    by_cases here : e.tokenId = tokenId
    · simp [revokedAt, Mark.ofEntry, here, stood here]
    · simp [revokedAt, Mark.ofEntry, here]

/-- Where none is found the new one is there for its time. -/
theorem stored_of_not_holds {e : Entry} {k' : String} {stored : Bool} {c : Memory}
    (logged : LoggedEntry before tokenId k log w) (same : k = k' ↔ e.tokenId = tokenId)
    (absent : ¬ w.cache.Holds w.now k')
    (stores : w.cache.setIfAbsent w.now k' e.text e.ttl = .ok (stored, c)) (leaves : w.Leaves c w') :
    LoggedEntry before tokenId k (.ofEntry w.now e :: log) w' ∧ stored = true ∧
      (e.tokenId = tokenId → revokedAt before tokenId log w.now = false) := by
  obtain ⟨new, valid, held⟩ := Cache.Memory.setIfAbsent_of_not_holds logged.valid absent stores
  have fallen (here : e.tokenId = tokenId) {t : Instant} (later : w.now ≤ t) :
      revokedAt before tokenId log t = false := by
    rw [← same.mpr here] at absent
    refine Bool.eq_false_iff.mpr fun stood => absent ?_
    exact ((logged.holds t later).mpr stood).mono later
  refine ⟨⟨?_, leaves.closed logged.closed, fun t later => ?_⟩, new,
    fun here => fallen here (Nat.le_refl _)⟩
  · rw [leaves.cache]
    exact valid
  · rw [leaves.now] at later
    rw [leaves.cache, held k t later, Entry.ofSecs_lifetimeSecs_ttl]
    by_cases here : e.tokenId = tokenId
    · simp [revokedAt, Mark.ofEntry, here, same.mpr here, fallen here later, fallen here (Nat.le_refl _)]
    · have other : k ≠ k' := fun equal => here (same.mp equal)
      rw [if_neg other, logged.holds t later]
      simp [revokedAt, Mark.ofEntry, here]

/-- After an entry was kept, or one was found, the log has one more call. -/
theorem recorded {e : Entry} {stored : Bool} (logged : LoggedEntry before tokenId k log w)
    (keyed : s.key tokenId = .ok k) (recorded : s.Recorded e w (.ok (.ok stored)) w') :
    LoggedEntry before tokenId k (.ofEntry w.now e :: log) w' ∧
      (e.tokenId = tokenId → stored = !revokedAt before tokenId log w.now) := by
  cases recorded with
  | @answered k' _ _ keyed' answered =>
      have leaves := answered.leaves
      have stores := Cache.Memory.setIfAbsent_of_perform answered.performs
      generalize w'.cache = c at leaves stores
      have same := key_eq_iff keyed keyed'
      by_cases present : w.cache.Holds w.now k'
      · rw [Cache.Memory.setIfAbsent_of_holds logged.valid present] at stores
        cases stores
        obtain ⟨logged', stood⟩ := logged.kept_of_holds same present leaves
        exact ⟨logged', fun here => by rw [stood here]; rfl⟩
      · obtain ⟨logged', rfl, fallen⟩ := logged.stored_of_not_holds same present stores leaves
        exact ⟨logged', fun here => by rw [fallen here]; rfl⟩

theorem inTurn {entries : List Entry} (logged : LoggedEntry before tokenId k log w)
    (keyed : s.key tokenId = .ok k) :
    (Action.inTurn (s.bulkRevoke entries)).Yields w fun r w' =>
      ∀ stored : List Bool, r = .ok (stored.map .ok) →
        LoggedEntry before tokenId k ((entries.map (Mark.ofEntry w.now)).reverse ++ log) w' := by
  induction entries generalizing log w with
  | nil => exact Yields.done fun _ _ => logged
  | cons e entries ih =>
      refine Yields.bind _ yields_revokeEntry ?_ fun f w' _ stored impossible => by
        cases impossible
      intro outcome w₁ kept
      have now : w₁.now = w.now := by
        cases kept with
        | invalid _ leaves => exact leaves.now
        | refused _ leaves => exact leaves.now
        | answered _ answered => exact answered.now
      cases outcome with
      | error error =>
          have logged : LoggedEntry before tokenId k log w₁ := by
            cases kept with
            | invalid _ leaves => exact logged.leaves leaves
            | refused _ leaves => exact logged.leaves leaves
          refine Yields.bind _ (ih logged) ?_ ?_
          · intro outcomes w' _
            refine Yields.done fun stored same => ?_
            cases stored <;> cases same
          · rintro f w' _ stored impossible
            cases impossible
      | ok b =>
          refine Yields.bind _ (ih (logged.recorded keyed kept).1) ?_ ?_
          · intro outcomes w' rest
            refine Yields.done fun stored same => ?_
            cases stored with
            | nil => cases same
            | cons b' stored =>
                have tail : outcomes = stored.map .ok := (List.cons.inj (Except.ok.inj same)).2
                have logged := rest stored (congrArg Except.ok tail)
                rw [now] at logged
                simpa using logged
          · rintro f w' _ stored impossible
            cases impossible

end LoggedEntry

/-! ### Calls that change nothing -/

/-- Run in `w`, an action ends with the value `x`, and from now on the live entry under each key is the one that
was live under it before. -/
def EndsUnchanged {α : Type} (a : Action α) (x : α) (w : World Memory) : Prop :=
  ∃ w', a.run Memory.backend w = (.value x, w') ∧ w'.now = w.now ∧
    ∀ k t, w.now ≤ t → w'.cache.live? t k = w.cache.live? t k

theorem endsUnchanged_of_yields {α : Type} {a : Action α} {x : α} {c : Memory}
    (yields : a.Yields w fun r w' => r = .ok x ∧ w.Leaves c w')
    (same : ∀ k t, w.now ≤ t → c.live? t k = w.cache.live? t k) : EndsUnchanged a x w := by
  obtain ⟨r, w', ⟨rfl, leaves⟩, runs⟩ := Action.run_of_yields yields
  refine ⟨w', runs, leaves.now, ?_⟩
  rw [leaves.cache]
  exact same

theorem endsUnchanged_isRevoked (keyed : s.key tokenId = .ok k) (closed : w.breaker.state = .initial) :
    EndsUnchanged (s.isRevoked tokenId) (.ok (w.cache.live? w.now k).isSome) w := by
  refine endsUnchanged_of_yields (c := w.cache) ((yields_isRevoked closed).mono fun r w' gives => ?_)
    fun _ _ _ => rfl
  obtain ⟨told, leaves⟩ := gives
  rw [finds, keyed] at told
  exact ⟨told, leaves⟩

theorem yields_revokeEntry_of_live {entry : Memory.Entry} (keyed : s.key e.tokenId = .ok k)
    (closed : w.breaker.state = .initial) (live : w.cache.live? w.now k = some entry) :
    (s.revokeEntry e).Yields w fun r w' => r = .ok (.ok false) ∧ w.Leaves (w.cache.noteWrite w.now) w' := by
  have refuses : w.cache.perform w.now (.setIfAbsent k e.text e.ttl) =
      .ok (.ok false, w.cache.noteWrite w.now) := by
    rw [Memory.perform, Cache.Memory.setIfAbsent_of_live live]
    rfl
  unfold revokeEntry
  refine Yields.bind (fun r w' => r = .ok (.ok false) ∧ w.Leaves (w.cache.noteWrite w.now) w') ?_ ?_ ?_
  · refine (yields_onKey closed keyed fun _ _ impossible => by cases impossible).mono ?_
    rintro _ w' (⟨performs, leaves⟩ | ⟨performs, _⟩)
    · rw [refuses] at performs
      cases performs
      exact ⟨rfl, leaves⟩
    · rw [refuses] at performs
      cases performs
  · rintro _ w' ⟨same, leaves⟩
    cases same
    exact Yields.done ⟨rfl, leaves⟩
  · rintro f w' ⟨impossible, _⟩
    cases impossible

theorem endsUnchanged_revokeEntry {entry : Memory.Entry} (keyed : s.key e.tokenId = .ok k)
    (valid : w.cache.Valid) (closed : w.breaker.state = .initial) (live : w.cache.live? w.now k = some entry) :
    EndsUnchanged (s.revokeEntry e) (.ok false) w :=
  endsUnchanged_of_yields (yields_revokeEntry_of_live keyed closed live) fun _ _ later =>
    Cache.Memory.live?_noteWrite valid later

theorem endsUnchanged_revoke {entry : Memory.Entry} (keyed : s.key tokenId = .ok k) (valid : w.cache.Valid)
    (closed : w.breaker.state = .initial) (live : w.cache.live? w.now k = some entry) (ttl : Span) :
    EndsUnchanged (s.revoke tokenId ttl) (.ok ()) w := by
  refine endsUnchanged_of_yields (c := w.cache.noteWrite w.now) ?_ fun _ _ later =>
    Cache.Memory.live?_noteWrite valid later
  unfold revoke
  refine Yields.ask (Yields.bind _ (yields_revokeEntry_of_live keyed closed live) ?_ ?_)
  · rintro _ w' ⟨same, leaves⟩
    cases same
    exact Yields.done ⟨rfl, leaves⟩
  · rintro f w' ⟨impossible, _⟩
    cases impossible

/-! ### Sequences of calls -/

/-- After all calls the cache holds an entry of a token exactly as long as their log tells. -/
theorem loggedEntry_of_revocations (keyed : s.key tokenId = .ok k) (valid : w₀.cache.Valid)
    (closed : w₀.breaker.state = .initial) (revocations : s.Revocations w₀ log w) :
    LoggedEntry (fun t => (w₀.cache.live? t k).isSome) tokenId k log w := by
  induction revocations with
  | start => exact ⟨valid, closed, fun t _ => (Cache.Memory.live?_isSome_iff valid).symm⟩
  | revoke _ runs logged =>
      obtain ⟨stored, kept⟩ := yields_revoke.of_run runs () rfl
      have logged := (logged.recorded keyed kept).1
      rwa [Mark.ofEntry, Entry.ttl_forSpan] at logged
  | revokeEntry _ runs logged =>
      exact (logged.recorded keyed (yields_revokeEntry.of_run runs)).1
  | bulkRevoke _ runs logged => exact (logged.inTurn keyed).of_runAll runs _ rfl
  | isRevoked _ runs logged =>
      obtain ⟨r, w₁, ⟨_, leaves⟩, ran⟩ := Action.run_of_yields (yields_isRevoked logged.closed)
      obtain ⟨_, rfl⟩ := Prod.mk.inj (runs.symm.trans ran)
      exact logged.leaves leaves
  | pause span _ logged => exact logged.pause span

/-- At every later moment a look-up answers whether the calls so far have the token revoked. The next call for
the token stores its entry exactly if they have not, and succeeds and leaves every entry as it is if they
have. -/
theorem isRevoked_of_revocations (keyed : s.key tokenId = .ok k) (valid : w₀.cache.Valid)
    (closed : w₀.breaker.state = .initial) (revocations : s.Revocations w₀ log w) :
    (∀ span, ∃ w', (s.isRevoked tokenId).run Memory.backend (w.advance span) = (.value (.ok
      (revokedAt (fun t => (w₀.cache.live? t k).isSome) tokenId log (w.now.after span))), w')) ∧
    (∀ e stored w', e.tokenId = tokenId →
      (s.revokeEntry e).run Memory.backend w = (.value (.ok stored), w') →
      stored = !revokedAt (fun t => (w₀.cache.live? t k).isSome) tokenId log w.now) ∧
    (revokedAt (fun t => (w₀.cache.live? t k).isSome) tokenId log w.now = true →
      (∀ e : Entry, e.tokenId = tokenId → EndsUnchanged (s.revokeEntry e) (.ok false) w) ∧
        ∀ ttl, EndsUnchanged (s.revoke tokenId ttl) (.ok ()) w) := by
  have logged := loggedEntry_of_revocations keyed valid closed revocations
  refine ⟨fun span => ?_, fun e stored w' here runs => ?_, fun revoked => ?_⟩
  · have logged := logged.pause span
    have looks : (s.isRevoked tokenId).Yields (w.advance span) _ := yields_isRevoked logged.closed
    obtain ⟨_, w', ⟨rfl, _⟩, runs⟩ := run_of_yields looks
    rw [logged.finds keyed] at runs
    exact ⟨w', runs⟩
  · exact (logged.recorded keyed (yields_revokeEntry.of_run runs)).2 here
  · have present := (logged.holds w.now (Nat.le_refl _)).mpr revoked
    obtain ⟨entry, live⟩ :=
      Option.isSome_iff_exists.mp ((Cache.Memory.live?_isSome_iff logged.valid).mpr present)
    refine ⟨fun e here => ?_, endsUnchanged_revoke keyed logged.valid logged.closed live⟩
    exact endsUnchanged_revokeEntry (by rw [here, keyed]) logged.valid logged.closed live

end Store

end TokenAuthority.Revocation

/-! ### A token that is revoked twice -/

namespace TokenAuthority.Sample

open Revocation Revocation.Store
open Cache (Memory)

/-- A world in which the clock revokedAt five seconds before the last one that it can read. -/
def lastSeconds : World Memory := { world with clock := fun _ => Int64.ofInt (2 ^ 63 - 6) }

/-- The token is revoked for some seconds. -/
def revokes (secs : Nat) (w : World Memory) : Ending (Except Error Unit) × World Memory :=
  (service.store.revoke "id" (Span.ofSecs secs)).run Memory.backend w

/-- Whether the token is revoked so many seconds later. -/
def looksUp (secs : Nat) (w : World Memory) : Ending (Except Error Bool) × World Memory :=
  (service.store.isRevoked "id").run Memory.backend (w.advance (Span.ofSecs secs))

/-- What two revocations leave, for ten seconds and for a hundred. -/
def revokedTwice : World Memory := (revokes 100 (revokes 10 world).2).2

theorem revokes_first : (revokes 10 world).1 = .value (.ok ()) := Ending.eq_of_toOption (by decide +kernel)

theorem revokes_again : (revokes 100 (revokes 10 world).2).1 = .value (.ok ()) :=
  Ending.eq_of_toOption (by decide +kernel)

/-- Two marks, of which the second one does not count. -/
def marks : List Mark := [⟨.start, "id", Span.ofSecs 100⟩, ⟨.start, "id", Span.ofSecs 10⟩]

theorem revocations_marks : service.store.Revocations world marks revokedTwice := by
  have first := Revocations.start.revoke (Prod.ext revokes_first rfl)
  have again := first.revoke (Prod.ext revokes_again rfl)
  have same : marks = [⟨(revokes 10 world).2.now, "id",
      Span.ofSecs (Entry.keptSecs ((revokes 10 world).2.clock (revokes 10 world).2.now)
        (Span.ofSecs 100).secs)⟩,
      ⟨world.now, "id", Span.ofSecs (Entry.keptSecs (world.clock world.now) (Span.ofSecs 10).secs)⟩] := by
    decide +kernel
  rw [same]
  exact again

/-- The token is revoked for less than ten seconds, whatever the second revocation has asked for. -/
theorem isRevoked_revokedTwice : service.store.Revocations world marks revokedTwice ∧
    (looksUp 9 revokedTwice).1 = .value (.ok true) ∧ (looksUp 10 revokedTwice).1 = .value (.ok false) := by
  have keyed : service.store.key "id" = .ok key := keyed
  have tells := (isRevoked_of_revocations keyed (Cache.Memory.valid_empty _) rfl revocations_marks).1
  refine ⟨revocations_marks, ?_, ?_⟩
  · obtain ⟨w', looks⟩ := tells (Span.ofSecs 9)
    have stood : revokedAt (fun t => (world.cache.live? t key).isSome) "id" marks
        (revokedTwice.now.after (Span.ofSecs 9)) = true := by decide +kernel
    rw [looksUp, looks, stood]
  · obtain ⟨w', looks⟩ := tells (Span.ofSecs 10)
    have stood : revokedAt (fun t => (world.cache.live? t key).isSome) "id" marks
        (revokedTwice.now.after (Span.ofSecs 10)) = false := by decide +kernel
    rw [looksUp, looks, stood]

/-- Both revocations succeed, and the second one does not last. Nor does one that would last beyond the last
second of the clock. -/
theorem forgets_revokedTwice : (revokes 10 world).1 = .value (.ok ()) ∧
    (revokes 100 (revokes 10 world).2).1 = .value (.ok ()) ∧
    (looksUp 11 revokedTwice).1 = .value (.ok false) ∧
    (revokes 100 lastSeconds).1 = .value (.ok ()) ∧
    (looksUp 11 (revokes 100 lastSeconds).2).1 = .value (.ok false) := by
  refine ⟨revokes_first, revokes_again, ?_, ?_, ?_⟩
  · exact Ending.eq_of_toOption (by decide +kernel)
  · exact Ending.eq_of_toOption (by decide +kernel)
  · exact Ending.eq_of_toOption (by decide +kernel)

end TokenAuthority.Sample
