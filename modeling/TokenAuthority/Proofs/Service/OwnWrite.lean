import TokenAuthority.Proofs.Cache.Unanswered
import TokenAuthority.Proofs.Service.Credentials

/-!
# A retried call and its own write

An attempt to store an entry that gets no answer may have stored it. The next attempt is then told that
there is an entry already, and takes it for the entry of somebody else. This is the only way in which a
call without rivals is refused.

* `TokenService.refused_alone` — a revocation or a rotation that is refused although nobody else has
  touched the entry has made an attempt of its own that failed.
* `Sample.misses_lossy` — where answers get lost both happen.
-/

namespace TokenAuthority

/-- A harmless event writes nothing under a key where only entries are stored. -/
theorem Event.IsHarmless.not_mayWrite {s : TokenService} {e : Event} {key : String} {last : Int}
    {h : History} (harmless : e.IsHarmless) (allowed : (s.entryRule key last).event h e) :
    ¬ e.MayWrite key := by
  rintro ⟨⟨time, r, ds, x, rfl, writes⟩, _⟩
  obtain ⟨_, _, _, _, _, _, _, _, _, rfl⟩ := allowed r rfl writes
  exact harmless.1 _ _ _ ⟨time, ds, x, rfl⟩

/-- An attempt to store an entry under a key has got no answer. -/
def Revocation.Entry.Misses (e : Revocation.Entry) (key : String) (h : History) : Prop :=
  ∃ event ∈ h, event.Fails ∧ event.Ends (.setIfAbsent key e.text e.ttl)

namespace Revocation.Store

variable {s : Store} {e : Entry} {key : String} {ds : List Nat} {h : History}

/-- Keeping an entry that is refused finds something under its key. -/
theorem finds_of_refused (seen : s.Keeps e ds h (.ok (.ok false)))
    (keyed : s.key e.tokenId = .ok key) : ∃ event ∈ h, event.Finds key := by
  obtain ⟨k, keyed', concludes⟩ := seen.concludes
  cases keyed.symm.trans keyed'
  obtain ⟨time, ds', mem⟩ := concludes.mem
  exact ⟨_, mem, .inr ⟨time, _, _, ds', rfl⟩⟩

/-- If it may have written something itself, it has done so in an attempt that failed. -/
theorem fails_of_refused {event : Event} (seen : s.Keeps e ds h (.ok (.ok false))) (mem : event ∈ h)
    (may : event.MayWrite key) : event.Fails ∧ event.Ends (.setIfAbsent key e.text e.ttl) := by
  obtain ⟨⟨time, r, ds', x, rfl, writes⟩, unrefused⟩ := may
  obtain ⟨k, _, of⟩ := seen.events _ mem
  rcases of with same | ⟨span, impossible⟩
  · cases same
    obtain rfl : k = key := writes
    refine ⟨⟨time, _, ds', x, rfl, ?_⟩, time, ds', x, rfl⟩
    rintro stored rfl
    cases seen.answers mem
    exact unrefused ⟨time, _, _, ds', rfl⟩
  · cases impossible

end Revocation.Store

namespace TokenService

open TokenAuthority.Action

variable {s : TokenService} {request : RequestContext} {token : String} {ds : List Nat} {h : History}

/-- A verification that says that a token is revoked finds something under its key. -/
theorem Verified.finds {c : Credential} {key : String} {stage : Stage}
    (seen : s.Verified request token .refresh ds h (.ok (.rejected .tokenRevoked stage)))
    (decodes : s.codec.decodeIgnoringExpiry s.keys token = .ok c)
    (keyed : s.store.key c.tokenId = .ok key) : ∃ e ∈ h, e.Finds key := by
  obtain ⟨_, _, _, _, _, found, _, decoded, _, looked, inside, same⟩ := seen.answered (.inr rfl)
  cases (Codec.decode_eq_ok_iff.mp decoded).1.symm.trans decodes
  cases found with
  | false => cases same
  | true =>
      obtain ⟨k, keyed', concludes⟩ := looked.concludes
      cases keyed.symm.trans keyed'
      obtain ⟨time, ds', mem⟩ := concludes.mem
      exact ⟨_, inside _ mem, .inl ⟨time, ds', rfl⟩⟩

/-- What is seen of a refresh whose token is said to be revoked: it is found, or its entry is refused. -/
inductive Refused (s : TokenService) (request : RequestContext) (token : String) (ds : List Nat) :
    History → Prop where
  | found {h : History} {stage : Stage} :
      s.Verified request token .refresh ds h (.ok (.rejected .tokenRevoked stage)) →
      Refused s request token ds h
  | kept {before kept : History} {c : Credential} {ttl : Span} (time : Instant) {now : Int64} :
      s.Verified request token .refresh ds before (.ok (.accepted c)) →
      s.policy.rotateRefreshTokens = true → s.revocationTtl? c now = some ttl →
      s.store.Keeps (entryFor c now ttl .refreshRotated) ds kept (.ok (.ok false)) →
      Refused s request token ds (before ++ .answered time .clock now :: kept)

theorem Rotated.refused {c : Credential} {now : Int64}
    (seen : s.Rotated c now ds h (.ok (.error (.rejected .tokenRevoked)))) :
    ∃ ttl, s.revocationTtl? c now = some ttl ∧
      s.store.Keeps (entryFor c now ttl .refreshRotated) ds h (.ok (.ok false)) := by
  generalize same : (Except.ok (Except.error (AuthError.rejected .tokenRevoked)) :
    Except Interruption (Except AuthError IssuedToken)) = r at seen
  cases seen with
  | failed => cases same
  | lost found kept => exact ⟨_, found, kept⟩
  | won _ _ mints =>
      subst same
      exact absurd mints Mints.not_rejected
  | abandoned => cases same
  | timeless => cases same

/-- A refresh that says so has seen one of these. -/
theorem Refreshed.refused
    (seen : s.Refreshed request token ds h (.ok (.error (.rejected .tokenRevoked)))) :
    s.Refused request token ds h := by
  generalize same : (Except.ok (Except.error (AuthError.rejected .tokenRevoked)) :
    Except Interruption (Except AuthError RefreshedTokens)) = r at seen
  cases seen with
  | rejected verified =>
      cases same
      exact .found verified
  | abandoned => cases same
  | exchanged verified exchanged =>
      cases exchanged with
      | unrotated time _ mints =>
          subst same
          exact absurd mints Mints.not_rejected
      | refused time rotates rotated =>
          cases same
          obtain ⟨ttl, found, kept⟩ := rotated.refused
          exact .kept time verified rotates found kept
      | rotated time _ _ mints =>
          subst same
          exact absurd mints Mints.not_rejected
      | abandoned => cases same

/-! ### Calls without rivals -/

section Alone

variable {σ κ : Type} {backend : Cache.Backend σ} {valid : σ → Prop}
  {holds : σ → Instant → String → Prop} {key : String} {k : κ}

/-- A revocation without rivals that is refused has failed to store its entry before. -/
theorem revokeEntry_refused {flow : κ → Flow (Option (Except Revocation.Error Bool))}
    {e : Revocation.Entry} (answers : backend.AnswersTruly valid holds)
    (revokes : flow k = (s.store.revokeEntry e).start) (keyed : s.store.key e.tokenId = .ok key)
    (ends : Scene.EndsAlone backend flow valid holds key k h (some (.ok false))) :
    e.Misses key h := by
  have meets : (flow k).Meets Rule.free (Ensures.Over (s.store.Keeps e [])) [] := by
    rw [revokes]
    exact Ensures.start (Revocation.Store.ensures_revokeEntry Rule.lenient_free
      fun k _ => Revocation.Store.allows_free)
  have kept : s.store.Keeps e [] h (.ok (.ok false)) := ends.value meets
  obtain ⟨event, mem, may⟩ := ends.mayWrite answers (Revocation.Store.finds_of_refused kept keyed)
  exact ⟨event, mem, Revocation.Store.fails_of_refused kept mem may⟩

/-- A refresh without rivals whose token is said to be revoked rotates it, and has failed to store its
entry before. -/
theorem refresh_refused {flow : κ → Flow (Option (Except AuthError RefreshedTokens))}
    {request : Option RequestContext} {c : Credential} (answers : backend.AnswersTruly valid holds)
    (refreshes : flow k = (s.refreshWith request token).start)
    (decodes : s.codec.decodeIgnoringExpiry s.keys token = .ok c)
    (keyed : s.store.key c.tokenId = .ok key) (spares : s.Spares key)
    (ends : Scene.EndsAlone backend flow valid holds key k h (some (.error (.rejected .tokenRevoked)))) :
    s.policy.rotateRefreshTokens = true ∧ ∃ now ttl, s.revocationTtl? c now = some ttl ∧
      (entryFor c now ttl .refreshRotated).Misses key h := by
  have meets : (flow k).Meets (s.entryRule key (s.lastSecond c))
      (Ensures.Over (Requested fun request => s.Refreshed request token [])) [] := by
    rw [refreshes]
    refine Ensures.start (ensures_refreshWith lenient_entryRule fun request tail _ =>
      allowsRefresh_entryRule spares fun c' decodes' _ => ?_)
    cases decodes.symm.trans decodes'
    rfl
  obtain ⟨request', drawn, rest, rfl, draws, refreshed⟩ := ends.value meets
  have writes {event : Event} (mem : event ∈ drawn ++ rest) (harmless : event.IsHarmless) :
      ¬ event.MayWrite key := by
    obtain ⟨_, allowed⟩ := ends.allowed meets mem
    exact harmless.not_mayWrite allowed
  have undrawn : ∀ event ∈ drawn, event.IsHarmless := by
    intro event mem
    obtain ⟨time, x, rfl⟩ := draws event mem
    exact Event.harmless_of_plain rfl
  cases refreshed.refused with
  | found verified =>
      -- a look-up writes nothing that it could find
      obtain ⟨event, mem, finds⟩ := verified.finds decodes keyed
      obtain ⟨event', mem', may⟩ := ends.mayWrite answers ⟨event, List.mem_append_right _ mem, finds⟩
      refine absurd may (writes mem' ?_)
      exact List.forall_mem_append.mpr ⟨undrawn, verified.harmless⟩ event' mem'
  | @kept before kept c' ttl time now verified rotates found keeps =>
      obtain ⟨_, _, _, decoded, _⟩ := verified.decoded
      cases (Codec.decode_eq_ok_iff.mp decoded).1.symm.trans decodes
      obtain ⟨event, mem, finds⟩ := Revocation.Store.finds_of_refused keeps keyed
      obtain ⟨event', mem', may⟩ := ends.mayWrite answers ⟨event, by simp [mem], finds⟩
      refine ⟨rotates, now, ttl, found, event', mem', ?_⟩
      have late : event' ∈ kept := by
        simp only [List.mem_append, List.mem_cons] at mem'
        rcases mem' with drawn | early | rfl | late
        · exact absurd may (writes (by simp [drawn]) (undrawn _ drawn))
        · exact absurd may (writes (by simp [early]) (verified.harmless _ early))
        · exact absurd may (writes (by simp) (Event.harmless_of_plain rfl))
        · exact late
      exact Revocation.Store.fails_of_refused keeps late may

/-- A revocation is not refused, nor the token of a refresh said to be revoked, where there was no entry
and nobody else has made one, unless the call has itself failed to store it before. -/
theorem refused_alone (answers : backend.AnswersTruly valid holds) :
    (∀ {flow : κ → Flow (Option (Except Revocation.Error Bool))} {e : Revocation.Entry},
      flow k = (s.store.revokeEntry e).start → s.store.key e.tokenId = .ok key →
      Scene.EndsAlone backend flow valid holds key k h (some (.ok false)) → e.Misses key h) ∧
    ∀ (request : Option RequestContext) {token : String} {c : Credential}
      {flow : κ → Flow (Option (Except AuthError RefreshedTokens))},
      flow k = (s.refreshWith request token).start →
      s.codec.decodeIgnoringExpiry s.keys token = .ok c → s.store.key c.tokenId = .ok key →
      s.Spares key →
      Scene.EndsAlone backend flow valid holds key k h (some (.error (.rejected .tokenRevoked))) →
      s.policy.rotateRefreshTokens = true ∧ ∃ now ttl, s.revocationTtl? c now = some ttl ∧
        (entryFor c now ttl .refreshRotated).Misses key h :=
  ⟨revokeEntry_refused answers, fun _ => refresh_refused answers⟩

end Alone

end TokenService

/-! ### Where answers get lost -/

namespace Sample

open TokenService

/-- A world like the sample one whose cache loses the answers to some calls. -/
def lossyWorld (lost : List Bool) : World (List Bool × Cache.Memory) :=
  { world with cache := (lost, world.cache) }

/-- An action without rivals over such a cache has ended. -/
abbrev EndsLossy {α : Type} (action : Action α) : History → Option α → Prop :=
  Scene.EndsAlone Cache.Memory.backend.losing (fun _ : Unit => action.start) (fun c => c.2.Valid)
    (fun c => c.2.Holds) key ()

theorem endsLossy_of_run {α : Type} {action : Action α} {lost : List Bool} {x : α}
    (ended : (action.run Cache.Memory.backend.losing (lossyWorld lost)).1 = .value x) :
    EndsLossy action (action.history Cache.Memory.backend.losing (lossyWorld lost)) (some x) :=
  .of_run (Prod.ext ended rfl) (Cache.Memory.valid_empty _) lacks

def entry : Revocation.Entry := entryFor credential 0 (Span.ofSecs 60) .logout

/-- Where the answer to the first attempt gets lost a revocation is refused, and where the one to the
second call does, the token of a refresh is said to be revoked. -/
theorem refused_lossy :
    ((service.store.revokeEntry entry).run Cache.Memory.backend.losing (lossyWorld [true])).1 matches
        .value (.ok false) ∧
      ((service.refreshAs request credential).run Cache.Memory.backend.losing
        (lossyWorld [false, true])).1 matches .value (.error (.rejected .tokenRevoked)) := by
  decide +kernel

/-- Nobody else has stored an entry there: both have failed to store it. -/
theorem misses_lossy :
    (∃ h, EndsLossy (service.store.revokeEntry entry) h (some (.ok false)) ∧ entry.Misses key h) ∧
      ∃ h, EndsLossy (service.refreshWith (some request) token) h
          (some (.error (.rejected .tokenRevoked))) ∧
        ∃ now ttl, service.revocationTtl? credential now = some ttl ∧
          (entryFor credential now ttl .refreshRotated).Misses key h := by
  have same : service.refreshWith (some request) token = service.refreshAs request credential :=
    refreshFor_eq service_decodes
  obtain ⟨revoked, refreshed⟩ := refused_lossy
  rw [← same] at refreshed
  have answers := Cache.Memory.honoursTime.losing
  constructor
  · split at revoked
    · rename_i ended
      have alone := endsLossy_of_run ended
      refine ⟨_, alone, (refused_alone (s := service) answers).1 ?_ keyed alone⟩
      rfl
    · cases revoked
  · split at refreshed
    · rename_i ended
      have alone := endsLossy_of_run ended
      refine ⟨_, alone, ((refused_alone answers).2 (some request) ?_ service_decodes keyed spares alone).2⟩
      rfl
    · cases refreshed

end Sample

end TokenAuthority
