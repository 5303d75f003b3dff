import TokenAuthority.Proofs.Cache.Changes
import TokenAuthority.Proofs.Effect.Alone
import TokenAuthority.Proofs.Service.Credentials

/-!
# A refresh that fails

A refresh that ends in an error leaves all entries as they were, but for one case: refresh tokens are
rotated, the entry of the token has been stored, and only then it turns out that no new token can be
made. The token is gone then, and its holder has got nothing for it.

* `TokenService.Stranded`, `TokenService.ensures_failedRefresh` — what is seen of a failed refresh.
* `TokenService.refresh_failed` — what a failed refresh leaves behind, over a cache that answers every
  call.
-/

namespace TokenAuthority

/-- Whether the event is the end of a cache call without an answer. -/
def Event.isFailure : Event → Bool
  | .ended _ (.cache _) _ (.ok (.ok _)) => false
  | .ended _ (.cache _) _ _ => true
  | _ => false

theorem Event.fails_iff {e : Event} : e.Fails ↔ e.isFailure = true := by
  constructor
  · rintro ⟨time, request, ds, x, rfl, unanswered⟩
    rcases x with i | (e | v)
    · rfl
    · rfl
    · exact absurd rfl (unanswered v)
  · intro fails
    match e with
    | .answered time q x => cases fails
    | .ended time (.sleep s) ds x => cases fails
    | .ended time .never ds x => cases fails
    | .ended time (.cache request) ds (.error i) =>
        exact ⟨time, request, ds, _, rfl, fun v impossible => by cases impossible⟩
    | .ended time (.cache request) ds (.ok (.error e)) =>
        exact ⟨time, request, ds, _, rfl, fun v impossible => by cases impossible⟩
    | .ended time (.cache request) ds (.ok (.ok v)) => cases fails

instance : DecidablePred Event.Fails := fun _ => decidable_of_iff' _ Event.fails_iff

theorem Event.IsHarmless.not_sets {e : Event} {key : String} {stored : Bool}
    (harmless : e.IsHarmless) : ¬ e.Sets key stored := by
  rintro ⟨time, value, ttl, ds, rfl⟩
  exact harmless.1 key value ttl ⟨time, ds, _, rfl⟩

theorem Event.IsMinting.not_sets {e : Event} {key : String} {stored : Bool}
    (minting : e.IsMinting) : ¬ e.Sets key stored := by
  rintro ⟨time, value, ttl, ds, rfl⟩
  rcases minting with ⟨_, _, _, impossible⟩ | ⟨_, _, _, impossible⟩ <;> cases impossible

namespace TokenService

open TokenAuthority.Action

variable {s : TokenService} {request : RequestContext} {token : String} {ds : List Nat} {h : History}

/-- A history in which no entry is stored. -/
def StoresNone (h : History) : Prop := ∀ key, ∀ e ∈ h, ¬ e.Sets key true

/-- What is seen of a rotation: no entry is stored and it does not succeed, or one is stored and a token
is minted. -/
inductive Rotates (s : TokenService) (c : Credential) (now : Int64) (ds : List Nat) :
    History → Except Interruption (Except AuthError IssuedToken) → Prop where
  | unkept {h : History} {r : Except Interruption (Except AuthError IssuedToken)} :
      StoresNone h → (∀ x, r ≠ .ok (.ok x)) → Rotates s c now ds h r
  | kept {h minted : History} {ttl : Span} {r : Except Interruption (Except AuthError IssuedToken)} :
      s.revocationTtl? c now = some ttl →
      s.store.Keeps (entryFor c now ttl .refreshRotated) ds h (.ok (.ok true)) →
      s.Minted .refresh c.userId now minted r → Rotates s c now ds (h ++ minted) r

/-- Keeping an entry without success stores none. -/
theorem storesNone_of_keeps {e : Revocation.Entry} {r : Except Interruption (Except Revocation.Error Bool)}
    (seen : s.store.Keeps e ds h r) (unkept : r ≠ .ok (.ok true)) : StoresNone h := by
  rintro key _ mem ⟨time, value, ttl, ds', rfl⟩
  exact unkept (outcome_of_answer seen mem)

/-- The entry that is stored is the one that is kept, under its key. -/
theorem stored_of_keeps {e : Revocation.Entry} {r : Except Interruption (Except Revocation.Error Bool)}
    {event : Event} {key : String} {stored : Bool} (seen : s.store.Keeps e ds h r)
    (mem : event ∈ h) (sets : event.Sets key stored) : s.store.key e.tokenId = .ok key ∧
      ∃ time ds', event = .ended time (.cache (.setIfAbsent key e.text e.ttl)) ds' (.ok (.ok stored)) := by
  obtain ⟨time, value, ttl, ds', rfl⟩ := sets
  obtain ⟨k, keyed, of⟩ := seen.events _ mem
  rcases of with same | ⟨span, impossible⟩
  · cases same
    exact ⟨keyed, time, ds', rfl⟩
  · cases impossible

theorem ensures_rotates {c : Credential} {now : Int64} :
    (s.rotate c now).Ensures Rule.free ds h (s.Rotates c now ds) := by
  unfold rotate
  refine Ensures.bind _ (ensures_revocationEntry fun _ => trivial) ?_ ?_
  · rintro _ _ (@⟨ttl, found⟩ | _)
    simp only [List.append_nil, List.nil_append]
    refine Ensures.bind _ (Revocation.Store.ensures_revokeEntry Rule.lenient_free
      fun k _ => Revocation.Store.allows_free) ?_ ?_
    · intro tail outcome kept
      match outcome with
      | .error e =>
          have none := storesNone_of_keeps kept (fun impossible => by cases impossible)
          exact Ensures.done (by simpa using .unkept none fun x impossible => by cases impossible)
      | .ok false =>
          have none := storesNone_of_keeps kept (fun impossible => by cases impossible)
          exact Ensures.done (by simpa using .unkept none fun x impossible => by cases impossible)
      | .ok true =>
          exact (ensures_minting Rule.lenient_free fun _ _ _ _ _ => trivial).mono
            fun _ _ minted => .kept found kept minted
    · intro tail i cut
      exact .unkept (storesNone_of_keeps cut fun impossible => by cases impossible)
        fun x impossible => by cases impossible
  · rintro _ _ (_ | missing)
    exact .unkept (fun _ _ none => (List.not_mem_nil none).elim) fun x impossible => by cases impossible

/-- The entry of a token has been stored, and then a new token has not been made. -/
inductive Stranded (s : TokenService) (c : Credential) (ds : List Nat) : History → AuthError → Prop where
  | mk (time : Instant) {now : Int64} {ttl : Span} {kept minted : History} {kind : TokenKind}
      {err : AuthError} :
      s.policy.rotateRefreshTokens = true → kind ≠ .reset → s.revocationTtl? c now = some ttl →
      s.store.Keeps (entryFor c now ttl .refreshRotated) ds kept (.ok (.ok true)) →
      (∀ e ∈ minted, e.IsMinting) → s.MintFails kind c.userId now minted err →
      Stranded s c ds (.answered time .clock now :: (kept ++ minted)) err

/-- Where no entry is stored, none is stored after the clock has been read. -/
theorem StoresNone.told {time : Instant} {now : Int64} (none : StoresNone h) :
    StoresNone (.answered time .clock now :: h) := by
  intro key e mem
  rcases List.mem_cons.mp mem with rfl | mem
  · rintro ⟨_, _, _, _, impossible⟩
    cases impossible
  · exact none key e mem

/-- An exchange that fails is stranded, or has stored no entry. -/
theorem ensures_failedExchange {c : Credential} :
    (s.exchange c).Ensures Rule.free ds h fun tail r => ∀ err, r = .ok (.error err) →
      s.Stranded c ds tail err ∨ StoresNone tail := by
  have issues (h : History) : ∀ tail, (∀ e ∈ tail, e.IsMinting) → ∀ time kind x,
      Rule.free.event (h ++ tail) (.answered time (.count (.issued kind)) x) :=
    fun _ _ _ _ _ => trivial
  unfold exchange
  refine Ensures.ask (fun _ _ => trivial) fun time now => ?_
  cases rotates : s.policy.rotateRefreshTokens with
  | false =>
      refine (ensures_access Rule.lenient_free (issues _)).mono fun tail r minted err _ => .inr ?_
      exact StoresNone.told fun key e mem => (minted.minting e mem).not_sets
  | true =>
      simp only [if_true]
      refine Ensures.bind _ ensures_rotates ?_ fun tail i _ err impossible => by cases impossible
      intro tail x rotated
      cases x with
      | error e =>
          refine Ensures.done fun err same => ?_
          cases same
          rw [List.append_nil]
          cases rotated with
          | unkept none _ => exact .inr none.told
          | kept found kept minted =>
              obtain ⟨x, same, fails⟩ := minted.ends
              cases same
              exact .inl (.mk time rotates (by decide) found kept minted.minting (fails e rfl))
      | ok issued =>
          cases rotated with
          | unkept _ failed => exact absurd rfl (failed issued)
          | @kept before first ttl _ found kept minted =>
              refine (ensures_access Rule.lenient_free (issues _)).mono fun last r minted' err same => ?_
              obtain ⟨x, same', fails⟩ := minted'.ends
              cases same.symm.trans same'
              rw [List.append_assoc]
              refine .inl (.mk time rotates (by decide) found kept ?_ ((fails err rfl).mono ?_))
              · exact List.forall_mem_append.mpr ⟨minted.minting, minted'.minting⟩
              · exact fun e mem => List.mem_append_right _ mem

/-- What is seen of a refresh that fails: no entry is stored, or its token is accepted and then
stranded. -/
inductive FailedRefresh (s : TokenService) (request : RequestContext) (token : String)
    (ds : List Nat) : History → AuthError → Prop where
  | unkept {h : History} {err : AuthError} : StoresNone h → FailedRefresh s request token ds h err
  | stranded {before exchange : History} {c : Credential} {err : AuthError} :
      s.Verified request token .refresh ds before (.ok (.accepted c)) →
      s.Stranded c ds exchange err → FailedRefresh s request token ds (before ++ exchange) err

theorem ensures_failedRefresh :
    (s.refreshFor request token).Ensures Rule.free ds h fun tail r => ∀ err, r = .ok (.error err) →
      s.FailedRefresh request token ds tail err := by
  unfold refreshFor
  refine Ensures.bind _ (ensures_verifyFor Rule.lenient_free allowsVerification_free) ?_
    fun tail i _ err impossible => by cases impossible
  intro tail verdict verified
  have unkept : StoresNone tail := fun key e mem => (verified.harmless e mem).not_sets
  cases verdict with
  | rejected reason stage =>
      refine Ensures.done fun err _ => ?_
      rw [List.append_nil]
      exact .unkept unkept
  | accepted c =>
      refine ensures_failedExchange.mono fun exchange r failed err same => ?_
      rcases failed err same with stranded | none
      · exact .stranded verified stranded
      · exact .unkept fun key => List.forall_mem_append.mpr ⟨unkept key, none key⟩

theorem ensures_failedRefreshWith {request : Option RequestContext} :
    (s.refreshWith request token).Ensures Rule.free ds h (Requested fun request tail r =>
      ∀ err, r = .ok (.error err) → s.FailedRefresh request token ds tail err) := by
  cases request with
  | some request =>
      refine ensures_failedRefresh.mono fun tail r failed => ?_
      exact ⟨request, [], tail, rfl, fun e none => (List.not_mem_nil none).elim, failed⟩
  | none => exact ensures_generate Rule.lenient_free fun request time x => ensures_failedRefresh

/-! ### What it leaves behind -/

section Runs

variable {σ : Type} {backend : Cache.Backend σ} {valid : σ → Prop}
  {holds : σ → Instant → String → Prop} {w w' : World σ} {request : Option RequestContext}
  {err : AuthError}

/-- Over a cache that answers every call, a refresh changes nothing under a key, unless it stores an
entry there. -/
theorem sets_of_changes {key : String} {e : Event} (spares : s.Spares key)
    (answered : ∀ e ∈ (s.refreshWith request token).history backend w, ¬ e.Fails)
    (mem : e ∈ (s.refreshWith request token).history backend w) (changes : e.Changes key) :
    e.Sets key true := by
  obtain ⟨last, lasts⟩ : ∃ last, ∀ c, s.codec.decodeIgnoringExpiry s.keys token = .ok c →
      s.store.key c.tokenId = .ok key → s.lastSecond c = last := by
    cases decoded : s.codec.decodeIgnoringExpiry s.keys token with
    | error e => exact ⟨0, fun c impossible => by cases impossible⟩
    | ok c => exact ⟨s.lastSecond c, fun c' same _ => by cases same; rfl⟩
  have rule : (s.refreshWith request token).Ensures (s.entryRule key last) [] [] _ :=
    ensures_refreshWith lenient_entryRule fun request tail _ => allowsRefresh_entryRule spares lasts
  obtain ⟨before, allowed⟩ := rule.allowed backend mem
  obtain ⟨⟨time, r, ds, a, rfl, writes⟩, unrefused⟩ := changes
  obtain ⟨_, _, _, _, _, _, _, _, _, rfl⟩ := allowed r rfl writes
  match a with
  | .ok true => exact ⟨time, _, _, ds, rfl⟩
  | .ok false => exact absurd ⟨time, _, _, ds, rfl⟩ unrefused
  | .error e =>
      refine absurd ?_ (answered _ mem)
      exact ⟨time, _, ds, .ok (.error e), rfl, fun v impossible => by cases impossible⟩

/-- A refresh has revoked the token that it was given, and gives nothing for it: the clock was read, the
entry stored for the time worked out from that reading, and then no new token was made. -/
structure Forfeits (s : TokenService) (holds : σ → Instant → String → Prop) (token : String)
    (h : History) (err : AuthError) (w w' : World σ) (c : Credential) (key : String)
    (read : Instant) : Prop where
  rotates : s.policy.rotateRefreshTokens = true
  decodes : s.codec.decodeIgnoringExpiry s.keys token = .ok c
  keyed : s.store.key c.tokenId = .ok key
  begun : w.now ≤ read
  inTime : read ≤ w'.now
  fails : ∃ kind, kind ≠ .reset ∧ s.MintFails kind c.userId (w.clock read) h err
  revoked : s.Spares key → ∃ stored ttl, w.now ≤ stored ∧ stored ≤ w'.now ∧
    s.revocationTtl? c (w.clock read) = some ttl ∧
    Cache.Gains holds key (entryFor c (w.clock read) ttl .refreshRotated).ttl w.cache stored w'.now
      w'.cache
  others : ∀ other, other ≠ key → s.Spares other →
    Cache.Alike holds w'.now other w.cache w'.cache

/-- Storing an entry changes what is held under its key. -/
theorem changes_of_stored {time : Instant} {key value : String} {ttl : Span} {ds : List Nat} :
    Event.Changes key (.ended time (.cache (.setIfAbsent key value ttl)) ds (.ok (.ok true))) := by
  refine ⟨⟨time, .setIfAbsent key value ttl, ds, .ok true, rfl, rfl⟩, ?_⟩
  rintro ⟨_, _, _, _, same⟩
  cases same

/-- What is stored in the course of a stranded refresh is the entry of its token. -/
theorem sets_of_keeping {entry : Revocation.Entry} {before kept minted : History} {read : Instant}
    {now : Int64} {key k : String} {e : Event} (unset : StoresNone before)
    (keyed : s.store.key entry.tokenId = .ok key) (keeps : s.store.Keeps entry [] kept (.ok (.ok true)))
    (minting : ∀ e ∈ minted, e.IsMinting)
    (mem : e ∈ before ++ .answered read .clock now :: (kept ++ minted)) (sets : e.Sets k true) :
    k = key ∧ ∃ time ds,
      e = .ended time (.cache (.setIfAbsent k entry.text entry.ttl)) ds (.ok (.ok true)) := by
  simp only [List.mem_append, List.mem_cons] at mem
  rcases mem with early | rfl | mem | late
  · exact absurd sets (unset k e early)
  · obtain ⟨_, _, _, _, impossible⟩ := sets
    cases impossible
  · obtain ⟨keyed', stored⟩ := stored_of_keeps keeps mem sets
    cases keyed.symm.trans keyed'
    exact ⟨rfl, stored⟩
  · exact absurd sets (minting e late).not_sets

/-- What a stranded refresh leaves behind. -/
theorem forfeits_of_stranded {c : Credential} {before exchange : History}
    (honours : backend.HonoursTime valid holds) (fine : valid w.cache)
    (answered : ∀ e ∈ (s.refreshWith request token).history backend w, ¬ e.Fails)
    (failed : (s.refreshWith request token).run backend w = (.value (.error err), w'))
    (cut : (s.refreshWith request token).history backend w = before ++ exchange)
    (unset : StoresNone before) (decodes : s.codec.decodeIgnoringExpiry s.keys token = .ok c)
    (stranded : s.Stranded c [] exchange err) :
    ∃ key read, s.Forfeits holds token ((s.refreshWith request token).history backend w) err w w' c
      key read := by
  have steps := Scene.steps_action failed
  cases stranded with
  | @mk read now ttl kept minted kind _ rotates other found keeps minting fails =>
      obtain ⟨key, keyed, concludes⟩ := keeps.concludes
      have only {k : String} {e : Event} (mem : e ∈ (s.refreshWith request token).history backend w)
          (sets : e.Sets k true) : k = key ∧ ∃ time ds', e = .ended time (.cache (.setIfAbsent k
            (entryFor c now ttl .refreshRotated).text (entryFor c now ttl .refreshRotated).ttl)) ds'
            (.ok (.ok true)) := by
        rw [cut] at mem
        exact sets_of_keeping unset keyed keeps minting mem sets
      have told : Event.answered read .clock now ∈ (s.refreshWith request token).history backend w := by
        rw [cut]
        exact List.mem_append_right _ List.mem_cons_self
      obtain ⟨begun, inTime⟩ := steps.times (Scene.tracked_nil w) rfl (i := 0) told
      cases (Action.truthful_history backend _ told : now = w.clock read)
      refine ⟨key, read, rotates, decodes, keyed, begun, inTime, ⟨kind, other, fails.mono ?_⟩, ?_, ?_⟩
      · intro e mem
        rw [cut]
        exact List.mem_append_right _ (List.mem_cons_of_mem _ (List.mem_append_right _ mem))
      · intro spares
        obtain ⟨time, ds', mem⟩ := concludes.mem
        have stored := List.mem_append_right before
          (List.mem_cons_of_mem (.answered read .clock (w.clock read)) (List.mem_append_left minted mem))
        rw [← cut] at stored
        obtain ⟨instant, first, last, gains⟩ := steps.gains honours (Scene.tracked_nil w) fine
          (fun j e none => (List.not_mem_nil none).elim)
          (fun j e mem changes =>
            have mem := Scene.mem_of_seen mem
            (only mem (sets_of_changes spares answered mem changes)).2)
          (i := 0) stored changes_of_stored
        exact ⟨instant, ttl, first, last, found, gains⟩
      · intro k different spares
        refine steps.alike honours (Scene.tracked_nil w) fine fun i e mem changes => ?_
        have mem := Scene.mem_of_seen mem
        exact different (only mem (sets_of_changes spares answered mem changes)).1

/-- What a failed refresh leaves behind, over a cache that answers every call: all entries as they were,
or one more, for the token that it was given, because a new token could not be made any more. -/
theorem refresh_failed (honours : backend.HonoursTime valid holds) (fine : valid w.cache)
    (answered : ∀ e ∈ (s.refreshWith request token).history backend w, ¬ e.Fails)
    (failed : (s.refreshWith request token).run backend w = (.value (.error err), w')) :
    (∀ key, s.Spares key → Cache.Alike holds w'.now key w.cache w'.cache) ∨
      ∃ c key read, s.Forfeits holds token ((s.refreshWith request token).history backend w) err w w'
        c key read := by
  obtain ⟨request', drawn, rest, cut, draws, fails⟩ :=
    ensures_failedRefreshWith.run_value backend (congrArg Prod.fst failed)
  have undrawn : StoresNone drawn := by
    rintro key e mem ⟨_, _, _, _, rfl⟩
    obtain ⟨_, _, impossible⟩ := draws _ mem
    cases impossible
  cases fails err rfl with
  | unkept none =>
      refine .inl fun key spares => ?_
      refine (Scene.steps_action failed).alike honours (Scene.tracked_nil w) fine fun i e mem changes => ?_
      have mem := Scene.mem_of_seen mem
      have sets := sets_of_changes spares answered mem changes
      rw [cut] at mem
      rcases List.mem_append.mp mem with early | late
      · exact undrawn key e early sets
      · exact none key e late sets
  | @stranded before exchange c _ verified stranded =>
      obtain ⟨_, _, _, decoded, _⟩ := verified.decoded
      rw [← List.append_assoc] at cut
      have unset : StoresNone (drawn ++ before) := fun key => List.forall_mem_append.mpr
        ⟨undrawn key, fun e mem => (verified.harmless e mem).not_sets⟩
      exact .inr ⟨c, forfeits_of_stranded honours fine answered failed cut unset
        (Codec.decode_eq_ok_iff.mp decoded).1 stranded⟩

end Runs

end TokenService

/-! ### A service without lifetimes -/

namespace Sample

open TokenService

/-- A service whose refresh tokens would expire when they are issued. -/
def hasty : TokenService :=
  { service with policy := { rotateRefreshTokens := true, refreshTtl := Span.zero } }

/-- A refresh there ends in an error, over a cache that has answered every call, and leaves an entry. -/
theorem hasty_fails : ((hasty.refreshAs request credential).run Cache.Memory.backend world).1.error? =
      some (.crypto (.invalidCredential "expiry 0 is not after issued-at 0")) ∧
    (∀ e ∈ (hasty.refreshAs request credential).history Cache.Memory.backend world, ¬ e.Fails) ∧
    ((hasty.refreshAs request credential).run Cache.Memory.backend world).2.cache.entries.any
      (fun e => e.1 = key ∧
        ((hasty.refreshAs request credential).run Cache.Memory.backend world).2.now < e.2.expiresAt) =
      true := by
  decide +kernel

/-- The holder of a token forfeits it there. -/
theorem forfeits_hasty : ∃ err w', (hasty.refreshWith (some request) token).run Cache.Memory.backend
      world = (.value (.error err), w') ∧
    ∃ c k read, hasty.Forfeits Cache.Memory.Holds token
      ((hasty.refreshWith (some request) token).history Cache.Memory.backend world) err world w' c k
      read := by
  have same : hasty.refreshWith (some request) token = hasty.refreshAs request credential :=
    refreshFor_eq service_decodes
  obtain ⟨ended, answered, there⟩ := hasty_fails
  rw [← same] at ended answered there
  generalize ran : (hasty.refreshWith (some request) token).run Cache.Memory.backend world = r
    at ended there ⊢
  obtain ⟨ending, w'⟩ := r
  cases Ending.eq_of_error? ended
  refine ⟨_, w', rfl, ?_⟩
  rcases refresh_failed Cache.Memory.honoursTime (Cache.Memory.valid_empty _) answered ran with
    alike | forfeits
  · obtain ⟨⟨_, e⟩, mem, lives⟩ := List.any_eq_true.mp there
    obtain ⟨rfl, lives⟩ := of_decide_eq_true lives
    have held : world.cache.Holds w'.now key :=
      (alike key spares w'.now (Nat.le_refl _)).mp ⟨e, mem, lives⟩
    exact absurd held (Cache.Memory.not_holds_empty _ _ _)
  · exact forfeits

end Sample

end TokenAuthority
