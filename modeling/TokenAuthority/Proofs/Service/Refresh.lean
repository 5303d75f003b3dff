import TokenAuthority.Proofs.Service.Verification
import TokenAuthority.Proofs.Token.Codec
import TokenAuthority.Service.Refresh

/-!
# What refreshing and revoking see

A refresh verifies the token it is given. Where refresh tokens are rotated it then keeps an entry for
that token, and goes on only if the entry is new.

* `TokenService.Rotated`, `TokenService.Refreshed` — the histories of a rotation and of a whole refresh,
  with the outcome that goes with each.
* `TokenService.Revoked` — the histories of a revocation.
* `TokenService.ensures_refreshFor`, `TokenService.ensures_revoke` — a refresh, or a revocation, sees one
  of these and nothing else.
-/

namespace TokenAuthority

/-- The event draws random octets or counts an issued token. -/
def Event.IsMinting (e : Event) : Prop :=
  (∃ time count x, e = .answered time (.draw count) x) ∨ e.IsIssue

namespace TokenService

open TokenAuthority.Action

variable {s : TokenService} {request : RequestContext} {token : String} {expected : TokenKind}
  {R : Rule} {ds : List Nat} {h : History}

/-! ### Minting -/

/-- What is seen of minting, and how it ends: never in a rejection. -/
def Mints {α : Type} (h : History) (r : Except Interruption (Except AuthError α)) : Prop :=
  (∀ e ∈ h, e.IsMinting) ∧ ∃ x, r = .ok x ∧ ∀ reason, x ≠ .error (.rejected reason)

theorem Mints.not_rejected {α : Type} {reason : FailureReason} :
    ¬ Mints (α := α) h (.ok (.error (.rejected reason))) := by
  rintro ⟨_, x, same, unrejected⟩
  cases same
  exact unrejected reason rfl

/-- What is seen of drawing a text, and the text. -/
inductive Draws (count : Nat) : History → Except Interruption (Except CryptoError String) → Prop where
  | nothing : count = 0 →
      Draws count [] (.ok (.error (.hashing "secure token length must be non-zero")))
  | text (time : Instant) (octets : List UInt8) : count ≠ 0 →
      Draws count [.answered time (.draw count) octets] (.ok (.ok (RandomText.ofOctets octets)))

theorem ensures_draw {count : Nat} (lenient : R.Lenient) :
    (RandomText.draw count).Ensures R ds h (Draws count) := by
  unfold RandomText.draw
  by_cases none : count = 0
  · rw [if_pos none]
    exact Ensures.done (.nothing none)
  · rw [if_neg none]
    refine Ensures.ask (fun time x => lenient.asks _ time _ x rfl) fun time octets => ?_
    exact Ensures.done (.text time octets none)

/-- Why a token of a kind is not made for a user at a time, once some things have been seen, and the
error that says so. -/
inductive MintFails (s : TokenService) (kind : TokenKind) (userId : String) (now : Int64)
    (h : History) : AuthError → Prop where
  /-- Its lifetime does not fit a signed word. -/
  | lifetime :
      Seconds.ofInt? (s.policy.ttl kind).secs = none →
      MintFails s kind userId now h (.config (kind.name ++ " TTL out of range"))
  /-- Nobody would hold it. -/
  | unowned :
      userId = "" →
      MintFails s kind userId now h
        (.crypto (.invalidCredential Credential.Flaw.emptySubject.message))
  /-- The source of random octets has given none. -/
  | unnamed {time : Instant} :
      .answered time (.draw tokenIdOctets) [] ∈ h →
      MintFails s kind userId now h
        (.crypto (.invalidCredential Credential.Flaw.emptyTokenId.message))
  /-- It would expire when it is issued: it has no lifetime, or the clock is at its end. -/
  | stillborn {seconds : Int64} :
      s.lifetime kind = .ok seconds → (Seconds.plus now seconds).toInt ≤ now.toInt →
      MintFails s kind userId now h (.crypto (.invalidCredential
        (Credential.Flaw.expiryNotAfterIssue (Seconds.plus now seconds) now).message))
  /-- The keys do not sign. -/
  | unsigned {message : List UInt8} {e : CryptoError} :
      s.keys.sign message = .error e → MintFails s kind userId now h (.crypto e)

/-- A token that is not made has a reason that stays one, whatever is seen besides. -/
theorem MintFails.mono {kind : TokenKind} {userId : String} {now : Int64} {h' : History}
    {e : AuthError} (fails : s.MintFails kind userId now h e) (more : ∀ event ∈ h, event ∈ h') :
    s.MintFails kind userId now h' e := by
  cases fails with
  | lifetime unfit => exact .lifetime unfit
  | unowned nobody => exact .unowned nobody
  | unnamed drawn => exact .unnamed (more _ drawn)
  | stillborn lasts late => exact .stillborn lasts late
  | unsigned unsigned => exact .unsigned unsigned

theorem MintFails.ne_rejected {kind : TokenKind} {userId : String} {now : Int64} {e : AuthError}
    (fails : s.MintFails kind userId now h e) (reason : FailureReason) : e ≠ .rejected reason := by
  cases fails <;> exact fun impossible => by cases impossible

/-- What is seen of minting a token, and how it ends. -/
structure Minted {α : Type} (s : TokenService) (kind : TokenKind) (userId : String) (now : Int64)
    (h : History) (r : Except Interruption (Except AuthError α)) : Prop where
  minting : ∀ e ∈ h, e.IsMinting
  ends : ∃ x, r = .ok x ∧ ∀ e, x = .error e → s.MintFails kind userId now h e

theorem Minted.mints {α : Type} {kind : TokenKind} {userId : String} {now : Int64}
    {r : Except Interruption (Except AuthError α)} (minted : s.Minted kind userId now h r) : Mints h r := by
  obtain ⟨x, ended, fails⟩ := minted.ends
  exact ⟨minted.minting, x, ended, fun reason same => (fails _ same).ne_rejected reason rfl⟩

/-- A lifetime that does not fit fails minting. -/
theorem mintFails_of_lifetime {kind : TokenKind} {userId : String} {now : Int64} {e : AuthError}
    (failed : s.lifetime kind = .error e) : s.MintFails kind userId now h e := by
  unfold TokenService.lifetime at failed
  cases found : Seconds.ofInt? (s.policy.ttl kind).secs with
  | some seconds =>
      rw [found] at failed
      cases failed
  | none =>
      rw [found] at failed
      cases failed
      exact .lifetime found

/-- A lifetime that does not fit is no rejection. -/
theorem lifetime_ne_rejected {kind : TokenKind} {e : AuthError} (failed : s.lifetime kind = .error e)
    (reason : FailureReason) : e ≠ .rejected reason :=
  (mintFails_of_lifetime (h := []) failed : s.MintFails kind "" 0 [] e).ne_rejected reason

/-- A random text without characters is one of no octets. -/
theorem octets_of_ofOctets {octets : List UInt8} (empty : RandomText.ofOctets octets = "") :
    octets = [] := by
  by_cases none : octets = []
  · exact none
  · have written := Codec.isSignature_encode none
    have nothing : Base64.encode Base64.urlSafe octets = [] := by
      simpa [RandomText.ofOctets] using congrArg String.toList empty
    rw [nothing] at written
    cases written

/-- A credential that cannot be encoded fails minting. -/
theorem mintFails_of_encode {kind : TokenKind} {subject : Subject} {sessionId : Option String}
    {now seconds : Int64} {time : Instant} {octets : List UInt8} {e : CryptoError}
    (lasts : s.lifetime kind = .ok seconds) (drawn : .answered time (.draw tokenIdOctets) octets ∈ h)
    (failed : s.codec.encode s.keys ⟨RandomText.ofOctets octets, subject.userId, subject.email,
      subject.roles, sessionId, now, Seconds.plus now seconds, kind⟩ = .error e) :
    s.MintFails kind subject.userId now h (.crypto e) := by
  rcases Codec.encode_eq_error failed with ⟨flaw, found, rfl⟩ | ⟨message, unsigned⟩
  · unfold Credential.flaw? at found
    split at found
    · rename_i nobody
      cases found
      exact .unowned (String.isEmpty_iff.mp nobody)
    split at found
    · rename_i unnamed
      cases found
      rw [octets_of_ofOctets (String.isEmpty_iff.mp unnamed)] at drawn
      exact .unnamed drawn
    split at found
    · rename_i late
      cases found
      exact .stillborn lasts late
    · cases found
  · exact .unsigned unsigned

/-- Minting draws an identifier and counts the token, and fails for a reason. -/
theorem ensures_minting {kind : TokenKind} {subject : Subject} {sessionId : Option String}
    {now : Int64} (lenient : R.Lenient)
    (issues : ∀ tail, (∀ e ∈ tail, e.IsMinting) → ∀ time kind x,
      R.event (h ++ tail) (.answered time (.count (.issued kind)) x)) :
    (s.mint kind subject sessionId now).Ensures R ds h (s.Minted kind subject.userId now) := by
  unfold mint
  cases lasts : s.lifetime kind with
  | error e =>
      refine Ensures.done ⟨by simp, _, rfl, fun e' same => ?_⟩
      cases same
      exact mintFails_of_lifetime lasts
  | ok seconds =>
      refine Ensures.bind _ (ensures_draw lenient) ?_ ?_
      · intro tail drawn seen
        cases seen with
        | nothing impossible => cases impossible
        | text time octets _ =>
            have draws : ∀ e ∈ [Event.answered time (.draw tokenIdOctets) octets], e.IsMinting :=
              List.forall_mem_singleton.mpr (.inl ⟨time, _, octets, rfl⟩)
            simp only
            split
            · rename_i e failed
              refine Ensures.done ⟨by simpa using draws, _, rfl, fun e' same => ?_⟩
              cases same
              exact mintFails_of_encode lasts (List.mem_append_left _ (List.mem_singleton_self _)) failed
            · refine Ensures.ask (issues _ draws · kind ·) fun counted _ => ?_
              refine Ensures.done ⟨List.forall_mem_append.mpr ⟨draws, ?_⟩, _, rfl, ?_⟩
              · exact List.forall_mem_singleton.mpr (.inr ⟨counted, kind, (), rfl⟩)
              · exact fun e impossible => by cases impossible
      · intro tail i impossible
        cases impossible

theorem ensures_mint {kind : TokenKind} {subject : Subject} {sessionId : Option String} {now : Int64}
    (lenient : R.Lenient)
    (issues : ∀ tail, (∀ e ∈ tail, e.IsMinting) → ∀ time kind x,
      R.event (h ++ tail) (.answered time (.count (.issued kind)) x)) :
    (s.mint kind subject sessionId now).Ensures R ds h Mints :=
  (ensures_minting lenient issues).mono fun _ _ minted => minted.mints

/-! ### Keeping an entry -/

/-- The entry by which a credential is revoked at a time for a span. -/
def entryFor (c : Credential) (now : Int64) (ttl : Span) (reason : Revocation.Reason) :
    Revocation.Entry :=
  (Revocation.Entry.forSpan c.tokenId now ttl reason).withUser c.userId

/-- What a lenient rule has to allow for the entry of a credential to be kept. -/
structure AllowsEntry (s : TokenService) (R : Rule) (c : Credential) (now : Int64)
    (reason : Revocation.Reason) (h : History) : Prop where
  stores : ∀ ttl k, s.revocationTtl? c now = some ttl → s.store.key c.tokenId = .ok k →
    s.store.Allows R (.setIfAbsent k (entryFor c now ttl reason).text (entryFor c now ttl reason).ttl) h
  faults : s.revocationTtl? c now = none → R.fault h .lifetimeRange

/-- What is seen of a rotation, and how it ends. -/
inductive Rotated (s : TokenService) (c : Credential) (now : Int64) (ds : List Nat) :
    History → Except Interruption (Except AuthError IssuedToken) → Prop where
  | failed {h : History} {ttl : Span} {e : Revocation.Error} :
      s.revocationTtl? c now = some ttl →
      s.store.Keeps (entryFor c now ttl .refreshRotated) ds h (.ok (.error e)) →
      Rotated s c now ds h (.ok (.error (.revocation e)))
  | lost {h : History} {ttl : Span} :
      s.revocationTtl? c now = some ttl →
      s.store.Keeps (entryFor c now ttl .refreshRotated) ds h (.ok (.ok false)) →
      Rotated s c now ds h (.ok (.error (.rejected .tokenRevoked)))
  | won {h minted : History} {ttl : Span} {r : Except Interruption (Except AuthError IssuedToken)} :
      s.revocationTtl? c now = some ttl →
      s.store.Keeps (entryFor c now ttl .refreshRotated) ds h (.ok (.ok true)) →
      Mints minted r → Rotated s c now ds (h ++ minted) r
  | abandoned {h : History} {ttl : Span} {i : Interruption} :
      s.revocationTtl? c now = some ttl →
      s.store.Keeps (entryFor c now ttl .refreshRotated) ds h (.error i) →
      Rotated s c now ds h (.error i)
  | timeless : s.revocationTtl? c now = none → Rotated s c now ds [] (.error (.fault .lifetimeRange))

/-- What is made of a credential to be kept: its entry, if its remaining lifetime fits a word. -/
inductive Entered (s : TokenService) (c : Credential) (now : Int64) (reason : Revocation.Reason) :
    History → Except Interruption Revocation.Entry → Prop where
  | entry {ttl : Span} :
      s.revocationTtl? c now = some ttl → Entered s c now reason [] (.ok (entryFor c now ttl reason))
  | timeless :
      s.revocationTtl? c now = none → Entered s c now reason [] (.error (.fault .lifetimeRange))

/-- Making the entry of a credential sees nothing. -/
theorem ensures_revocationEntry {c : Credential} {now : Int64} {reason : Revocation.Reason}
    (faults : s.revocationTtl? c now = none → R.fault h .lifetimeRange) :
    (s.revocationEntry c now reason).Ensures R ds h (s.Entered c now reason) := by
  unfold revocationEntry
  exact Ensures.orFault (fun missing => ⟨faults missing, .timeless missing⟩) fun ttl found =>
    Ensures.done (.entry found)

/-- Keeping an entry that is answered says what it was answered. -/
theorem outcome_of_answer {e : Revocation.Entry} {r : Except Interruption (Except Revocation.Error Bool)}
    {time : Instant} {key value : String} {ttl : Span} {ds' : List Nat} {stored : Bool}
    (seen : s.store.Keeps e ds h r)
    (mem : .ended time (.cache (.setIfAbsent key value ttl)) ds' (.ok (.ok stored)) ∈ h) :
    r = .ok (.ok stored) := by
  obtain ⟨k, valid, of⟩ := seen.events _ mem
  rcases of with same | ⟨span, impossible⟩
  · cases same
    match r with
    | .ok (.ok stored') => rw [seen.answers mem]
    | .ok (.error _) =>
        exact absurd ⟨time, ds', stored, rfl⟩ (seen.silent valid (fun v impossible => by cases impossible) _ mem)
    | .error _ =>
        exact absurd ⟨time, ds', stored, rfl⟩ (seen.silent valid (fun v impossible => by cases impossible) _ mem)
  · cases impossible

/-- Keeping an entry that is told that there was one already says so. -/
theorem outcome_of_lost {e : Revocation.Entry} {r : Except Interruption (Except Revocation.Error Bool)}
    (seen : s.store.Keeps e ds h r) {event : Event} (mem : event ∈ h) (lost : event.IsLost) :
    r = .ok (.ok false) := by
  obtain ⟨time, key, value, ttl, ds', rfl⟩ := lost
  exact outcome_of_answer seen mem

/-- An entry that is kept has not been there already. -/
theorem not_lost_of_stored {e : Revocation.Entry} (seen : s.store.Keeps e ds h (.ok (.ok true))) :
    ∀ event ∈ h, ¬ event.IsLost := by
  intro event mem lost
  cases outcome_of_lost seen mem lost

/-- Minting is never told that an entry was there already. -/
theorem not_lost_of_minting {e : Event} (minting : e.IsMinting) : ¬ e.IsLost := by
  rintro ⟨time, key, value, ttl, ds, rfl⟩
  rcases minting with ⟨_, _, _, impossible⟩ | ⟨_, _, _, impossible⟩ <;> cases impossible

theorem ensures_rotate {c : Credential} {now : Int64} (lenient : R.Lenient)
    (allows : s.AllowsEntry R c now .refreshRotated h)
    (issues : ∀ tail, (∀ e ∈ tail, ¬ e.IsLost) → ∀ time kind x,
      R.event (h ++ tail) (.answered time (.count (.issued kind)) x)) :
    (s.rotate c now).Ensures R ds h (s.Rotated c now ds) := by
  unfold rotate
  refine Ensures.bind _ (ensures_revocationEntry allows.faults) ?_ ?_
  · rintro _ _ (@⟨ttl, found⟩ | _)
    simp only [List.append_nil, List.nil_append]
    refine Ensures.bind _ (Revocation.Store.ensures_revokeEntry lenient fun k key =>
      allows.stores ttl k found key) ?_ fun tail i cut => .abandoned found cut
    intro tail outcome kept
    match outcome with
    | .error e => exact Ensures.done (by simpa using .failed found kept)
    | .ok false => exact Ensures.done (by simpa using .lost found kept)
    | .ok true =>
        refine (ensures_mint lenient fun minted all => ?_).mono fun _ _ mints => .won found kept mints
        rw [List.append_assoc]
        exact issues _ (List.forall_mem_append.mpr
          ⟨not_lost_of_stored kept, fun e he => not_lost_of_minting (all e he)⟩)
  · rintro _ _ (_ | missing)
    exact .timeless missing

/-! ### Exchanging -/

/-- What is seen of an exchange of a credential for new tokens, and how it ends. -/
inductive Exchanged (s : TokenService) (c : Credential) (ds : List Nat) :
    History → Except Interruption (Except AuthError RefreshedTokens) → Prop where
  | unrotated (time : Instant) {now : Int64} {minted : History}
      {r : Except Interruption (Except AuthError RefreshedTokens)} :
      s.policy.rotateRefreshTokens = false → Mints minted r →
      Exchanged s c ds (.answered time .clock now :: minted) r
  | refused (time : Instant) {now : Int64} {h : History} {e : AuthError} :
      s.policy.rotateRefreshTokens = true → s.Rotated c now ds h (.ok (.error e)) →
      Exchanged s c ds (.answered time .clock now :: h) (.ok (.error e))
  | rotated (time : Instant) {now : Int64} {h minted : History} {successor : IssuedToken}
      {r : Except Interruption (Except AuthError RefreshedTokens)} :
      s.policy.rotateRefreshTokens = true → s.Rotated c now ds h (.ok (.ok successor)) →
      Mints minted r → Exchanged s c ds (.answered time .clock now :: (h ++ minted)) r
  | abandoned (time : Instant) {now : Int64} {h : History} {i : Interruption} :
      s.policy.rotateRefreshTokens = true → s.Rotated c now ds h (.error i) →
      Exchanged s c ds (.answered time .clock now :: h) (.error i)

theorem ensures_access {c : Credential} {now : Int64} {successor : Option String}
    (lenient : R.Lenient)
    (issues : ∀ tail, (∀ e ∈ tail, e.IsMinting) → ∀ time kind x,
      R.event (h ++ tail) (.answered time (.count (.issued kind)) x)) :
    (do
      match ← s.mint .access (subjectOf c) c.sessionId now with
      | .error e => return .error e
      | .ok access =>
        return .ok
          { accessToken := access.token, refreshToken := successor, tokenType := bearer,
            expiresIn := s.policy.accessTtl.secs } : Action (Except AuthError RefreshedTokens)).Ensures
      R ds h (s.Minted .access c.userId now) := by
  refine Ensures.bind _ (ensures_minting lenient issues) ?_ ?_
  · rintro tail x ⟨minting, y, same, fails⟩
    cases same
    cases x with
    | error e =>
        refine Ensures.done ⟨by simpa using minting, _, rfl, fun e' same => ?_⟩
        cases same
        rw [List.append_nil]
        exact fails e rfl
    | ok access =>
        refine Ensures.done ⟨by simpa using minting, _, rfl, ?_⟩
        exact fun e impossible => by cases impossible
  · rintro tail i ⟨_, y, impossible, _⟩
    cases impossible

/-- A rotation with a successor has not been told that an entry was there already. -/
theorem Rotated.not_lost {c : Credential} {now : Int64} {successor : IssuedToken}
    (seen : s.Rotated c now ds h (.ok (.ok successor))) : ∀ e ∈ h, ¬ e.IsLost := by
  cases seen with
  | won _ kept mints =>
      exact List.forall_mem_append.mpr
        ⟨not_lost_of_stored kept, fun e he => not_lost_of_minting (mints.1 e he)⟩

theorem ensures_exchange {c : Credential} (lenient : R.Lenient)
    (allows : ∀ time now, s.AllowsEntry R c now .refreshRotated (h ++ [.answered time .clock now]))
    (issues : ∀ tail, (∀ e ∈ tail, ¬ e.IsLost) → ∀ time kind x,
      R.event (h ++ tail) (.answered time (.count (.issued kind)) x)) :
    (s.exchange c).Ensures R ds h (s.Exchanged c ds) := by
  unfold exchange
  refine Ensures.ask (fun time x => lenient.asks _ time _ x rfl) fun time now => ?_
  have told : ¬ (Event.answered time .clock now).IsLost := fun ⟨_, _, _, _, _, impossible⟩ => by
    cases impossible
  have issuing (tail : History) (all : ∀ e ∈ tail, ¬ e.IsLost) (time' : Instant) (kind : TokenKind)
      (x : Unit) : R.event (h ++ [.answered time .clock now] ++ tail)
        (.answered time' (.count (.issued kind)) x) := by
    rw [List.append_assoc]
    exact issues _ (List.forall_mem_cons.mpr ⟨told, all⟩) time' kind x
  cases rotates : s.policy.rotateRefreshTokens with
  | false =>
      refine (ensures_access lenient fun tail all => ?_).mono fun tail r minted =>
        .unrotated time rotates minted.mints
      exact issuing tail fun e he => not_lost_of_minting (all e he)
  | true =>
      simp only [if_true]
      refine Ensures.bind _ (ensures_rotate lenient (allows time now) issuing) ?_
        fun tail i cut => .abandoned time rotates cut
      intro tail x rotated
      cases x with
      | error e => exact Ensures.done (by simpa using .refused time rotates rotated)
      | ok issued =>
          refine (ensures_access lenient fun minted all => ?_).mono fun tail r minted =>
            .rotated time rotates rotated minted.mints
          rw [List.append_assoc _ tail]
          exact issuing _ (List.forall_mem_append.mpr
            ⟨rotated.not_lost, fun e he => not_lost_of_minting (all e he)⟩)

/-! ### Refreshing -/

/-- An accepted token decodes at a time that was read, and is of the expected kind. -/
theorem Verified.decoded {c : Credential}
    (seen : s.Verified request token expected ds h (.ok (.accepted c))) :
    ∃ time now, Event.answered time .clock now ∈ h ∧ s.codec.decode s.keys token now = .ok c ∧
      c.kind = expected := by
  obtain ⟨time, now, _, _, _, found, told, decoded, kind, _, _, same⟩ := seen.answered (.inl rfl)
  cases found with
  | true => cases same
  | false =>
      cases same
      exact ⟨time, now, told, decoded, kind⟩

/-- What is seen of a refresh, and how it ends. -/
inductive Refreshed (s : TokenService) (request : RequestContext) (token : String) (ds : List Nat) :
    History → Except Interruption (Except AuthError RefreshedTokens) → Prop where
  | rejected {h : History} {reason : FailureReason} {stage : Stage} :
      s.Verified request token .refresh ds h (.ok (.rejected reason stage)) →
      Refreshed s request token ds h (.ok (.error (.rejected reason)))
  | exchanged {h exchange : History} {c : Credential}
      {r : Except Interruption (Except AuthError RefreshedTokens)} :
      s.Verified request token .refresh ds h (.ok (.accepted c)) → s.Exchanged c ds exchange r →
      Refreshed s request token ds (h ++ exchange) r
  | abandoned {h : History} {i : Interruption} :
      s.Verified request token .refresh ds h (.error i) →
      Refreshed s request token ds h (.error i)

/-- What a lenient rule has to allow for a refresh to keep to it. -/
structure AllowsRefresh (s : TokenService) (R : Rule) (request : RequestContext) (token : String)
    (h : History) : Prop where
  verification : s.AllowsVerification R request token h
  entries : ∀ tail, (∀ e ∈ tail, e.IsHarmless) → ∀ time now c, Event.answered time .clock now ∈ tail →
    s.codec.decodeIgnoringExpiry s.keys token = .ok c →
    s.AllowsEntry R c now .refreshRotated (h ++ tail)
  issues : ∀ tail, (∀ e ∈ tail, ¬ e.IsLost) → ∀ time kind x,
    R.event (h ++ tail) (.answered time (.count (.issued kind)) x)

theorem ensures_refreshFor (lenient : R.Lenient) (allows : s.AllowsRefresh R request token h) :
    (s.refreshFor request token).Ensures R ds h (s.Refreshed request token ds) := by
  unfold refreshFor
  refine Ensures.bind _ (ensures_verifyFor lenient allows.verification) ?_
    fun tail i cut => .abandoned cut
  intro tail verdict verified
  have kept : ∀ e ∈ tail, ¬ e.IsLost := fun e he => (verified.harmless e he).not_lost
  cases verdict with
  | rejected reason stage => exact Ensures.done (by simpa using .rejected verified)
  | accepted c =>
      obtain ⟨_, _, _, decoded, _⟩ := verified.decoded
      refine (ensures_exchange lenient (fun time now => ?_) fun tail' none => ?_).mono
        fun exchange r exchanged => .exchanged verified exchanged
      · rw [List.append_assoc]
        have told : (Event.answered time .clock now).IsHarmless := Event.harmless_of_plain rfl
        exact allows.entries _
          (List.forall_mem_append.mpr ⟨verified.harmless, List.forall_mem_singleton.mpr told⟩)
          time now c (by simp) (Codec.decode_eq_ok_iff.mp decoded).1
      · rw [List.append_assoc]
        exact allows.issues _ (List.forall_mem_append.mpr ⟨kept, none⟩)

/-! ### Revoking -/

/-- What is seen of a revocation, and how it ends. -/
inductive Revoked (s : TokenService) (token : String) (reason : Revocation.Reason) (ds : List Nat) :
    History → Except Interruption (Except AuthError Unit) → Prop where
  | undecodable {e : DecodeError} :
      s.codec.decodeIgnoringExpiry s.keys token = .error e →
      Revoked s token reason ds [] (.ok (.error (.rejected e.reason)))
  | failed (time : Instant) {now : Int64} {c : Credential} {ttl : Span} {h : History}
      {e : Revocation.Error} :
      s.codec.decodeIgnoringExpiry s.keys token = .ok c → s.revocationTtl? c now = some ttl →
      s.store.Keeps (entryFor c now ttl reason) ds h (.ok (.error e)) →
      Revoked s token reason ds (.answered time .clock now :: h) (.ok (.error (.revocation e)))
  | kept (time : Instant) {now : Int64} {c : Credential} {ttl : Span} {h : History}
      {stored : Bool} :
      s.codec.decodeIgnoringExpiry s.keys token = .ok c → s.revocationTtl? c now = some ttl →
      s.store.Keeps (entryFor c now ttl reason) ds h (.ok (.ok stored)) →
      Revoked s token reason ds (.answered time .clock now :: h) (.ok (.ok ()))
  | abandoned (time : Instant) {now : Int64} {c : Credential} {ttl : Span} {h : History}
      {i : Interruption} :
      s.codec.decodeIgnoringExpiry s.keys token = .ok c → s.revocationTtl? c now = some ttl →
      s.store.Keeps (entryFor c now ttl reason) ds h (.error i) →
      Revoked s token reason ds (.answered time .clock now :: h) (.error i)
  | timeless (time : Instant) {now : Int64} {c : Credential} :
      s.codec.decodeIgnoringExpiry s.keys token = .ok c → s.revocationTtl? c now = none →
      Revoked s token reason ds [.answered time .clock now] (.error (.fault .lifetimeRange))

theorem ensures_revoke {reason : Revocation.Reason} (lenient : R.Lenient)
    (entries : ∀ time now c, s.codec.decodeIgnoringExpiry s.keys token = .ok c →
      s.AllowsEntry R c now reason (h ++ [.answered time .clock now])) :
    (s.revoke token reason).Ensures R ds h (s.Revoked token reason ds) := by
  unfold revoke
  cases decoded : s.codec.decodeIgnoringExpiry s.keys token with
  | error e => exact Ensures.done (.undecodable decoded)
  | ok c =>
      refine Ensures.ask (fun time x => lenient.asks _ time _ x rfl) fun time now => ?_
      refine Ensures.bind _ (ensures_revocationEntry (entries time now c decoded).faults) ?_ ?_
      · rintro _ _ (@⟨ttl, found⟩ | _)
        simp only [List.append_nil, List.nil_append]
        refine Ensures.bind _ (Revocation.Store.ensures_revokeEntry lenient fun k key =>
          (entries time now c decoded).stores ttl k found key) ?_
          fun tail i cut => .abandoned time decoded found cut
        intro tail outcome kept
        cases outcome with
        | error e => exact Ensures.done (by simpa using .failed time decoded found kept)
        | ok stored => exact Ensures.done (by simpa using .kept time decoded found kept)
      · rintro _ _ (_ | missing)
        exact .timeless time decoded missing

end TokenService

end TokenAuthority
