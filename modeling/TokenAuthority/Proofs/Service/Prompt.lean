import TokenAuthority.Proofs.Revocation.Prompt
import TokenAuthority.Proofs.Service.Calls

/-!
# A service over a cache in memory

A service over a cache in memory carries out each call at once. Verdicts are stated here for one without a
throttle; how it revokes, rotates and issues does not depend on that. While the breaker is as it was in the
beginning no call of the store is refused.

* `TokenService.verdictOn`, `yields_verifyFor` — the verdict on a token, and that a verification gives it.
* `TokenService.Judges`, `yields_judge` — the verdicts that are given behind any breaker.
* `TokenService.Stores` — the entry of a credential is stored, or there was one already.
* `TokenService.RevokedAs`, `yields_revoke` — the outcomes of a revocation.
* `TokenService.RefreshedAs`, `yields_refreshFor` — the outcomes of a refresh.
* `TokenService.yields_issue` and others — issuing changes nothing.
* `TokenService.Visits` — the calls made so far with their times and replies, and the world they have left.
  `Visits.keeps` is the induction over those of which each has replied.
-/

namespace TokenAuthority.TokenService

open TokenAuthority.Action

variable {s : TokenService} {w : World Cache.Memory} {request : RequestContext} {token : String}
  {expected : TokenKind}

/-! ### Verifying -/

/-- The verdict on a token in a world. -/
def verdictOn (s : TokenService) (w : World Cache.Memory) (token : String) (expected : TokenKind) :
    Verdict :=
  match s.codec.decode s.keys token (w.clock w.now) with
  | .error e => .ofDecodeError e
  | .ok c =>
    if c.kind = expected then .ofLookup c (.ok (s.store.finds w c.tokenId))
    else .rejected .wrongTokenType .expiryChecked

/-- The verdicts that a verification may give, once it is known whether the request is turned away. -/
inductive Judges (s : TokenService) (w : World Cache.Memory) (token : String) (expected : TokenKind) :
    Bool → Verdict → Prop where
  | turnedAway : Judges s w token expected true (.rejected .rateLimited .received)
  | judged : Judges s w token expected false (s.verdictOn w token expected)
  | refused :
      w.breaker.state ≠ .initial →
      Judges s w token expected false (.rejected .revocationCheckUnavailable .expiryChecked)

/-- A breaker that is as it was in the beginning refuses no look-up. -/
theorem Judges.eq {away : Bool} {verdict : Verdict} (judges : s.Judges w token expected away verdict)
    (closed : w.breaker.state = .initial) :
    verdict = if away then .rejected .rateLimited .received else s.verdictOn w token expected := by
  cases judges with
  | turnedAway => rfl
  | judged => rfl
  | refused opened => exact absurd closed opened

/-- Looking up a credential gives the verdict on it, unless the breaker refuses. -/
theorem yields_checkRevocation {c : Credential} : (s.checkRevocation c).Yields w fun r w' =>
    ∃ found, s.store.Looks w c.tokenId found ∧ w.Gives (.ofLookup c (.ok found)) r w' := by
  unfold checkRevocation withTimeout
  refine Yields.bind (fun r w' => ∃ found, s.store.Looks w c.tokenId found ∧ w.Gives (.ok found) r w')
    (Yields.bind (fun r w' => ∃ found, s.store.Looks w c.tokenId found ∧ w.Gives (some found) r w')
      (Yields.timeout Revocation.Store.yields_isRevoked_looks ?_) ?_ ?_) ?_ ?_
  · rintro r w' ⟨found, looks, rfl, leaves⟩
    exact ⟨found, looks, rfl, leaves⟩
  · rintro _ w' ⟨found, looks, same, leaves⟩
    cases same
    exact Yields.done ⟨found, looks, rfl, leaves⟩
  · rintro f w' ⟨found, _, impossible, _⟩
    cases impossible
  · rintro _ w' ⟨found, looks, same, leaves⟩
    cases same
    exact Yields.done ⟨found, looks, rfl, leaves⟩
  · rintro f w' ⟨found, _, impossible, _⟩
    cases impossible

/-- The verdict does not depend on what has been counted and drawn. -/
theorem verdictOn_of_leaves {w' : World Cache.Memory} (leaves : w.Leaves w.cache w') :
    s.verdictOn w' token expected = s.verdictOn w token expected := by
  unfold verdictOn Revocation.Store.finds
  rw [leaves.now, leaves.clock, leaves.cache]

theorem Judges.before {w' : World Cache.Memory} {away : Bool} {verdict : Verdict}
    (leaves : w.Leaves w.cache w') (judges : s.Judges w' token expected away verdict) :
    s.Judges w token expected away verdict := by
  cases judges with
  | turnedAway => exact .turnedAway
  | judged =>
      rw [verdictOn_of_leaves leaves]
      exact .judged
  | refused opened => exact .refused (mt leaves.closed opened)

/-- The verdict comes stage by stage, unless the request is turned away. -/
theorem yields_judge {away : Bool} (turned : (s.isTurnedAway request).Yields w (w.Gives away)) :
    (s.judge request token expected).Yields w fun r w' =>
      ∃ verdict, s.Judges w token expected away verdict ∧ w.Gives verdict r w' := by
  unfold judge
  refine Yields.bind _ turned ?_ ?_
  · rintro _ w' ⟨same, leaves⟩
    cases same
    cases away with
    | true => exact Yields.done ⟨_, .turnedAway, rfl, leaves⟩
    | false =>
        rw [if_neg Bool.false_ne_true]
        refine Yields.ask ?_
        have judged : (match s.codec.decode s.keys token (w'.clock w'.now) with
            | .error e => (return .ofDecodeError e : Action Verdict)
            | .ok c => if c.kind = expected then s.checkRevocation c
              else return .rejected .wrongTokenType .expiryChecked).Yields w' fun r w'' =>
            ∃ verdict, s.Judges w' token expected false verdict ∧ w'.Gives verdict r w'' := by
          have given : s.Judges w' token expected false (s.verdictOn w' token expected) := .judged
          unfold verdictOn at given
          cases decoded : s.codec.decode s.keys token (w'.clock w'.now) with
          | error e =>
              rw [decoded] at given
              exact Yields.done ⟨_, given, rfl, w'.leaves_self⟩
          | ok c =>
              rw [decoded] at given
              by_cases kind : c.kind = expected
              · simp only [if_pos kind] at given ⊢
                refine yields_checkRevocation.mono ?_
                rintro r w'' ⟨_, _ | opened, gives⟩
                · exact ⟨_, given, gives⟩
                · exact ⟨_, .refused opened, gives⟩
              · simp only [if_neg kind] at given ⊢
                exact Yields.done ⟨_, given, rfl, w'.leaves_self⟩
        refine judged.mono ?_
        rintro r w'' ⟨verdict, judges, gives⟩
        exact ⟨verdict, judges.before leaves, leaves.gives gives⟩
  · rintro f w' ⟨impossible, _⟩
    cases impossible

/-- A verification that no throttle is asked about gives such a verdict, and changes nothing. -/
theorem yields_verifyUnlimited (free : s.throttled? request = none) :
    (s.verifyFor request token expected).Yields w fun r w' =>
      ∃ verdict, s.Judges w token expected false verdict ∧ w.Gives verdict r w' := by
  have turned : (s.isTurnedAway request).Yields w (w.Gives false) := by
    unfold isTurnedAway
    rw [free]
    exact Yields.done ⟨rfl, w.leaves_self⟩
  unfold verifyFor
  refine Yields.bind _ (yields_judge turned) ?_ ?_
  · rintro verdict w' ⟨_, judges, same, leaves⟩
    cases same
    have counted := leaves.answer (q := .count (.verification expected verdict.reason?))
      fun _ impossible => by cases impossible
    have observed : (s.observe request expected verdict).Yields w' (w.Gives ()) := by
      refine Yields.ask ?_
      rw [free]
      split
      · exact Yields.done ⟨rfl, counted⟩
      · exact Yields.done ⟨rfl, counted⟩
    refine Yields.bind _ observed ?_ ?_
    · rintro _ w'' ⟨_, leaves⟩
      exact Yields.done ⟨verdict, judges, rfl, leaves⟩
    · rintro f w'' ⟨impossible, _⟩
      cases impossible
  · rintro f w' ⟨_, _, impossible, _⟩
    cases impossible

/-- While the breaker is as it was in the beginning, that is the verdict on the token. -/
theorem yields_verifyUnlimited_closed (free : s.throttled? request = none)
    (closed : w.breaker.state = .initial) :
    (s.verifyFor request token expected).Yields w (w.Gives (s.verdictOn w token expected)) := by
  refine (yields_verifyUnlimited free).mono ?_
  rintro r w' ⟨_, judges, gives⟩
  cases judges.eq closed
  exact gives

/-- Without a throttle no verification asks about one. -/
theorem throttled?_of_unthrottled (unthrottled : s.throttle = none) : s.throttled? request = none := by
  unfold throttled?
  rw [unthrottled]

/-- A verification gives the verdict, and changes nothing. -/
theorem yields_verifyFor (unthrottled : s.throttle = none) (closed : w.breaker.state = .initial) :
    (s.verifyFor request token expected).Yields w (w.Gives (s.verdictOn w token expected)) :=
  yields_verifyUnlimited_closed (throttled?_of_unthrottled unthrottled) closed

theorem yields_generate {α : Type} {f : RequestContext → Action α}
    {post : Except Fault α → World Cache.Memory → Prop}
    (rest : ∀ request w', request.client = none → w.Leaves w.cache w' →
      w.Draws w' → (f request).Yields w' post) :
    (RequestContext.generate >>= f).Yields w post :=
  rest _ _ rfl (w.leaves_self.answer fun _ impossible => by cases impossible) ⟨rfl, Nat.le_succ _⟩

/-- A verification without a request gives the verdict, whatever the throttle. -/
theorem yields_verify (closed : w.breaker.state = .initial) :
    (s.verify token expected).Yields w (w.Gives (s.verdictOn w token expected)) := by
  refine yields_generate fun request w' anonymous leaves _ => ?_
  have free : s.throttled? request = none := by
    unfold throttled?
    rw [anonymous]
    cases s.throttle <;> rfl
  rw [← verdictOn_of_leaves leaves]
  exact (yields_verifyUnlimited_closed free (leaves.closed closed)).mono fun r w'' => leaves.gives

/-- A verification gives the verdict, whether it comes with a request or not. -/
theorem yields_verifyWith {request : Option RequestContext} (unthrottled : s.throttle = none)
    (closed : w.breaker.state = .initial) :
    (s.verifyWith request token expected).Yields w (w.Gives (s.verdictOn w token expected)) := by
  cases request with
  | some request => exact yields_verifyFor unthrottled closed
  | none => exact yields_verify closed

/-- The verdict on a token that decodes to a credential of the expected kind. -/
theorem verdictOn_eq {c : Credential} {k : String}
    (decodes : s.codec.decode s.keys token (w.clock w.now) = .ok c) (kind : c.kind = expected)
    (keyed : s.store.key c.tokenId = .ok k) : s.verdictOn w token expected =
      if (w.cache.live? w.now k).isSome then .rejected .tokenRevoked .revocationChecked
      else .accepted c := by
  unfold verdictOn Revocation.Store.finds
  rw [decodes]
  simp only [if_pos kind, keyed, Except.map]
  cases (w.cache.live? w.now k).isSome <;> rfl

/-- The verdict on a token that decodes to a credential of another kind. -/
theorem verdictOn_of_other {c : Credential} (decodes : s.codec.decode s.keys token (w.clock w.now) = .ok c)
    (other : c.kind ≠ expected) :
    s.verdictOn w token expected = .rejected .wrongTokenType .expiryChecked := by
  unfold verdictOn
  rw [decodes]
  exact if_neg other

/-- What is known of an accepted token. -/
theorem decodes_of_verdictOn {c : Credential} (accepted : s.verdictOn w token expected = .accepted c) :
    ∃ k, s.codec.decodeIgnoringExpiry s.keys token = .ok c ∧ s.store.key c.tokenId = .ok k := by
  unfold verdictOn at accepted
  split at accepted
  · cases accepted
  · rename_i c' decodes
    split at accepted
    · unfold Revocation.Store.finds at accepted
      cases keyed : s.store.key c'.tokenId with
      | error e =>
          rw [keyed] at accepted
          cases accepted
      | ok k =>
          rw [keyed] at accepted
          simp only [Except.map] at accepted
          cases found : (w.cache.live? w.now k).isSome with
          | true =>
              rw [found] at accepted
              cases accepted
          | false =>
              rw [found] at accepted
              cases accepted
              exact ⟨k, (Codec.decode_eq_ok_iff.mp decodes).1, keyed⟩
    · cases accepted

/-! ### Issuing -/

/-- Something is answered that is no rejection, and the cache stays as it is. -/
inductive Issues {α : Type} (w : World Cache.Memory) :
    Except Fault (Except AuthError α) → World Cache.Memory → Prop where
  | answered {x : Except AuthError α} {w' : World Cache.Memory} :
      (∀ reason, x ≠ .error (.rejected reason)) → w.Leaves w.cache w' → Issues w (.ok x) w'

variable {subject : Subject} {sessionId : Option String} {now : Int64} {kind : TokenKind}

theorem yields_draw {count : Nat} : (RandomText.draw count).Yields w w.Idles := by
  unfold RandomText.draw
  split
  · exact Yields.done ⟨_, rfl, w.leaves_self⟩
  · exact Yields.ask (Yields.done ⟨_, rfl, w.leaves_self.answer fun _ impossible => by cases impossible⟩)

theorem yields_mint : (s.mint kind subject sessionId now).Yields w (Issues w) := by
  unfold mint
  cases lasts : s.lifetime kind with
  | error e =>
      refine Yields.done (.answered (fun reason same => ?_) w.leaves_self)
      exact lifetime_ne_rejected lasts reason (Except.error.inj same)
  | ok seconds =>
      refine Yields.idly yields_draw fun drawn w' leaves => ?_
      cases drawn with
      | error e => exact Yields.done (.answered (fun _ impossible => by cases impossible) leaves)
      | ok tokenId =>
          simp only
          split
          · exact Yields.done (.answered (fun _ impossible => by cases impossible) leaves)
          · refine Yields.ask (Yields.done (.answered (fun _ impossible => by cases impossible) ?_))
            exact leaves.answer fun _ impossible => by cases impossible

/-- What changes nothing leaves the cache as it is. -/
theorem Issues.idles {α : Type} {r : Except Fault (Except AuthError α)} {w' : World Cache.Memory}
    (issues : Issues w r w') : w.Idles r w' := by
  cases issues with
  | answered _ leaves => exact ⟨_, rfl, leaves⟩

/-- Minting a token for the time that the clock reads changes nothing. -/
theorem yields_issueNow :
    (do s.mint kind subject sessionId (← Action.now) : Action (Except AuthError IssuedToken)).Yields w
      w.Idles :=
  Yields.ask (yields_mint.mono fun _ _ issues => issues.idles)

theorem yields_issueRefreshToken : (s.issueRefreshToken subject).Yields w w.Idles := by
  unfold issueRefreshToken
  refine Yields.idly yields_draw fun drawn w' leaves => ?_
  cases drawn with
  | error e => exact Yields.done ⟨_, rfl, leaves⟩
  | ok sessionId => exact yields_issueNow.mono fun r w'' idles => leaves.idles idles

theorem yields_issue : (s.issue subject).Yields w w.Idles := by
  unfold issue
  have idly {w : World Cache.Memory} {kind : TokenKind} {sessionId : Option String} {now : Int64} :
      (s.mint kind subject sessionId now).Yields w w.Idles :=
    yields_mint.mono fun _ _ issues => issues.idles
  refine Yields.idly yields_draw fun drawn w' leaves => ?_
  cases drawn with
  | error e => exact Yields.done ⟨_, rfl, leaves⟩
  | ok sessionId =>
      refine Yields.ask (Yields.idly idly fun access w₁ leaves₁ => ?_)
      have leaves := leaves.still leaves₁
      cases access with
      | error e => exact Yields.done ⟨_, rfl, leaves⟩
      | ok access =>
          refine Yields.idly idly fun refresh w₂ leaves₂ => ?_
          have leaves := leaves.still leaves₂
          cases refresh with
          | error e => exact Yields.done ⟨_, rfl, leaves⟩
          | ok refresh => exact Yields.done ⟨_, rfl, leaves⟩

/-! ### Revoking -/

/-- The entry of a credential is stored, or there is one already. -/
def Stores (s : TokenService) (c : Credential) (w : World Cache.Memory) (stored : Bool)
    (w' : World Cache.Memory) : Prop :=
  ∃ k ttl reason m, s.store.key c.tokenId = .ok k ∧ s.revocationTtl? c (w.clock w.now) = some ttl ∧
    w.cache.perform w.now (.setIfAbsent k (entryFor c (w.clock w.now) ttl reason).text
      (entryFor c (w.clock w.now) ttl reason).ttl) = .ok (.ok stored, m) ∧ w.Leaves m w'

/-- The outcomes of keeping the entry of a credential. -/
inductive Keeps (s : TokenService) (c : Credential) (w : World Cache.Memory) :
    Except Fault (Except Revocation.Error Bool) → World Cache.Memory → Prop where
  | failed {e : Revocation.Error} {w' : World Cache.Memory} :
      s.store.key c.tokenId = .error e → w.Leaves w.cache w' → Keeps s c w (.ok (.error e)) w'
  | refused {w' : World Cache.Memory} :
      w.breaker.state ≠ .initial → w.Leaves w.cache w' → Keeps s c w (.ok (.error .circuitOpen)) w'
  | kept {stored : Bool} {w' : World Cache.Memory} :
      s.Stores c w stored w' → Keeps s c w (.ok (.ok stored)) w'
  | fault {f : Fault} {w' : World Cache.Memory} : w.Retains w' → Keeps s c w (.error f) w'

/-- Keeping the entry of a credential, and what is done then. -/
theorem yields_keeps {α : Type} {c : Credential} {reason : Revocation.Reason}
    {next : Except Revocation.Error Bool → Action α} {post : Except Fault α → World Cache.Memory → Prop}
    (rest : ∀ x w', s.Keeps c w (.ok x) w' → w.Draws w' → (next x).Yields w' post)
    (faulty : ∀ f w', w.Retains w' → post (.error f) w') :
    (do next (← s.store.revokeEntry (← s.revocationEntry c (w.clock w.now) reason))).Yields w post := by
  unfold revocationEntry
  cases found : s.revocationTtl? c (w.clock w.now) with
  | none => exact faulty _ _ w.retains_self
  | some ttl =>
      have recorded := Revocation.Store.yields_revokeEntry (s := s.store) (w := w)
        (e := entryFor c (w.clock w.now) ttl reason)
      have kept : (s.store.revokeEntry (entryFor c (w.clock w.now) ttl reason) >>= next).Yields w post := by
        refine Yields.bind _ recorded.drawing ?_ ?_
        · rintro x w' ⟨recorded, drawing⟩
          refine rest x w' ?_ drawing
          cases recorded with
          | invalid invalid leaves => exact .failed invalid leaves
          | refused opened leaves => exact .refused opened leaves
          | answered keyed answered =>
              exact .kept ⟨_, ttl, reason, _, keyed, found, answered.performs, answered.leaves⟩
        · rintro f w' ⟨recorded, _⟩
          cases recorded with
          | fault retains => exact faulty f w' retains
      exact kept

/-- The outcomes of a revocation. -/
inductive RevokedAs (s : TokenService) (token : String) (w : World Cache.Memory) :
    Except Fault (Except AuthError Unit) → World Cache.Memory → Prop where
  | failed {e : AuthError} {w' : World Cache.Memory} :
      w.Leaves w.cache w' → RevokedAs s token w (.ok (.error e)) w'
  | revoked {c : Credential} {stored : Bool} {w' : World Cache.Memory} :
      s.codec.decodeIgnoringExpiry s.keys token = .ok c → s.Stores c w stored w' →
      RevokedAs s token w (.ok (.ok ())) w'
  | fault {f : Fault} {w' : World Cache.Memory} : w.Retains w' → RevokedAs s token w (.error f) w'

theorem yields_revoke {reason : Revocation.Reason} :
    (s.revoke token reason).Yields w (s.RevokedAs token w) := by
  unfold revoke
  cases decoded : s.codec.decodeIgnoringExpiry s.keys token with
  | error e => exact Yields.done (.failed w.leaves_self)
  | ok c =>
      refine Yields.ask (yields_keeps ?_ fun f w' retains => .fault retains)
      intro x w' keeps _
      cases keeps with
      | failed _ leaves => exact Yields.done (.failed leaves)
      | refused _ leaves => exact Yields.done (.failed leaves)
      | kept stores => exact Yields.done (.revoked decoded stores)

/-! ### Refreshing -/

/-- The outcomes of a refresh, behind a breaker that is as it was in the beginning. -/
inductive RefreshedAs (s : TokenService) (token : String) (w : World Cache.Memory) :
    Except Fault (Except AuthError RefreshedTokens) → World Cache.Memory → Prop where
  | rejected {reason : FailureReason} {w' : World Cache.Memory} :
      w.Leaves w.cache w' → RefreshedAs s token w (.ok (.error (.rejected reason))) w'
  | lost {c : Credential} {w' : World Cache.Memory} :
      s.codec.decodeIgnoringExpiry s.keys token = .ok c → s.Stores c w false w' →
      RefreshedAs s token w (.ok (.error (.rejected .tokenRevoked))) w'
  | unrotated {x : Except AuthError RefreshedTokens} {w' : World Cache.Memory} :
      s.policy.rotateRefreshTokens = false → w.Leaves w.cache w' → RefreshedAs s token w (.ok x) w'
  | rotated {c : Credential} {x : Except AuthError RefreshedTokens} {w' : World Cache.Memory} :
      s.policy.rotateRefreshTokens = true → s.codec.decodeIgnoringExpiry s.keys token = .ok c →
      s.Stores c w true w' → (∀ reason, x ≠ .error (.rejected reason)) → RefreshedAs s token w (.ok x) w'
  | fault {f : Fault} {w' : World Cache.Memory} : w.Retains w' → RefreshedAs s token w (.error f) w'

/-- The entry stays stored while nothing else happens. -/
theorem Stores.still {c : Credential} {stored : Bool} {w' w'' : World Cache.Memory}
    (stores : s.Stores c w stored w') (still : w'.Leaves w'.cache w'') : s.Stores c w stored w'' := by
  obtain ⟨k, ttl, reason, m, keyed, found, performs, leaves⟩ := stores
  exact ⟨k, ttl, reason, m, keyed, found, performs, leaves.still still⟩

theorem Stores.before {c : Credential} {stored : Bool} {w' w'' : World Cache.Memory}
    (leaves : w.Leaves w.cache w') (stores : s.Stores c w' stored w'') : s.Stores c w stored w'' := by
  obtain ⟨k, ttl, reason, m, keyed, found, performs, leaves'⟩ := stores
  rw [leaves.now, leaves.clock] at found performs
  rw [leaves.cache] at performs
  exact ⟨k, ttl, reason, m, keyed, found, performs, leaves.trans leaves'⟩

/-- The outcome of a refresh does not depend on what has been counted and drawn before. -/
theorem RefreshedAs.before {r : Except Fault (Except AuthError RefreshedTokens)}
    {w' w'' : World Cache.Memory} (leaves : w.Leaves w.cache w') (refreshed : s.RefreshedAs token w' r w'') :
    s.RefreshedAs token w r w'' := by
  cases refreshed with
  | rejected leaves' => exact .rejected (leaves.still leaves')
  | lost decoded stores => exact .lost decoded (stores.before leaves)
  | unrotated unrotated leaves' => exact .unrotated unrotated (leaves.still leaves')
  | rotated rotates decoded stores accepts => exact .rotated rotates decoded (stores.before leaves) accepts
  | fault retains => exact .fault (leaves.retains.trans retains)

/-- The outcomes of making the successor of a refresh token. -/
inductive RotatedAs (s : TokenService) (c : Credential) (w : World Cache.Memory) :
    Except Fault (Except AuthError IssuedToken) → World Cache.Memory → Prop where
  | lost {w' : World Cache.Memory} :
      s.Stores c w false w' → RotatedAs s c w (.ok (.error (.rejected .tokenRevoked))) w'
  | won {x : Except AuthError IssuedToken} {w' : World Cache.Memory} :
      s.Stores c w true w' → (∀ reason, x ≠ .error (.rejected reason)) → RotatedAs s c w (.ok x) w'
  | refused {w' : World Cache.Memory} :
      w.breaker.state ≠ .initial → w.Leaves w.cache w' →
      RotatedAs s c w (.ok (.error (.revocation .circuitOpen))) w'
  | fault {f : Fault} {w' : World Cache.Memory} : w.Retains w' → RotatedAs s c w (.error f) w'

theorem yields_rotate {c : Credential} {k : String} (keyed : s.store.key c.tokenId = .ok k) :
    (s.rotate c (w.clock w.now)).Yields w (s.RotatedAs c w) := by
  unfold rotate
  refine yields_keeps ?_ fun f w' retains => .fault retains
  intro x w' keeps _
  cases keeps with
  | failed invalid _ =>
      rw [keyed] at invalid
      cases invalid
  | refused opened leaves => exact Yields.done (.refused opened leaves)
  | @kept stored _ stores =>
      cases stored with
      | false => exact Yields.done (.lost stores)
      | true =>
          refine yields_mint.mono ?_
          rintro _ w'' ⟨accepts, still⟩
          exact .won (stores.still still) accepts

/-- The access token at the end of a refresh is no rejection, and changes nothing. -/
theorem yields_access {c : Credential} {now : Int64} {refreshToken : Option String} :
    (do match ← s.mint .access (subjectOf c) c.sessionId now with
      | .error e => return .error e
      | .ok access =>
        return .ok
          { accessToken := access.token, refreshToken, tokenType := bearer,
            expiresIn := s.policy.accessTtl.secs } : Action (Except AuthError RefreshedTokens)).Yields w
      (Issues w) := by
  refine Yields.bind _ yields_mint ?_ ?_
  · rintro x w' ⟨accepts, leaves⟩
    cases x with
    | error e =>
        refine Yields.done (.answered (fun reason same => ?_) leaves)
        exact accepts reason (congrArg Except.error (Except.error.inj same))
    | ok access => exact Yields.done (.answered (fun _ impossible => by cases impossible) leaves)
  · rintro e w' impossible
    cases impossible

/-- The outcomes of exchanging a credential. -/
inductive ExchangedAs (s : TokenService) (c : Credential) (w : World Cache.Memory) :
    Except Fault (Except AuthError RefreshedTokens) → World Cache.Memory → Prop where
  | lost {w' : World Cache.Memory} :
      s.Stores c w false w' → ExchangedAs s c w (.ok (.error (.rejected .tokenRevoked))) w'
  | unrotated {x : Except AuthError RefreshedTokens} {w' : World Cache.Memory} :
      s.policy.rotateRefreshTokens = false → w.Leaves w.cache w' → (∀ reason, x ≠ .error (.rejected reason)) →
      ExchangedAs s c w (.ok x) w'
  | rotated {x : Except AuthError RefreshedTokens} {w' : World Cache.Memory} :
      s.policy.rotateRefreshTokens = true → s.Stores c w true w' → (∀ reason, x ≠ .error (.rejected reason)) →
      ExchangedAs s c w (.ok x) w'
  | refused {w' : World Cache.Memory} :
      w.breaker.state ≠ .initial → w.Leaves w.cache w' →
      ExchangedAs s c w (.ok (.error (.revocation .circuitOpen))) w'
  | fault {f : Fault} {w' : World Cache.Memory} : w.Retains w' → ExchangedAs s c w (.error f) w'

theorem yields_exchange {c : Credential} {k : String} (keyed : s.store.key c.tokenId = .ok k) :
    (s.exchange c).Yields w (s.ExchangedAs c w) := by
  unfold exchange
  refine Yields.ask ?_
  cases rotates : s.policy.rotateRefreshTokens with
  | false =>
      refine yields_access.mono ?_
      rintro _ w' ⟨accepts, leaves⟩
      exact .unrotated rotates leaves accepts
  | true =>
      simp only [if_true]
      refine Yields.bind _ (yields_rotate keyed) ?_ ?_
      · intro x w' rotated
        cases rotated with
        | lost stores => exact Yields.done (.lost stores)
        | refused opened leaves => exact Yields.done (.refused opened leaves)
        | won stores accepts =>
            cases x with
            | error e =>
                refine Yields.done (.rotated rotates stores fun reason same => ?_)
                exact accepts reason (congrArg Except.error (Except.error.inj same))
            | ok successor =>
                refine yields_access.mono ?_
                rintro _ w'' ⟨accepts, still⟩
                exact .rotated rotates (stores.still still) accepts
      · rintro f w' rotated
        cases rotated with
        | fault retains => exact .fault retains

/-- A refresh ends as the exchange of the credential of its token. -/
theorem ExchangedAs.refreshed {c : Credential} {r : Except Fault (Except AuthError RefreshedTokens)}
    {w' : World Cache.Memory} (closed : w.breaker.state = .initial)
    (decoded : s.codec.decodeIgnoringExpiry s.keys token = .ok c) (exchanged : s.ExchangedAs c w r w') :
    s.RefreshedAs token w r w' := by
  cases exchanged with
  | lost stores => exact .lost decoded stores
  | unrotated unrotated leaves _ => exact .unrotated unrotated leaves
  | rotated rotates stores accepts => exact .rotated rotates decoded stores accepts
  | refused opened _ => exact absurd closed opened
  | fault retains => exact .fault retains

theorem yields_refreshFor (unthrottled : s.throttle = none) (closed : w.breaker.state = .initial) :
    (s.refreshFor request token).Yields w (s.RefreshedAs token w) := by
  unfold refreshFor
  refine Yields.bind _ (yields_verifyFor unthrottled closed) ?_ ?_
  · rintro _ w' ⟨same, leaves⟩
    cases same
    cases verdict : s.verdictOn w token .refresh with
    | rejected reason stage => exact Yields.done (.rejected leaves)
    | accepted c =>
        obtain ⟨k, decoded, keyed⟩ := decodes_of_verdictOn verdict
        refine (yields_exchange keyed).mono ?_
        exact fun r w'' exchanged => (exchanged.refreshed (leaves.closed closed) decoded).before leaves
  · rintro e w' ⟨impossible, _⟩
    cases impossible

theorem yields_refreshWith {request : Option RequestContext} (unthrottled : s.throttle = none)
    (closed : w.breaker.state = .initial) :
    (s.refreshWith request token).Yields w (s.RefreshedAs token w) := by
  cases request with
  | some request => exact yields_refreshFor unthrottled closed
  | none =>
      refine yields_generate fun request w' _ leaves _ => ?_
      refine (yields_refreshFor unthrottled (leaves.closed closed)).mono ?_
      exact fun r w'' refreshed => refreshed.before leaves

/-- A call that replies with the value of an action ends as the action does. -/
theorem yields_reply {α : Type} {a : Action α} {reply : α → Reply}
    {post : Except Fault Reply → World Cache.Memory → Prop}
    (yields : a.Yields w fun r w' => post (r.map reply) w') :
    (do return reply (← a) : Action Reply).Yields w post :=
  Action.Yields.bind _ yields (fun _ _ held => held) fun _ _ held => held

/-! ### Calls one after the other -/

/-- A call that was made at a time, with its reply if it had one. -/
structure Visit where
  time : Instant
  call : Call
  reply : Option Reply

/-- The calls that were made one after the other from a world on, the last one first, and the world that
they have left. -/
inductive Visits (s : TokenService) (w₀ : World Cache.Memory) : List Visit → World Cache.Memory → Prop where
  | start : Visits s w₀ [] w₀
  | call {log : List Visit} {w w' : World Cache.Memory} {k : Call} {ending : Ending Reply} :
      Visits s w₀ log w → (k.action s).run Cache.Memory.backend w = (ending, w') →
      Visits s w₀ (⟨w.now, k, ending.value?⟩ :: log) w'
  | pause {log : List Visit} {w : World Cache.Memory} (span : Span) :
      Visits s w₀ log w → Visits s w₀ log (w.advance span)

/-- What holds in the beginning, and is kept by a call that replies and while time passes, holds after calls of
which each has replied. -/
theorem Visits.keeps {w₀ : World Cache.Memory} {log : List Visit}
    {P : List Visit → World Cache.Memory → Prop} (visits : s.Visits w₀ log w)
    (replied : ∀ v ∈ log, v.reply.isSome) (start : P [] w₀)
    (call : ∀ {log w k reply w'}, P log w → (k.action s).run Cache.Memory.backend w = (.value reply, w') →
      P (⟨w.now, k, some reply⟩ :: log) w')
    (pause : ∀ {log w} span, P log w → P log (w.advance span)) : P log w := by
  induction visits with
  | start => exact start
  | pause span _ ih => exact pause span (ih replied)
  | @call log w w' k ending _ runs ih =>
      obtain ⟨ended, before⟩ := List.forall_mem_cons.mp replied
      obtain ⟨reply, gives⟩ := Option.isSome_iff_exists.mp ended
      cases Ending.eq_of_value? gives
      exact call (ih before) runs

end TokenAuthority.TokenService
