import TokenAuthority.Proofs.Cache.Contract
import TokenAuthority.Proofs.Revocation.Lifetime

/-!
# Calls of a service

The calls that callers of a service make, in one type, so that schedules and sessions can be made of
them.

* `TokenService.Call`, `TokenService.Reply`, `Call.action` — a call, and what it answers.
* `Call.Replied` — a call that has seen a history and given a reply: a verification, a refresh and a
  revocation have seen one of their histories.
* `TokenService.entryRule` — under one key calls store nothing but entries of one lifetime, and they
  report a failure only after a cache call has failed.
* `Call.ensures_entryRule` — every call keeps to this rule.
-/

namespace TokenAuthority.TokenService

open TokenAuthority.Action

/-- A call of a service. A verification or a refresh may come without a request. -/
inductive Call where
  | issue (subject : Subject)
  | issueAccess (subject : Subject)
  | issueRefresh (subject : Subject)
  | issueReset (userId email : String)
  | verify (request : Option RequestContext) (token : String) (expected : TokenKind)
  | refresh (request : Option RequestContext) (token : String)
  | revoke (token : String) (reason : Revocation.Reason)
  | remove (tokenId : String)

/-- What a call answers. -/
inductive Reply where
  | pair (outcome : Except AuthError TokenPair)
  | issued (outcome : Except AuthError IssuedToken)
  | verdict (verdict : Verdict)
  | refreshed (outcome : Except AuthError RefreshedTokens)
  | revoked (outcome : Except AuthError Unit)
  | removed (outcome : Except Revocation.Error Bool)

def verifyWith (s : TokenService) (request : Option RequestContext) (token : String)
    (expected : TokenKind) : Action Verdict :=
  match request with
  | none => s.verify token expected
  | some request => s.verifyFor request token expected

def refreshWith (s : TokenService) (request : Option RequestContext) (token : String) :
    Action (Except AuthError RefreshedTokens) :=
  match request with
  | none => s.refresh token
  | some request => s.refreshFor request token

def Call.action (s : TokenService) : Call → Action Reply
  | .issue subject => return .pair (← s.issue subject)
  | .issueAccess subject => return .issued (← s.issueAccessToken subject)
  | .issueRefresh subject => return .issued (← s.issueRefreshToken subject)
  | .issueReset userId email => return .issued (← s.issueResetToken userId email)
  | .verify request token expected => return .verdict (← s.verifyWith request token expected)
  | .refresh request token => return .refreshed (← s.refreshWith request token)
  | .revoke token reason => return .revoked (← s.revoke token reason)
  | .remove tokenId => return .removed (← s.store.remove tokenId)

/-- The flow of a call. It ends with none only if its caller has gone. -/
def Call.flow (s : TokenService) (k : Call) : Flow (Option Reply) := (k.action s).start

variable {s : TokenService} {R : Rule} {ds : List Nat} {h : History}

/-! ### Requests -/

/-- The events of a call that is given a request, or generates one first. -/
def Requested {α : Type} (seen : RequestContext → History → Except Interruption α → Prop) (h : History)
    (r : Except Interruption α) : Prop :=
  ∃ request drawn rest, h = drawn ++ rest ∧ (∀ e ∈ drawn, ∃ time x, e = .answered time (.draw 16) x) ∧
    seen request rest r

theorem ensures_generate {α : Type} {f : RequestContext → Action α}
    {seen : RequestContext → History → Except Interruption α → Prop} (lenient : R.Lenient)
    (rest : ∀ request time x, (f request).Ensures R ds (h ++ [.answered time (.draw 16) x])
      (seen request)) :
    (RequestContext.generate >>= f).Ensures R ds h (Requested seen) := by
  change ((Action.query (.draw 16) >>= fun octets => f ⟨RandomText.identifier octets, none⟩) :
    Action α).Ensures R ds h _
  refine Ensures.ask (fun time x => lenient.asks _ time _ x rfl) fun time x => ?_
  refine (rest _ time x).mono fun tail r told => ⟨_, [.answered time (.draw 16) x], tail, rfl, ?_, told⟩
  exact List.forall_mem_singleton.mpr ⟨time, x, rfl⟩

/-- A verification, with a request or without one, sees one of its histories. -/
theorem ensures_verifyWith {request : Option RequestContext} {token : String} {expected : TokenKind}
    (lenient : R.Lenient)
    (allows : ∀ request tail, (∀ e ∈ tail, e.IsHarmless) →
      s.AllowsVerification R request token (h ++ tail)) :
    (s.verifyWith request token expected).Ensures R ds h
      (Requested fun request => s.Verified request token expected ds) := by
  cases request with
  | some request =>
      have allows := allows request [] (fun e none => (List.not_mem_nil none).elim)
      rw [List.append_nil] at allows
      refine (ensures_verifyFor lenient allows).mono fun tail r told => ?_
      exact ⟨request, [], tail, rfl, fun e none => (List.not_mem_nil none).elim, told⟩
  | none =>
      refine ensures_generate lenient fun request time x => ensures_verifyFor lenient ?_
      exact allows request _ (List.forall_mem_singleton.mpr (Event.harmless_of_plain rfl))

/-- A refresh, with a request or without one, sees one of its histories. -/
theorem ensures_refreshWith {request : Option RequestContext} {token : String} (lenient : R.Lenient)
    (allows : ∀ request tail, (∀ e ∈ tail, e.IsHarmless) →
      s.AllowsRefresh R request token (h ++ tail)) :
    (s.refreshWith request token).Ensures R ds h
      (Requested fun request => s.Refreshed request token ds) := by
  cases request with
  | some request =>
      have allows := allows request [] (fun e none => (List.not_mem_nil none).elim)
      rw [List.append_nil] at allows
      refine (ensures_refreshFor lenient allows).mono fun tail r told => ?_
      exact ⟨request, [], tail, rfl, fun e none => (List.not_mem_nil none).elim, told⟩
  | none =>
      refine ensures_generate lenient fun request time x => ensures_refreshFor lenient ?_
      exact allows request _ (List.forall_mem_singleton.mpr (Event.harmless_of_plain rfl))

/-! ### What calls see -/

/-- A call has seen this history and given this reply. A verification, a refresh and a revocation have seen one
of their histories (`Verified`, `Refreshed`, `Revoked`) with the outcome in the reply; a removal and a call that
issues tokens give a reply of their kind. -/
inductive Call.Replied (s : TokenService) : Call → History → Reply → Prop where
  | verified {request : Option RequestContext} {token : String} {expected : TokenKind} {h : History}
      {verdict : Verdict} :
      Requested (fun request => s.Verified request token expected []) h (.ok verdict) →
      Replied s (.verify request token expected) h (.verdict verdict)
  | refreshed {request : Option RequestContext} {token : String} {h : History}
      {outcome : Except AuthError RefreshedTokens} :
      Requested (fun request => s.Refreshed request token []) h (.ok outcome) →
      Replied s (.refresh request token) h (.refreshed outcome)
  | revoked {token : String} {reason : Revocation.Reason} {h : History}
      {outcome : Except AuthError Unit} :
      s.Revoked token reason [] h (.ok outcome) →
      Replied s (.revoke token reason) h (.revoked outcome)
  | pair {subject : Subject} {h : History} {outcome : Except AuthError TokenPair} :
      Replied s (.issue subject) h (.pair outcome)
  | access {subject : Subject} {h : History} {outcome : Except AuthError IssuedToken} :
      Replied s (.issueAccess subject) h (.issued outcome)
  | refresh {subject : Subject} {h : History} {outcome : Except AuthError IssuedToken} :
      Replied s (.issueRefresh subject) h (.issued outcome)
  | reset {userId email : String} {h : History} {outcome : Except AuthError IssuedToken} :
      Replied s (.issueReset userId email) h (.issued outcome)
  | removed {tokenId : String} {h : History} {outcome : Except Revocation.Error Bool} :
      Replied s (.remove tokenId) h (.removed outcome)

/-- A call that replies with the value of an action sees what the action sees. -/
theorem ensures_reply {α : Type} {a : Action α} {reply : α → Reply}
    {post : History → Except Interruption α → Prop} (ensures : a.Ensures R ds h post) :
    (do return reply (← a) : Action Reply).Ensures R ds h
      fun tail r => ∃ x, post tail x ∧ r = x.map reply := by
  refine Ensures.bind post ensures (fun tail x seen => Ensures.done ⟨.ok x, ?_, rfl⟩) ?_
  · rwa [List.append_nil]
  · exact fun tail i seen => ⟨.error i, seen, rfl⟩

/-- A call replies as its action does, in the reply that is made of the value. -/
theorem ensures_replied {α : Type} {a : Action α} {k : Call} {reply : α → Reply}
    {post : History → Except Interruption α → Prop} (ensures : a.Ensures R ds h post)
    (replied : ∀ tail x, post tail (.ok x) → k.Replied s tail (reply x)) :
    (do return reply (← a) : Action Reply).Ensures R ds h
      fun tail r => ∀ x, r = .ok x → k.Replied s tail x := by
  refine (ensures_reply ensures).mono ?_
  rintro tail r ⟨x | x, seen, rfl⟩ y same
  · cases same
  · cases same
    exact replied tail x seen

/-! ### Issuing -/

section Issuing

variable {subject : Subject}

/-- Where tokens may be counted at any time, minting is allowed. -/
theorem ensures_minted {kind : TokenKind} {sessionId : Option String} {now : Int64}
    (lenient : R.Lenient)
    (issues : ∀ h time kind x, R.event h (.answered time (.count (.issued kind)) x)) :
    (s.mint kind subject sessionId now).Ensures R ds h fun _ _ => True :=
  (ensures_mint lenient fun _ _ => issues _).mono fun _ _ _ => trivial

/-- So is issuing a token for the time that the clock tells. -/
theorem ensures_issueNow {kind : TokenKind} {sessionId : Option String} (lenient : R.Lenient)
    (issues : ∀ h time kind x, R.event h (.answered time (.count (.issued kind)) x)) :
    (do s.mint kind subject sessionId (← Action.now) : Action (Except AuthError IssuedToken)).Ensures
      R ds h fun _ _ => True :=
  Ensures.ask (fun time x => lenient.asks _ time _ x rfl) fun _ _ => ensures_minted lenient issues

theorem ensures_issueRefreshToken (lenient : R.Lenient)
    (issues : ∀ h time kind x, R.event h (.answered time (.count (.issued kind)) x)) :
    (s.issueRefreshToken subject).Ensures R ds h fun _ _ => True := by
  unfold issueRefreshToken
  refine Ensures.bind _ (ensures_draw lenient) ?_ fun _ _ _ => trivial
  intro tail drawn _
  cases drawn with
  | error e => exact Ensures.done trivial
  | ok sessionId => exact ensures_issueNow lenient issues

theorem ensures_issue (lenient : R.Lenient)
    (issues : ∀ h time kind x, R.event h (.answered time (.count (.issued kind)) x)) :
    (s.issue subject).Ensures R ds h fun _ _ => True := by
  unfold issue
  refine Ensures.bind _ (ensures_draw lenient) ?_ fun _ _ _ => trivial
  intro tail drawn _
  cases drawn with
  | error e => exact Ensures.done trivial
  | ok sessionId =>
      refine Ensures.ask (fun time x => lenient.asks _ time _ x rfl) fun time now => ?_
      refine Ensures.bind _ (ensures_minted lenient issues) ?_ fun _ _ _ => trivial
      intro tail access _
      cases access with
      | error e => exact Ensures.done trivial
      | ok access =>
          refine Ensures.bind _ (ensures_minted lenient issues) ?_ fun _ _ _ => trivial
          intro tail refresh _
          cases refresh <;> exact Ensures.done trivial

end Issuing

/-! ### Entries under one key -/

/-- The call stores the entry of a credential that is never current from a second on, for a time that
was worked out from a reading of the clock. -/
def StoresEntry (s : TokenService) (key : String) (last : Int) (h : History) (r : Cache.Request) :
    Prop :=
  ∃ time now c ttl reason, Event.answered time .clock now ∈ h ∧ s.lastSecond c = last ∧
    ¬ c.expiresAt < 0 ∧ s.revocationTtl? c now = some ttl ∧
    r = .setIfAbsent key (entryFor c now ttl reason).text (entryFor c now ttl reason).ttl

/-- Under a key nothing is written but entries of credentials with this last second, and a failure is
reported only after a cache call has failed. -/
def entryRule (s : TokenService) (key : String) (last : Int) : Rule where
  event h
    | .answered _ q _ => q = .circuit .failure → ∃ e ∈ h, e.Fails
    | .ended _ wait _ _ => ∀ r, wait = .cache r → r.Writes key → s.StoresEntry key last h r
  fault _ _ := True

/-- No counter of the throttle lies under a key. -/
def Spares (s : TokenService) (key : String) : Prop :=
  ∀ throttle, s.throttle = some throttle → ∀ client, throttle.key client ≠ key

/-- A call does not remove what is under a key, and stores nothing there but entries of credentials
with this last second. -/
def Call.Respects (s : TokenService) (key : String) (last : Int) : Call → Prop
  | .refresh _ token | .revoke token _ => ∀ c, s.codec.decodeIgnoringExpiry s.keys token = .ok c →
    s.store.key c.tokenId = .ok key → s.lastSecond c = last
  | .remove tokenId => s.store.key tokenId ≠ .ok key
  | _ => True

variable {key : String} {last : Int}

theorem lenient_entryRule : (s.entryRule key last).Lenient where
  asks h time q x plain := by
    rintro rfl
    cases plain
  reports h time x failed _ := failed

/-- A call for a key that writes no other than entries under it may be made. -/
theorem allows_entryRule {r : Cache.Request}
    (stores : ∀ tail, r.Writes key → s.StoresEntry key last (h ++ tail) r) :
    s.store.Allows (s.entryRule key last) r h where
  calls tail _ time d ds x r' same writes := by
    cases same
    exact stores tail writes
  sleeps tail _ time span ds x r' impossible := by cases impossible
  faults tail _ attempt factor _ := trivial

/-- A counter of the throttle is not under the key. -/
theorem Throttles.spares {request : RequestContext} {call : Cache.Request} (spares : s.Spares key)
    (throttles : s.Throttles request call) : ¬ call.Writes key := by
  obtain ⟨throttle, client, found, made⟩ := throttles
  have here : s.throttle = some throttle := by
    unfold throttled? at found
    split at found
    · rename_i throttle' client' has _
      cases found
      exact has
    · cases found
  rcases made with rfl | rfl
  · exact fun impossible => impossible
  · exact spares throttle here client

theorem allowsVerification_entryRule {request : RequestContext} {token : String}
    (spares : s.Spares key) : s.AllowsVerification (s.entryRule key last) request token h where
  throttles tail _ call time d ds x throttles r same writes := by
    cases same
    exact absurd writes (throttles.spares spares)
  looks tail _ time now c k _ _ _ := allows_entryRule fun _ impossible => impossible.elim

/-- The entry of a credential may be stored once the clock has been read. -/
theorem allowsEntry_entryRule {c : Credential} {time : Instant} {now : Int64}
    {reason : Revocation.Reason} (told : Event.answered time .clock now ∈ h)
    (nonneg : ¬ c.expiresAt < 0) (lasts : s.store.key c.tokenId = .ok key → s.lastSecond c = last) :
    s.AllowsEntry (s.entryRule key last) c now reason h where
  stores ttl k found here := allows_entryRule fun tail (same : k = key) => by
    subst same
    exact ⟨time, now, c, ttl, reason, List.mem_append_left _ told, lasts here, nonneg, found, rfl⟩
  faults _ := trivial

/-- Issuing a token is no report of a failure. -/
theorem issues_entryRule (time : Instant) (kind : TokenKind) (x : Unit) :
    (s.entryRule key last).event h (.answered time (.count (.issued kind)) x) := by
  intro impossible
  cases impossible

/-- A refresh keeps to the rule of the key of its token. -/
theorem allowsRefresh_entryRule {request : RequestContext} {token : String} (spares : s.Spares key)
    (lasts : ∀ c, s.codec.decodeIgnoringExpiry s.keys token = .ok c →
      s.store.key c.tokenId = .ok key → s.lastSecond c = last) :
    s.AllowsRefresh (s.entryRule key last) request token h where
  verification := allowsVerification_entryRule spares
  entries _ _ _ _ c told decoded :=
    allowsEntry_entryRule (List.mem_append_right _ told)
      (Codec.decodeIgnoringExpiry_eq_ok decoded).1 (lasts c decoded)
  issues _ _ := issues_entryRule

/-- Every call keeps to the rule of a key that it respects. -/
theorem Call.ensures_entryRule {k : Call} (spares : s.Spares key) (respects : k.Respects s key last) :
    (k.action s).Ensures (s.entryRule key last) [] []
      fun h r => ∀ x, r = .ok x → k.Replied s h x := by
  have lenient : (s.entryRule key last).Lenient := lenient_entryRule
  cases k with
  | issue subject =>
      exact ensures_replied (ensures_issue lenient fun _ => issues_entryRule) fun _ _ _ => .pair
  | issueAccess subject =>
      exact ensures_replied (ensures_issueNow lenient fun _ => issues_entryRule) fun _ _ _ => .access
  | issueRefresh subject =>
      exact ensures_replied (ensures_issueRefreshToken lenient fun _ => issues_entryRule)
        fun _ _ _ => .refresh
  | issueReset userId email =>
      exact ensures_replied (ensures_issueNow lenient fun _ => issues_entryRule) fun _ _ _ => .reset
  | verify request token expected =>
      refine ensures_replied (ensures_verifyWith lenient fun request tail _ => ?_) fun _ _ => .verified
      exact allowsVerification_entryRule spares
  | refresh request token =>
      refine ensures_replied (ensures_refreshWith lenient fun request tail _ => ?_) fun _ _ => .refreshed
      exact allowsRefresh_entryRule spares respects
  | revoke token reason =>
      refine ensures_replied (ensures_revoke lenient fun time now c decoded => ?_) fun _ _ => .revoked
      exact allowsEntry_entryRule (List.mem_append_right _ (List.mem_singleton_self _))
        (Codec.decodeIgnoringExpiry_eq_ok decoded).1 (respects c decoded)
  | remove tokenId =>
      refine ensures_replied (Revocation.Store.ensures_onKey lenient fun k here => ?_) fun _ _ _ => .removed
      refine allows_entryRule fun tail (same : k = key) => ?_
      subst same
      exact absurd here respects

end TokenAuthority.TokenService
