import Mathlib.Data.List.Nodup
import TokenAuthority.Proofs.Service.Credentials
import TokenAuthority.Proofs.Service.Issuing
import TokenAuthority.Proofs.Service.Throttling

/-!
# The tokens that calls make

Over a cache in memory, and behind any breaker and throttle, a call makes each token that it gives out under
the identifier of a draw of its own.

* `TokenService.MadeToken` — a token with what it says, except for its identifier.
* `TokenService.Born` — tokens that were made between two draws.
* `TokenService.Makes` — such tokens, made from one world to another; `Makes.append` puts two parts together.
* `TokenService.yields_refreshWith_makes` — what a refresh makes, and what it does to the token presented.
* `TokenService.yields_call_makes`, `Visits.makes` — what a call makes, and all calls that have replied.
* `TokenService.eq_of_makes` — tokens of a run with one identifier are one, if its draws differ.
-/

namespace TokenAuthority

open Cache (Memory)

namespace TokenService

open TokenAuthority.Action

variable {s : TokenService} {subject : Subject} {sessionId? : Option String} {kind : TokenKind} {now : Int64}
  {w w' w'' : World Memory}

/-! ### Tokens and their draws -/

/-- A token that was made. -/
structure MadeToken where
  token : String
  kind : TokenKind
  subject : Subject
  sessionId : Option String
  /-- What the clock read then. -/
  reading : Int64

/-- What the token says, with its identifier. -/
def MadeToken.credential (s : TokenService) (m : MadeToken) (tokenId : String) : Credential where
  tokenId := tokenId
  userId := m.subject.userId
  email := m.subject.email
  roles := m.subject.roles
  sessionId := m.sessionId
  issuedAt := m.reading
  expiresAt := Seconds.nearest (m.reading.toInt + (s.policy.ttl m.kind).secs)
  kind := m.kind

/-- The credential that is minted is what the token says. -/
theorem draft_eq {seconds : Int64} {tokenId : String} (token : String) (lasts : s.lifetime kind = .ok seconds) :
    draft kind subject sessionId? now seconds tokenId =
      (MadeToken.mk token kind subject sessionId? now).credential s tokenId := by
  have counted : seconds.toInt = (s.policy.ttl kind).secs := by
    unfold lifetime at lasts
    split at lasts
    · rename_i fits
      cases lasts
      exact Seconds.ofInt?_eq_some fits
    · cases lasts
  simp only [draft, MadeToken.credential, Seconds.plus, counted]

/-- Tokens that were made between two draws, each with the draw that gave its identifier. -/
structure Born (s : TokenService) (source : Randomness) (first last : Nat) (made : List (MadeToken × Nat)) :
    Prop where
  drawn : ∀ p ∈ made, first ≤ p.2 ∧ p.2 < last
  encoded : ∀ p ∈ made, s.codec.encode s.keys (p.1.credential s (idOf source p.2)) = .ok p.1.token
  apart : (made.map Prod.snd).Nodup

namespace Born

variable {source : Randomness} {first mid last : Nat} {made made' : List (MadeToken × Nat)}

theorem none : s.Born source first last [] :=
  ⟨fun _ mem => (List.not_mem_nil mem).elim, fun _ mem => (List.not_mem_nil mem).elim, List.nodup_nil⟩

theorem append (early : s.Born source first mid made) (late : s.Born source mid last made')
    (before : first ≤ mid) (after : mid ≤ last) : s.Born source first last (made' ++ made) where
  drawn p mem := by
    rcases List.mem_append.mp mem with new | old
    · exact ⟨Nat.le_trans before (late.drawn p new).1, (late.drawn p new).2⟩
    · exact ⟨(early.drawn p old).1, Nat.lt_of_lt_of_le (early.drawn p old).2 after⟩
  encoded p mem := (List.mem_append.mp mem).elim (late.encoded p) (early.encoded p)
  apart := by
    rw [List.map_append, List.nodup_append]
    refine ⟨late.apart, early.apart, ?_⟩
    intro draw new draw' old
    obtain ⟨p, here, rfl⟩ := List.mem_map.mp new
    obtain ⟨q, there, rfl⟩ := List.mem_map.mp old
    exact Nat.ne_of_gt (Nat.lt_of_lt_of_le (early.drawn q there).2 (late.drawn p here).1)

/-- Between draws that lie further apart there are the same tokens. -/
theorem widen {first' last' : Nat} (before : first' ≤ first) (after : last ≤ last')
    (born : s.Born source first last made) : s.Born source first' last' made where
  drawn p mem := ⟨Nat.le_trans before (born.drawn p mem).1, Nat.lt_of_lt_of_le (born.drawn p mem).2 after⟩
  encoded := born.encoded
  apart := born.apart

end Born

/-- From one world to another these tokens are made. -/
structure Makes (s : TokenService) (w w' : World Memory) (minted : List MadeToken) : Prop
    extends w.Draws w' where
  born : ∃ made : List (MadeToken × Nat), made.map Prod.fst = minted ∧ s.Born w.random w.draws w'.draws made

namespace Makes

variable {minted minted' : List MadeToken}

/-- Where something is drawn for another use, no token is made. -/
theorem nothing (drawing : w.Draws w') : s.Makes w w' [] := ⟨drawing, [], rfl, .none⟩

theorem append (first : s.Makes w w' minted) (second : s.Makes w' w'' minted') :
    s.Makes w w'' (minted' ++ minted) := by
  obtain ⟨made, rfl, early⟩ := first.born
  obtain ⟨made', rfl, late⟩ := second.born
  rw [first.random] at late
  exact ⟨first.toDraws.trans second.toDraws, made' ++ made, List.map_append,
    early.append late first.draws second.draws⟩

/-- What is drawn before, for something else, does not matter. -/
theorem before (drawing : w.Draws w') (makes : s.Makes w' w'' minted) : s.Makes w w'' minted := by
  have both := (nothing (s := s) drawing).append makes
  rwa [List.append_nil] at both

theorem after (makes : s.Makes w w' minted) (drawing : w'.Draws w'') : s.Makes w w'' minted :=
  makes.append (nothing drawing)

end Makes

/-! ### Issuing -/

theorem yields_mint_makes : (s.mint kind subject sessionId? now).Yields w fun r w' => w.Leaves w.cache w' ∧
    ∀ issued, r = .ok (.ok issued) → s.Makes w w' [⟨issued.token, kind, subject, sessionId?, now⟩] := by
  cases lasts : s.lifetime kind with
  | error e =>
      unfold mint
      rw [lasts]
      exact Yields.done ⟨w.leaves_self, fun _ impossible => by cases impossible⟩
  | ok seconds =>
      have answers : (s.mint kind subject sessionId? now).answers? w = _ := answers_mint lasts
      cases made : s.codec.encode s.keys (draft kind subject sessionId? now seconds
          (idOf w.random w.draws)) with
      | error e =>
          rw [made] at answers
          exact yields_of_answers answers ⟨⟨rfl, rfl, id, rfl⟩, fun _ impossible => by cases impossible⟩
      | ok token =>
          rw [made] at answers
          refine yields_of_answers answers ⟨⟨rfl, rfl, id, rfl⟩, ?_⟩
          rintro _ ⟨⟩
          rw [draft_eq token lasts] at made
          refine ⟨⟨rfl, Nat.le_succ _⟩, [(⟨token, kind, subject, sessionId?, now⟩, w.draws)], rfl, ?_⟩
          refine ⟨List.forall_mem_singleton.mpr ⟨Nat.le_refl _, Nat.lt_succ_self _⟩, ?_,
            List.nodup_singleton _⟩
          exact List.forall_mem_singleton.mpr made

/-- Minting a token, and what is done with it. -/
theorem yields_minting {α : Type} {f : IssuedToken → Action (Except AuthError α)}
    {post : Except Fault (Except AuthError α) → World Memory → Prop}
    (rest : ∀ issued w', w.Leaves w.cache w' →
      s.Makes w w' [⟨issued.token, kind, subject, sessionId?, now⟩] → (f issued).Yields w' post)
    (fails : ∀ e w', w.Leaves w.cache w' → post (.ok (.error e)) w') :
    (do match ← s.mint kind subject sessionId? now with
      | .error e => return .error e
      | .ok issued => f issued : Action (Except AuthError α)).Yields w post := by
  refine Yields.bind _ (yields_mint.and yields_mint_makes) ?_ ?_
  · rintro x w' ⟨_, leaves, makes⟩
    cases x with
    | error e => exact Yields.done (fails e w' leaves)
    | ok issued => exact rest issued w' leaves (makes issued rfl)
  · rintro e w' ⟨impossible, _⟩
    cases impossible

/-- Drawing a text, and what is done with it. -/
theorem yields_drawing {α : Type} {count : Nat} {f : String → Action (Except AuthError α)}
    {post : Except Fault (Except AuthError α) → World Memory → Prop}
    (rest : ∀ text w', w.Leaves w.cache w' → w.Draws w' → (f text).Yields w' post)
    (fails : ∀ e w', w.Leaves w.cache w' → post (.ok (.error e)) w') :
    (do match ← RandomText.draw count with
      | .error e => return .error (.crypto e)
      | .ok text => f text : Action (Except AuthError α)).Yields w post := by
  refine Yields.bind _ yields_draw.drawing ?_ ?_
  · rintro x w' ⟨⟨_, _, leaves⟩, drawing⟩
    cases x with
    | error e => exact Yields.done (fails _ w' leaves)
    | ok text => exact rest text w' leaves drawing
  · rintro e w' ⟨⟨_, impossible, _⟩, _⟩
    cases impossible

/-- Issuing a token for the time that the clock reads makes it. -/
theorem yields_issueNow_makes :
    (do s.mint kind subject sessionId? (← Action.now) : Action (Except AuthError IssuedToken)).Yields w
      fun r w' => w.Leaves w.cache w' ∧ ∀ issued, r = .ok (.ok issued) →
        s.Makes w w' [⟨issued.token, kind, subject, sessionId?, w.clock w.now⟩] :=
  Yields.ask yields_mint_makes

/-- Issuing a refresh token makes it, for a new session. -/
theorem yields_issueRefreshToken_makes : (s.issueRefreshToken subject).Yields w fun r w' =>
    ∀ issued, r = .ok (.ok issued) → w.Leaves w.cache w' ∧ ∃ sessionId,
      s.Makes w w' [⟨issued.token, .refresh, subject, some sessionId, w.clock w.now⟩] := by
  unfold issueRefreshToken
  refine yields_drawing ?_ fun _ _ _ _ impossible => by cases impossible
  intro sessionId w₁ leaves drawing
  refine yields_issueNow_makes.mono ?_
  rintro r w' ⟨still, makes⟩ issued same
  have makes := makes issued same
  rw [leaves.now, leaves.clock] at makes
  exact ⟨leaves.still still, sessionId, makes.before drawing⟩

theorem yields_issue_makes : (s.issue subject).Yields w fun r w' =>
    ∀ pair, r = .ok (.ok pair) → w.Leaves w.cache w' ∧ s.Makes w w'
      [⟨pair.refreshToken, .refresh, subject, some pair.sessionId, w.clock w.now⟩,
        ⟨pair.accessToken, .access, subject, some pair.sessionId, w.clock w.now⟩] := by
  unfold issue
  refine yields_drawing ?_ fun _ _ _ _ impossible => by cases impossible
  intro sessionId w₁ leaves drawing
  refine Yields.ask ?_
  rw [← leaves.now, ← leaves.clock]
  refine yields_minting ?_ fun _ _ _ _ impossible => by cases impossible
  intro access w₂ leaves₂ first
  refine yields_minting ?_ fun _ _ _ _ impossible => by cases impossible
  intro refresh w₃ leaves₃ second
  refine Yields.done ?_
  rintro _ ⟨⟩
  exact ⟨(leaves.still leaves₂).still leaves₃, (first.append second).before drawing⟩

/-! ### Refreshing -/

variable {request : RequestContext} {token : String} {expected : TokenKind} {c : Credential}

/-- Whether a request is turned away depends on the cache, and does not change it. -/
theorem yields_isTurnedAway : (s.isTurnedAway request).Yields w w.Idles := by
  unfold isTurnedAway
  cases s.throttled? request with
  | none => exact Yields.done ⟨_, rfl, w.leaves_self⟩
  | some applies =>
      obtain ⟨throttle, client⟩ := applies
      exact Throttle.yields_turnsAway.mono fun r w' gives => ⟨_, gives⟩

/-- Counting a verdict leaves the cache as it is, unless it is a rejection. -/
theorem yields_observe_accepted {verdict : Verdict} :
    (s.observe request expected verdict).Yields w fun _ w' =>
      verdict.isAccepted = true → w.Leaves w.cache w' := by
  have counted := w.leaves_self.answer (q := .count (.verification expected verdict.reason?))
    fun _ impossible => by cases impossible
  refine Yields.ask ?_
  split
  · rename_i suspicious
    have rejected : verdict.isAccepted ≠ true := by
      intro accepted
      cases verdict with
      | accepted c => cases suspicious
      | rejected reason stage => cases accepted
    split
    · rename_i throttle client _
      have recorded {w : World Memory} : (throttle.recordFailure client).Yields w fun _ _ => True := by
        refine Yields.bind (fun _ _ => True) ?_ ?_ fun _ _ _ => trivial
        · exact Yields.withTimeoutOr (Yields.cache (fun _ _ _ => trivial) fun _ _ => trivial)
        · intro x w' _
          split
          · exact Yields.done trivial
          · exact Yields.done trivial
      refine Yields.bind _ recorded ?_ ?_
      · exact fun _ w' _ => Yields.done fun accepted => absurd accepted rejected
      · exact fun _ w' _ accepted => absurd accepted rejected
    · exact Yields.done fun _ => counted
  · exact Yields.done fun _ => counted

/-- A token that is accepted is one on which this is the verdict. -/
theorem Judges.accepted {away : Bool} (judges : s.Judges w token expected away (.accepted c)) :
    s.verdictOn w token expected = .accepted c := by
  generalize given : Verdict.accepted c = verdict at judges
  cases judges with
  | turnedAway => cases given
  | judged => rfl
  | refused _ => cases given

/-- A token that is accepted, under whatever throttle and behind any breaker, is one on which this is the
verdict. -/
theorem yields_verifyFor_accepted : (s.verifyFor request token expected).Yields w fun r w' =>
    ∀ c, r = .ok (.accepted c) → s.verdictOn w token expected = .accepted c ∧ w.Leaves w.cache w' := by
  have turned : (s.isTurnedAway request).Yields w w.Idles := yields_isTurnedAway
  obtain ⟨away, turned⟩ := turned.choose
  unfold verifyFor
  refine Yields.bind _ (yields_judge turned) ?_ ?_
  · rintro _ w₁ ⟨verdict, judges, same, leaves⟩
    cases same
    refine Yields.bind _ yields_observe_accepted ?_ fun e w' _ c impossible => by cases impossible
    intro _ w' observed
    refine Yields.done ?_
    rintro c same
    cases Except.ok.inj same
    refine ⟨?_, leaves.still (observed rfl)⟩
    exact judges.accepted
  · rintro e w' ⟨_, _, impossible, _⟩
    cases impossible

/-- What an exchange leaves in the cache. -/
def Spends (s : TokenService) (c : Credential) (w w' : World Memory) : Prop :=
  if s.policy.rotateRefreshTokens then s.Stores c w true w' else w.Leaves w.cache w'

/-- The tokens for which the token of a credential is exchanged. -/
def MadeToken.exchanged (c : Credential) (reading : Int64) (tokens : RefreshedTokens) : List MadeToken :=
  ⟨tokens.accessToken, .access, subjectOf c, c.sessionId, reading⟩ ::
    (tokens.refreshToken.map fun token => ⟨token, .refresh, subjectOf c, c.sessionId, reading⟩).toList

/-- Making the successor of a refresh token makes it, once the one presented is revoked. -/
theorem yields_rotate_makes : (s.rotate c (w.clock w.now)).Yields w fun r w' =>
    ∀ issued, r = .ok (.ok issued) → s.Stores c w true w' ∧
      s.Makes w w' [⟨issued.token, .refresh, subjectOf c, c.sessionId, w.clock w.now⟩] := by
  unfold rotate
  refine yields_keeps ?_ fun f w' _ _ impossible => by cases impossible
  intro x w₁ keeps drawing
  cases keeps with
  | failed => exact Yields.done fun _ impossible => by cases impossible
  | refused => exact Yields.done fun _ impossible => by cases impossible
  | @kept stored _ stores =>
      cases stored with
      | false => exact Yields.done fun _ impossible => by cases impossible
      | true =>
          refine yields_mint_makes.mono ?_
          rintro r w' ⟨still, makes⟩ issued same
          exact ⟨stores.still still, (makes issued same).before drawing⟩

/-- An exchange makes an access token, and a successor of the refresh token where it is rotated. -/
theorem yields_exchange_makes : (s.exchange c).Yields w fun r w' => ∀ tokens, r = .ok (.ok tokens) →
    s.Spends c w w' ∧ s.Makes w w' (MadeToken.exchanged c (w.clock w.now) tokens) := by
  unfold exchange Spends
  refine Yields.ask ?_
  cases rotates : s.policy.rotateRefreshTokens with
  | false =>
      refine yields_minting ?_ fun e w' _ _ impossible => by cases impossible
      intro access w' leaves made
      refine Yields.done ?_
      rintro _ ⟨⟩
      exact ⟨leaves, made⟩
  | true =>
      simp only [if_true]
      refine Yields.bind _ yields_rotate_makes ?_ fun e w' _ _ impossible => by cases impossible
      intro x w₁ rotated
      cases x with
      | error e => exact Yields.done fun _ impossible => by cases impossible
      | ok successor =>
          obtain ⟨stores, first⟩ := rotated successor rfl
          refine yields_minting ?_ fun e w' _ _ impossible => by cases impossible
          intro access w' leaves second
          refine Yields.done ?_
          rintro _ ⟨⟩
          exact ⟨stores.still leaves, first.append second⟩

/-- What happens before an exchange does not matter, if it leaves the cache as it is. -/
theorem Spends.before (leaves : w.Leaves w.cache w') (spends : s.Spends c w' w'') : s.Spends c w w'' := by
  unfold Spends at spends ⊢
  split at spends
  · rw [if_pos ‹_›]
    exact spends.before leaves
  · rw [if_neg ‹_›]
    exact leaves.still spends

/-- A refresh has made new tokens for the credential of the one presented. -/
structure Exchanges (s : TokenService) (token : String) (w w' : World Memory) (tokens : RefreshedTokens)
    (c : Credential) : Prop where
  decodes : s.codec.decodeIgnoringExpiry s.keys token = .ok c
  spends : s.Spends c w w'
  makes : s.Makes w w' (MadeToken.exchanged c (w.clock w.now) tokens)

/-- What is drawn before does not matter. -/
theorem Exchanges.before {tokens : RefreshedTokens} (leaves : w.Leaves w.cache w') (drawing : w.Draws w')
    (exchanges : s.Exchanges token w' w'' tokens c) : s.Exchanges token w w'' tokens c := by
  obtain ⟨decodes, spends, makes⟩ := exchanges
  rw [leaves.now, leaves.clock] at makes
  exact ⟨decodes, spends.before leaves, makes.before drawing⟩

/-- A refresh that succeeds has exchanged the credential of its token. -/
theorem yields_refreshFor_makes : (s.refreshFor request token).Yields w fun r w' =>
    ∀ tokens, r = .ok (.ok tokens) → ∃ c, s.Exchanges token w w' tokens c := by
  unfold refreshFor
  refine Yields.bind _ yields_verifyFor_accepted.drawing ?_ fun e w' _ _ impossible => by cases impossible
  rintro verdict w₁ ⟨accepts, drawing⟩
  cases verdict with
  | rejected reason stage => exact Yields.done fun _ impossible => by cases impossible
  | accepted c =>
      obtain ⟨accepted, leaves⟩ := accepts c rfl
      obtain ⟨_, decodes, _⟩ := decodes_of_verdictOn accepted
      refine yields_exchange_makes.mono fun r w' exchanged tokens same => ?_
      obtain ⟨spends, makes⟩ := exchanged tokens same
      exact ⟨c, Exchanges.before leaves drawing ⟨decodes, spends, makes⟩⟩

/-- So does a refresh without a request. -/
theorem yields_refreshWith_makes {request : Option RequestContext} :
    (s.refreshWith request token).Yields w fun r w' =>
      ∀ tokens, r = .ok (.ok tokens) → ∃ c, s.Exchanges token w w' tokens c := by
  cases request with
  | some request => exact yields_refreshFor_makes
  | none =>
      refine yields_generate fun request w₁ _ leaves drawing => ?_
      refine yields_refreshFor_makes.mono fun r w' exchanged tokens same => ?_
      obtain ⟨c, exchanges⟩ := exchanged tokens same
      exact ⟨c, exchanges.before leaves drawing⟩

/-! ### Calls -/

/-- The tokens that a reply gives out, the last one made first. -/
def Reply.tokens : Reply → List String
  | .pair (.ok both) => [both.refreshToken, both.accessToken]
  | .issued (.ok one) => [one.token]
  | .refreshed (.ok tokens) => tokens.accessToken :: tokens.refreshToken.toList
  | _ => []

/-- The tokens that a call has given out, the last one made first. -/
def Visit.tokens (v : Visit) : List String := v.reply.toList.flatMap Reply.tokens

/-- Each token that a reply gives out has been made. -/
def MakesAll (s : TokenService) (w : World Memory) (r : Except Fault Reply) (w' : World Memory) : Prop :=
  ∀ reply, r = .ok reply → ∃ minted, minted.map MadeToken.token = reply.tokens ∧ s.Makes w w' minted

/-- A call that gives out the tokens that its action makes. -/
theorem yields_reply_makes {α : Type} {a : Action (Except AuthError α)} {reply : Except AuthError α → Reply}
    (makes : a.Yields w fun r w' => ∀ x, r = .ok (.ok x) →
      ∃ minted, minted.map MadeToken.token = (reply (.ok x)).tokens ∧ s.Makes w w' minted)
    (silent : ∀ e, (reply (.error e)).tokens = []) :
    (do return reply (← a) : Action Reply).Yields w (s.MakesAll w) := by
  refine yields_reply (makes.drawing.mono ?_)
  rintro (f | e | x) w' ⟨made, drawing⟩ _ ⟨⟩
  · exact ⟨[], (silent e).symm, .nothing drawing⟩
  · exact made x rfl

/-- A call that gives out no token. -/
theorem yields_silent {α : Type} {a : Action α} {reply : α → Reply}
    {post : Except Fault α → World Memory → Prop} (yields : a.Yields w post)
    (silent : ∀ x, (reply x).tokens = []) :
    (do return reply (← a) : Action Reply).Yields w (s.MakesAll w) := by
  refine yields_reply (yields.drawing.mono ?_)
  rintro (f | x) w' ⟨_, drawing⟩ _ ⟨⟩
  exact ⟨[], (silent x).symm, .nothing drawing⟩

/-- A call makes the tokens that it gives out. -/
theorem yields_call_makes {k : Call} : (k.action s).Yields w (s.MakesAll w) := by
  have issuing {kind : TokenKind} {subject : Subject} :
      (do return .issued (← (do s.mint kind subject none (← Action.now) : Action _)) : Action Reply).Yields w
        (s.MakesAll w) := by
    refine yields_reply_makes (yields_issueNow_makes.mono ?_) fun _ => rfl
    exact fun r w' made issued same => ⟨_, rfl, made.2 issued same⟩
  cases k with
  | issue subject =>
      refine yields_reply_makes (yields_issue_makes.mono ?_) fun _ => rfl
      exact fun r w' made pair same => ⟨_, rfl, (made pair same).2⟩
  | issueAccess subject => exact issuing
  | issueRefresh subject =>
      refine yields_reply_makes (yields_issueRefreshToken_makes.mono ?_) fun _ => rfl
      intro r w' made issued same
      obtain ⟨_, sessionId, makes⟩ := made issued same
      exact ⟨_, rfl, makes⟩
  | issueReset userId email => exact issuing
  | verify request token expected =>
      have verified : (s.verifyWith request token expected).Yields w fun _ _ => True := by
        cases request with
        | some request => exact yields_verifyFor_accepted.mono fun _ _ _ => trivial
        | none =>
            refine yields_generate fun request w' _ _ _ => ?_
            exact yields_verifyFor_accepted.mono fun _ _ _ => trivial
      exact yields_silent verified fun _ => rfl
  | refresh request token =>
      refine yields_reply_makes (yields_refreshWith_makes.mono ?_) fun _ => rfl
      intro r w' made tokens same
      obtain ⟨c, exchanges⟩ := made tokens same
      refine ⟨_, ?_, exchanges.makes⟩
      cases given : tokens.refreshToken <;> simp [MadeToken.exchanged, Reply.tokens, given]
  | revoke token reason => exact yields_silent yields_revoke fun _ => rfl
  | remove tokenId =>
      have removed : (s.store.remove tokenId).Yields w fun _ _ => True := by
        cases keyed : s.store.key tokenId with
        | error e => exact Revocation.Store.yields_onKey_invalid keyed trivial
        | ok k =>
            refine (Revocation.Store.yields_onKey_outcome keyed fun _ _ impossible => by
              cases impossible).mono fun _ _ _ => trivial
      exact yields_silent removed fun _ => rfl

/-- Calls that have all replied have made the tokens that they have given out. -/
theorem Visits.makes {w₀ : World Memory} {log : List Visit} (visits : s.Visits w₀ log w)
    (replied : ∀ v ∈ log, v.reply.isSome) :
    ∃ minted, minted.map MadeToken.token = log.flatMap Visit.tokens ∧ s.Makes w₀ w minted := by
  refine visits.keeps (P := fun log w => ∃ minted, minted.map MadeToken.token = log.flatMap Visit.tokens ∧
    s.Makes w₀ w minted) replied ⟨[], rfl, .nothing w₀.draws_self⟩ ?_ ?_
  · rintro log w k reply w' ⟨minted, given, makes⟩ runs
    obtain ⟨minted', given', makes'⟩ := yields_call_makes.of_run runs reply rfl
    refine ⟨minted' ++ minted, ?_, makes.append makes'⟩
    simp [given, given', Visit.tokens]
  · rintro log w span ⟨minted, given, makes⟩
    exact ⟨minted, given, makes.after ⟨rfl, Nat.le_refl _⟩⟩

/-! ### Identifiers -/

/-- The draws from the first one on to the last one give identifiers that differ. -/
def Distinct (source : Randomness) (first last : Nat) : Prop :=
  ∀ draw draw', first ≤ draw → draw < last → first ≤ draw' → draw' < last →
    idOf source draw = idOf source draw' → draw = draw'

/-- Tokens that have been made under one identifier are one, if the draws between which they were made
differ. -/
theorem eq_of_makes {minted : List MadeToken} {text : String} {c' : Credential} (makes : s.Makes w w' minted)
    (distinct : Distinct w.random w.draws w'.draws) (here : token ∈ minted.map MadeToken.token)
    (decodes : s.codec.decodeIgnoringExpiry s.keys token = .ok c)
    (there : text ∈ minted.map MadeToken.token)
    (decodes' : s.codec.decodeIgnoringExpiry s.keys text = .ok c') (same : c'.tokenId = c.tokenId) :
    text = token := by
  obtain ⟨made, rfl, born⟩ := makes.born
  simp only [List.map_map, List.mem_map, Function.comp_apply] at here there
  obtain ⟨p, mem, rfl⟩ := here
  obtain ⟨q, mem', rfl⟩ := there
  rw [Codec.eq_of_encode (born.encoded p mem) decodes, Codec.eq_of_encode (born.encoded q mem') decodes'] at same
  have drawn := born.drawn p mem
  have drawn' := born.drawn q mem'
  have equal := distinct q.2 p.2 drawn'.1 drawn'.2 drawn.1 drawn.2 same
  rw [List.inj_on_of_nodup_map born.apart mem' mem equal]

/-- Random identifiers have keys. -/
theorem key_idOf (store : Revocation.Store) {source : Randomness} {draw : Nat}
    (drawn : idOf source draw ≠ "") : ∃ k, store.key (idOf source draw) = .ok k := by
  have dark : (Base64.urlSafe.digits.all fun c => !Blank.isBlank c) = true := by decide +kernel
  have unblank : (idOf source draw).toList.any Blank.isBlank = false := by
    rw [List.any_eq_false]
    intro c mem
    rw [idOf, RandomText.ofOctets, String.toList_ofList] at mem
    simpa using List.all_eq_true.mp dark c (Base64.readable_urlSafe.mem_encode mem)
  have full : (idOf source draw).isEmpty = false := by
    rw [Bool.eq_false_iff, ne_eq, String.isEmpty_iff]
    exact drawn
  refine ⟨_, if_neg ?_⟩
  rw [full, unblank]
  exact Bool.false_ne_true

/-- So do the identifiers of tokens that have been made. -/
theorem key_of_makes {minted : List MadeToken} (makes : s.Makes w w' minted)
    (here : token ∈ minted.map MadeToken.token) (decodes : s.codec.decodeIgnoringExpiry s.keys token = .ok c) :
    ∃ k, s.store.key c.tokenId = .ok k := by
  obtain ⟨made, rfl, born⟩ := makes.born
  simp only [List.map_map, List.mem_map, Function.comp_apply] at here
  obtain ⟨p, mem, rfl⟩ := here
  obtain ⟨flawless, _⟩ := Codec.encode_eq_ok (born.encoded p mem)
  obtain ⟨_, named, _⟩ := Credential.flaw?_eq_none_iff.mp flawless
  rw [Codec.eq_of_encode (born.encoded p mem) decodes]
  exact key_idOf s.store named

/-- A token that was made at no negative time decodes at that time, and lasts. -/
theorem decode_made {codec : Codec} {keys : KeyMaterial} (agrees : keys.Agrees)
    (made : codec.encode keys c = .ok token) (nonneg : 0 ≤ c.issuedAt.toInt) :
    c.tokenId ≠ "" ∧ codec.decodeIgnoringExpiry keys token = .ok c ∧
      (0 ≤ codec.leeway.toInt → codec.decode keys token c.issuedAt = .ok c) := by
  obtain ⟨flawless, _⟩ := Codec.encode_eq_ok made
  obtain ⟨_, id, later⟩ := Credential.flaw?_eq_none_iff.mp flawless
  have decodes := Codec.decodeIgnoringExpiry_encode agrees made (by omega)
  refine ⟨id, decodes, fun leeway => Codec.decode_eq_ok_iff.mpr ⟨decodes, ?_, ?_⟩⟩
  · rw [Int64.lt_iff_toInt_lt, Seconds.plus, Seconds.toInt_nearest_eq]
    have most := c.issuedAt.toInt_lt
    have skew : Codec.futureSkew.toInt = 300 := rfl
    omega
  · rw [Int64.le_iff_toInt_le, Seconds.plus, Seconds.toInt_nearest_eq]
    have most := c.expiresAt.toInt_lt
    omega

end TokenService

/-! ### A token that is issued -/

namespace Sample

open TokenService TokenAuthority.Action

/-- A world in which each draw gives other octets. -/
def dealt : World Memory :=
  { world with random := ⟨fun draw count => (List.range count).map fun i => UInt8.ofNat (draw / 256 ^ i),
    fun _ => Binary64.ofNat 1⟩ }

def someone : Subject := ⟨"42", "a@b.com", ["admin"]⟩

/-- What the first token of a session says. -/
def firstCredential : Credential :=
  draft .refresh someone (some (RandomText.ofOctets (dealt.random.octets 0 sessionIdOctets))) 0 604800
    (idOf dealt.random 1)

def firstToken : String :=
  (service.codec.signed service.keys firstCredential (Base64.encode Base64.urlSafe
    (Digest.Hmac.code secret (service.codec.unsigned service.keys firstCredential).signedOctets))).text

/-- The world in which it has been issued. -/
def begun : World Memory := { dealt with draws := 2, counts := dealt.counts.record (.issued .refresh) }

/-- It, as it is given out. -/
def firstIssued : IssuedToken := ⟨firstToken, idOf dealt.random 1, .refresh, Seconds.plus 0 604800⟩

theorem firstToken_made : service.codec.encode service.keys firstCredential = .ok firstToken := by
  have flawless : firstCredential.flaw? = none := by decide +kernel
  rw [Codec.encode_of_flawless flawless]
  rfl

theorem answers_firstToken :
    (service.issueRefreshToken someone).answers? dealt = some (.ok firstIssued, begun) := by
  have lasts : service.lifetime .refresh = .ok 604800 := by decide +kernel
  have minted : (service.mint .refresh someone (some (RandomText.ofOctets
      (dealt.random.octets 0 sessionIdOctets))) 0).answers? { dealt with draws := 1 } = _ :=
    answers_mint lasts
  have made : service.codec.encode service.keys (draft .refresh someone
      (some (RandomText.ofOctets (dealt.random.octets 0 sessionIdOctets))) 0 604800 (idOf dealt.random 1)) =
      .ok firstToken := firstToken_made
  rw [made] at minted
  unfold issueRefreshToken
  rw [answers_bind (answers_draw (by decide))]
  exact minted

theorem matches_keys : service.keys.Matches := trivial

theorem firstToken_decodes :
    service.codec.decodeIgnoringExpiry service.keys firstToken = .ok firstCredential :=
  (decode_made matches_keys.agrees firstToken_made (by decide)).2.1

/-- The first draws give identifiers that differ. -/
theorem distinct_dealt {last : Nat} (few : last ≤ 4) : Distinct dealt.random 0 last := by
  have apart : ∀ draw < 4, ∀ draw' < 4, idOf dealt.random draw = idOf dealt.random draw' → draw = draw' := by
    decide +kernel
  exact fun draw draw' _ below _ below' =>
    apart draw (Nat.lt_of_lt_of_le below few) draw' (Nat.lt_of_lt_of_le below' few)

end Sample

end TokenAuthority
