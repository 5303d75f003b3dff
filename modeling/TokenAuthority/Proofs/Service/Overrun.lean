import TokenAuthority.Proofs.Service.Deadlines
import TokenAuthority.Proofs.Service.FixedWindow
import TokenAuthority.Proofs.Service.Issuing

/-!
# Calls that run over the end of the timer

Over a cache in memory every call replies, unless it has to keep something for so long that the end of it is
no instant of the timer. The check of settings does not look for that.

* `Cache.Memory.Overruns` — the end of a new entry would be no instant of the timer.
* `World.Returns` — an action ends with a value, or in an overrun where there is one.
* `TokenService.Call.Overruns` — a call has to keep such an entry, for a counter or for a token.
* `TokenService.returns_iff` — after any calls that have replied, a call replies exactly if it does not
  overrun, and it overruns only for the window of the throttle, or if the timer is ahead of the clock.
-/

namespace TokenAuthority

open Cache (Memory Request)

/-! ### The cache -/

namespace Cache.Memory

variable {m : Memory} {now : Instant} {key value : String} {ttl : Span}

/-- There is nothing under a key, and the end of what is kept there from now on would be no instant. -/
def Overruns (m : Memory) (now : Instant) (key : String) (ttl : Span) : Prop :=
  m.live? now key = none ∧ now.after? (Span.ofSecs ttl.lifetimeSecs) = none

/-- An entry cannot be stored exactly if it overruns. -/
theorem setIfAbsent_overruns :
    ¬ m.Overruns now key ttl ∧ (∃ a m', m.perform now (.setIfAbsent key value ttl) = .ok (a, m')) ∨
      m.Overruns now key ttl ∧ m.perform now (.setIfAbsent key value ttl) = .error .instantRange := by
  change ¬ _ ∧ (∃ a m', (m.setIfAbsent now key value ttl >>= fun r => pure (Except.ok r.1, r.2)) = _) ∨
    _ ∧ (m.setIfAbsent now key value ttl >>= fun r => pure (Except.ok r.1, r.2)) = _
  unfold Overruns setIfAbsent Entry.new?
  cases m.live? now key with
  | some e => exact .inl ⟨fun both => (by cases both.1), _, _, rfl⟩
  | none =>
      cases now.after? (Span.ofSecs ttl.lifetimeSecs) with
      | some t => exact .inl ⟨fun both => (by cases both.2), _, _, rfl⟩
      | none => exact .inr ⟨⟨rfl, rfl⟩, rfl⟩

/-- Nor can a counter be begun; one that is there can be incremented below the largest count. -/
theorem increment_overruns (window : Span)
    (below : (((m.live? now key).bind fun e => Integer.uint64? e.value).getD 0).toNat + 1 < 2 ^ 64) :
    ¬ m.Overruns now key window ∧ (∃ a m', m.perform now (.increment key window) = .ok (a, m')) ∨
      m.Overruns now key window ∧ m.perform now (.increment key window) = .error .instantRange := by
  change ¬ _ ∧ (∃ a m', m.increment now key window = _) ∨ _ ∧ m.increment now key window = _
  have counts {e : Entry} (counter : m.counter now key window = .ok e)
      (few : ((Integer.uint64? e.value).getD 0).toNat + 1 < 2 ^ 64) :
      ∃ a m', m.increment now key window = .ok (a, m') := by
    cases read : Integer.uint64? e.value with
    | none =>
        simp only [increment, counter, bind, Except.bind, read]
        exact ⟨_, _, rfl⟩
    | some n =>
        rw [read] at few
        exact ⟨_, _, increment_of_counter counter read few⟩
  unfold Overruns
  cases live : m.live? now key with
  | some e =>
      rw [live] at below
      refine .inl ⟨fun both => (by cases both.1), counts (e := e) ?_ below⟩
      rw [counter, live]
  | none =>
      cases ends : now.after? (Span.ofSecs window.lifetimeSecs) with
      | some t =>
          refine .inl ⟨fun both => (by cases both.2), counts (e := ⟨"0", t⟩) ?_ ?_⟩
          · rw [counter, live, Entry.new?, ends]
            rfl
          · change ((Integer.uint64? "0").getD 0).toNat + 1 < 2 ^ 64
            decide
      | none =>
          refine .inr ⟨⟨rfl, rfl⟩, ?_⟩
          rw [increment, counter, live, Entry.new?, ends]
          rfl

end Cache.Memory

/-! ### Actions -/

/-- An action ends in an overrun if there is one. Otherwise it ends with a value, and what it gives and
leaves in the cache is known; nothing else has changed that matters. -/
inductive World.Returns {α : Type} (w : World Memory) (overruns : Prop) (given : α → Memory → Prop) :
    Except Fault α → World Memory → Prop where
  | value {x : α} {m : Memory} {w' : World Memory} :
      ¬ overruns → given x m → w.Leaves m w' → Returns w overruns given (.ok x) w'
  | overran {w' : World Memory} : overruns → Returns w overruns given (.error .instantRange) w'

/-- Nothing is known of what is given. -/
def World.Replies {α : Type} (w : World Memory) (overruns : Prop) :
    Except Fault α → World Memory → Prop :=
  w.Returns overruns fun _ _ => True

section Returns

open TokenAuthority.Action

variable {α β : Type} {w w' : World Memory} {overruns : Prop} {given : α → Memory → Prop}
  {given' : β → Memory → Prop} {m : Memory}

theorem World.Returns.mono {r : Except Fault α} {given₁ : α → Memory → Prop}
    (returns : w.Returns overruns given r w') (weaker : ∀ x m, given x m → given₁ x m) :
    w.Returns overruns given₁ r w' := by
  cases returns with
  | value fine gives leaves => exact .value fine (weaker _ _ gives) leaves
  | overran overruns => exact .overran overruns

/-- What was there before does not matter, if only the cache has changed. -/
theorem World.Returns.before {r : Except Fault α} {w'' : World Memory} (leaves : w.Leaves m w')
    (returns : w'.Returns overruns given r w'') : w.Returns overruns given r w'' := by
  cases returns with
  | value fine gives leaves' => exact .value fine gives (leaves.trans leaves')
  | overran overruns => exact .overran overruns

/-- One action after another, begun in a world and carried on in the next one. -/
theorem Action.Yields.andThen {a : Action α} {f : α → Action β} {overruns' : Prop}
    (first : a.Yields w' (w.Returns overruns' given)) (worse : overruns' → overruns)
    (rest : ∀ x m w', ¬ overruns' → given x m → w.Leaves m w' →
      (f x).Yields w' (w.Returns overruns given')) :
    (a >>= f).Yields w' (w.Returns overruns given') := by
  apply Yields.bind _ first
  · intro x w' returns
    cases returns with
    | value fine gives leaves => exact rest x _ w' fine gives leaves
  · intro e w'' returns
    cases returns with
    | overran overruns' => exact .overran (worse overruns')

/-- What leaves the cache as it is does not overrun. -/
theorem Action.Yields.replies_of_idles {a : Action α} (idles : a.Yields w w.Idles) (fine : ¬ overruns) :
    a.Yields w (w.Replies overruns) := by
  apply idles.mono
  rintro r w' ⟨x, rfl, leaves⟩
  exact .value fine trivial leaves

end Returns

/-! ### Tokens that are revoked -/

namespace Revocation.Store

open TokenAuthority.Action

variable {s : Store} {w : World Memory} {e : Entry}

/-- Keeping an entry would overrun. -/
def Overruns (s : Store) (w : World Memory) (e : Entry) : Prop :=
  ∃ k, s.key e.tokenId = .ok k ∧ w.cache.Overruns w.now k e.ttl

/-- Keeping an entry is answered unless it overruns. -/
theorem replies_revokeEntry (closed : w.breaker.state = .initial) :
    (s.revokeEntry e).Yields w (w.Replies (s.Overruns w e)) := by
  have kept : (s.onKey .revoke e.tokenId (.setIfAbsent · e.text e.ttl) fun _ stored => .ok stored).Yields w
      (w.Replies (s.Overruns w e)) := by
    cases keyed : s.key e.tokenId with
    | error e' =>
        apply yields_onKey_invalid keyed
        refine .value ?_ trivial w.leaves_self
        simp [Overruns, keyed]
    | ok k =>
        have overruns_iff : s.Overruns w e ↔ w.cache.Overruns w.now k e.ttl := by
          simp [Overruns, keyed]
        rw [overruns_iff]
        apply (yields_onKey closed keyed fun _ _ impossible => by cases impossible).mono
        rintro r w' (⟨performs, leaves⟩ | ⟨fails, _⟩)
        · rcases Memory.setIfAbsent_overruns with ⟨fine, _⟩ | ⟨_, fails⟩
          · exact .value fine trivial leaves
          · cases performs.symm.trans fails
        · rcases Memory.setIfAbsent_overruns with ⟨_, a, m', performs⟩ | ⟨overruns, fails'⟩
          · cases fails.symm.trans performs
          · cases fails.symm.trans fails'
            exact .overran overruns
  unfold revokeEntry
  apply kept.andThen id
  intro outcome m w' fine _ leaves
  split
  · apply Yields.ask
    exact Yields.done (.value fine trivial (leaves.answer fun _ impossible => by cases impossible))
  · exact Yields.done (.value fine trivial leaves)

end Revocation.Store

namespace TokenService

open TokenAuthority.Action

variable {s : TokenService} {w w₀ : World Memory} {c : Credential} {reason : Revocation.Reason}
  {request : RequestContext} {token : String} {expected : TokenKind} {verdict : Verdict}

/-- Revoking a credential now would overrun. -/
def EntryOverruns (s : TokenService) (w : World Memory) (c : Credential) (reason : Revocation.Reason) :
    Prop :=
  ∃ ttl, s.revocationTtl? c (w.clock w.now) = some ttl ∧
    s.store.Overruns w (entryFor c (w.clock w.now) ttl reason)

/-- What is left of a credential fits a word, at times that are not negative. -/
theorem lasts_of_nonneg {now : Int64} (expiry : ¬ c.expiresAt < 0) (reads : 0 ≤ now.toInt) :
    ∃ ttl, s.revocationTtl? c now = some ttl := by
  have low : 0 ≤ c.expiresAt.toInt := by
    simpa [Int64.lt_iff_toInt_lt] using expiry
  have high := c.expiresAt.toInt_lt
  have bound := now.toInt_lt
  have fits : (Int64.ofInt (c.expiresAt.toInt - now.toInt)).toInt = c.expiresAt.toInt - now.toInt :=
    Int64.toInt_ofInt_of_le (by omega) (by omega)
  unfold revocationTtl? Credential.remaining? Seconds.ofInt?
  rw [if_pos fits]
  exact ⟨_, rfl⟩

/-- Revoking a credential, and what is done then. -/
theorem replies_kept {α : Type} {next : Except Revocation.Error Bool → Action α}
    (closed : w.breaker.state = .initial) (expiry : ¬ c.expiresAt < 0)
    (reads : 0 ≤ (w.clock w.now).toInt)
    (rest : ∀ x m w', ¬ s.EntryOverruns w c reason → w.Leaves m w' →
      (next x).Yields w' (w.Replies (s.EntryOverruns w c reason))) :
    (do next (← s.store.revokeEntry (← s.revocationEntry c (w.clock w.now) reason))).Yields w
      (w.Replies (s.EntryOverruns w c reason)) := by
  obtain ⟨ttl, lasts⟩ := lasts_of_nonneg (s := s) expiry reads
  have overruns_iff : s.EntryOverruns w c reason ↔
      s.store.Overruns w (entryFor c (w.clock w.now) ttl reason) := by
    simp [EntryOverruns, lasts]
  have kept := Revocation.Store.replies_revokeEntry (s := s.store) (w := w)
    (e := entryFor c (w.clock w.now) ttl reason) closed
  rw [← overruns_iff] at kept
  unfold revocationEntry
  rw [lasts]
  apply Yields.andThen kept id
  intro x m w' fine _ leaves
  exact rest x m w' fine leaves

theorem replies_mint {kind : TokenKind} {subject : Subject} {sessionId : Option String} {now : Int64}
    {overruns : Prop} (fine : ¬ overruns) :
    (s.mint kind subject sessionId now).Yields w (w.Replies overruns) :=
  Yields.replies_of_idles (yields_mint.mono fun _ _ issues => issues.idles) fine

/-- Exchanging a credential replies, unless it is to be revoked for that and overruns. -/
theorem replies_exchange (closed : w.breaker.state = .initial) (expiry : ¬ c.expiresAt < 0)
    (reads : 0 ≤ (w.clock w.now).toInt) :
    (s.exchange c).Yields w
      (w.Replies (s.policy.rotateRefreshTokens = true ∧ s.EntryOverruns w c .refreshRotated)) := by
  have access {w' w'' : World Memory} {m : Memory} {overruns : Prop}
      {r : Except Fault (Except AuthError RefreshedTokens)} (fine : ¬ overruns) (leaves : w.Leaves m w')
      (issues : Issues w' r w'') : w.Replies overruns r w'' := by
    obtain ⟨x, rfl, leaves'⟩ := issues.idles
    exact .value fine trivial (leaves.still leaves')
  unfold exchange
  apply Yields.ask
  cases rotates : s.policy.rotateRefreshTokens with
  | false =>
      apply yields_access.mono
      exact fun r w' => access (fun both => by cases both.1) w.leaves_self
  | true =>
      simp only [if_true, true_and]
      have rotated : (s.rotate c (w.clock w.now)).Yields w
          (w.Replies (s.EntryOverruns w c .refreshRotated)) := by
        unfold rotate
        apply replies_kept closed expiry reads
        intro x m w' fine leaves
        rcases x with _ | _ | _
        · exact Yields.done (.value fine trivial leaves)
        · exact Yields.done (.value fine trivial leaves)
        · exact (replies_mint fine).mono fun r w'' replies => replies.before leaves
      apply Yields.andThen rotated id
      intro x m w' fine _ leaves
      cases x with
      | error e => exact Yields.done (.value fine trivial leaves)
      | ok issued => exact yields_access.mono fun r w'' => access fine leaves

/-! ### Verifying and refreshing -/

/-- A throttle that applies to a request is that of the service. -/
theorem has_of_throttled {t : Throttle} {client : String} (found : s.throttled? request = some (t, client)) :
    s.throttle = some t := by
  unfold throttled? at found
  split at found
  · rename_i has _
    cases found
    exact has
  · cases found

def turnsAway (s : TokenService) (w : World Memory) (request : RequestContext) : Bool :=
  match s.throttled? request with
  | some (t, client) => decide (t.maxFailures ≤ t.count w client)
  | none => false

/-- The verdict that a request gets. -/
def verdictTo (s : TokenService) (w : World Memory) (request : RequestContext) (token : String)
    (expected : TokenKind) : Verdict :=
  if s.turnsAway w request then .rejected .rateLimited .received else s.verdictOn w token expected

/-- The verdict is held against a client for whom no window is open, and a new one would overrun. -/
def CounterOverruns (s : TokenService) (w : World Memory) (request : RequestContext) (verdict : Verdict) :
    Prop :=
  verdict.isSuspicious = true ∧ ∃ t client, s.throttled? request = some (t, client) ∧
    w.cache.Overruns w.now (t.key client) t.window

/-- A refresh overruns in its verification, or in the revocation of the token that is exchanged. -/
def RefreshOverruns (s : TokenService) (w : World Memory) (request : RequestContext) (token : String) :
    Prop :=
  s.CounterOverruns w request (s.verdictOn w token .refresh) ∨
    s.policy.rotateRefreshTokens = true ∧
      ∃ c, s.verdictTo w request token .refresh = .accepted c ∧ s.EntryOverruns w c .refreshRotated

section Leaves

variable {w' : World Memory} (leaves : w.Leaves w.cache w')

include leaves

theorem verdictTo_of_leaves : s.verdictTo w' request token expected = s.verdictTo w request token expected := by
  unfold verdictTo turnsAway Throttle.count
  rw [verdictOn_of_leaves leaves, leaves.now, leaves.cache]

theorem counterOverruns_of_leaves :
    s.CounterOverruns w' request verdict ↔ s.CounterOverruns w request verdict := by
  unfold CounterOverruns
  rw [leaves.now, leaves.cache]

theorem entryOverruns_of_leaves : s.EntryOverruns w' c reason ↔ s.EntryOverruns w c reason := by
  unfold EntryOverruns Revocation.Store.Overruns
  rw [leaves.now, leaves.clock, leaves.cache]

theorem refreshOverruns_of_leaves :
    s.RefreshOverruns w' request token ↔ s.RefreshOverruns w request token := by
  unfold RefreshOverruns
  simp only [verdictOn_of_leaves leaves, verdictTo_of_leaves leaves, counterOverruns_of_leaves leaves,
    entryOverruns_of_leaves leaves]

end Leaves

/-- Recording a failure replies unless a new window would overrun. -/
theorem replies_recordFailure {t : Throttle} {client : String}
    (below : (t.count w client).toNat + 1 < 2 ^ 64) : (t.recordFailure client).Yields w
      (w.Replies (w.cache.Overruns w.now (t.key client) t.window)) := by
  have counted : (Throttle.onCounter (.increment (t.key client) t.window)).Yields w
      (w.Replies (w.cache.Overruns w.now (t.key client) t.window)) := by
    apply Yields.withTimeoutOr
    rcases Memory.increment_overruns t.window below with ⟨fine, a, m, performs⟩ | ⟨overruns, fails⟩
    · apply Yields.cache
      · intro a' m' _
        exact .value fine trivial ⟨rfl, rfl, id, rfl⟩
      · intro e fails
        cases performs.symm.trans fails
    · apply Yields.cache
      · intro a m performs
        cases fails.symm.trans performs
      · intro e fails'
        cases fails.symm.trans fails'
        exact .overran overruns
  unfold Throttle.recordFailure
  apply counted.andThen id
  intro x m w' fine _ leaves
  cases x <;> exact Yields.done (.value fine trivial leaves)

/-- Counting a verdict replies unless a new window would overrun, and writes only if it is suspicious. -/
theorem returns_observe (room : verdict.isSuspicious = true → s.turnsAway w request = false) :
    (s.observe request expected verdict).Yields w (w.Returns (s.CounterOverruns w request verdict)
      fun _ m => verdict.isSuspicious = false → m = w.cache) := by
  have asked : w.Leaves w.cache (w.answer (.count (.verification expected verdict.reason?))).2 :=
    w.leaves_self.answer fun _ impossible => by cases impossible
  unfold observe
  apply Yields.ask
  change (if verdict.isSuspicious = true then _ else _ : Action Unit).Yields _ _
  cases suspicious : verdict.isSuspicious with
  | false =>
      refine Yields.done (.value ?_ (fun _ => rfl) asked)
      simp [CounterOverruns, suspicious]
  | true =>
      rw [if_pos rfl]
      match found : s.throttled? request with
      | none =>
          refine Yields.done (.value ?_ (fun impossible => by cases impossible) asked)
          simp [CounterOverruns, found]
      | some (t, client) =>
          have below : (t.count w client).toNat + 1 < 2 ^ 64 := by
            have room := room suspicious
            rw [turnsAway, found, decide_eq_false_iff_not, UInt64.le_iff_toNat_le] at room
            have := t.maxFailures.toNat_lt
            omega
          have recorded := replies_recordFailure
            (w := (w.answer (.count (.verification expected verdict.reason?))).2) below
          have overruns_iff : s.CounterOverruns w request verdict ↔
              w.cache.Overruns w.now (t.key client) t.window := by
            simp [CounterOverruns, suspicious, found]
          apply (recorded.mono fun r w' replies => replies.before asked).andThen overruns_iff.mpr
          intro x m w' fine _ leaves
          exact Yields.done (.value (fun overruns => fine (overruns_iff.mp overruns))
            (fun impossible => by cases impossible) leaves)

/-- Every throttle has a limit, as the check of settings asks for. -/
def HasLimits (s : TokenService) : Prop := ∀ t, s.throttle = some t → t.maxFailures ≠ 0

/-- A client for whom no window is open is not turned away then. -/
theorem counterOverruns_verdictTo (limits : s.HasLimits) :
    s.CounterOverruns w request (s.verdictTo w request token expected) ↔
      s.CounterOverruns w request (s.verdictOn w token expected) := by
  unfold verdictTo
  cases turned : s.turnsAway w request with
  | false => exact Iff.rfl
  | true =>
      constructor
      · rintro ⟨impossible, _⟩
        cases impossible
      · rintro ⟨_, t, client, found, closed, _⟩
        simp only [turnsAway, found, Throttle.count, closed, Option.bind_none, decide_eq_true_iff] at turned
        exact absurd (UInt64.le_zero_iff.mp turned) (limits t (has_of_throttled found))

/-- A verification gives its verdict, unless counting it overruns. -/
theorem returns_verifyFor (limits : s.HasLimits) (closed : w.breaker.state = .initial) :
    (s.verifyFor request token expected).Yields w
      (w.Returns (s.CounterOverruns w request (s.verdictOn w token expected)) fun v m =>
        v = s.verdictTo w request token expected ∧ (v.isSuspicious = false → m = w.cache)) := by
  rw [← counterOverruns_verdictTo limits]
  have turned : (s.isTurnedAway request).Yields w (w.Gives (s.turnsAway w request)) := by
    unfold isTurnedAway turnsAway
    match s.throttled? request with
    | none => exact Yields.done ⟨rfl, w.leaves_self⟩
    | some (t, client) => exact Throttle.yields_turnsAway
  have room : (s.verdictTo w request token expected).isSuspicious = true →
      s.turnsAway w request = false := by
    unfold verdictTo
    cases s.turnsAway w request with
    | true => exact fun impossible => by cases impossible
    | false => exact fun _ => rfl
  unfold verifyFor
  have judged : (s.judge request token expected).Yields w
      (w.Gives (s.verdictTo w request token expected)) := by
    refine (yields_judge turned).mono ?_
    rintro r w' ⟨verdict, judges, gives⟩
    rw [judges.eq closed] at gives
    exact gives
  apply Yields.bind _ judged
  · rintro _ w' ⟨same, leaves⟩
    cases same
    have same : s.turnsAway w' request = s.turnsAway w request := by
      unfold turnsAway Throttle.count
      rw [leaves.now, leaves.cache]
    have observed : (s.observe request expected (s.verdictTo w request token expected)).Yields w' _ :=
      returns_observe (by rwa [same])
    rw [counterOverruns_of_leaves leaves] at observed
    have counted := observed.mono fun r w'' returns => returns.before leaves
    apply counted.andThen id
    intro _ m w'' fine writes leaves'
    exact Yields.done (.value fine ⟨rfl, fun harmless => (writes harmless).trans leaves.cache⟩ leaves')
  · rintro e w' ⟨impossible, _⟩
    cases impossible

/-- What is known of a token that a request is told to be accepted. -/
theorem decodes_of_verdictTo (accepted : s.verdictTo w request token expected = .accepted c) :
    s.codec.decodeIgnoringExpiry s.keys token = .ok c := by
  unfold verdictTo at accepted
  split at accepted
  · cases accepted
  · obtain ⟨_, decodes, _⟩ := decodes_of_verdictOn accepted
    exact decodes

theorem replies_refreshFor (limits : s.HasLimits) (closed : w.breaker.state = .initial)
    (reads : 0 ≤ (w.clock w.now).toInt) : (s.refreshFor request token).Yields w
      (w.Replies (s.RefreshOverruns w request token)) := by
  unfold refreshFor
  apply (returns_verifyFor limits closed).andThen .inl
  rintro v m w' fine ⟨rfl, writes⟩ leaves
  cases verdict : s.verdictTo w request token .refresh with
  | rejected reason stage =>
      refine Yields.done (.value ?_ trivial leaves)
      simp [RefreshOverruns, fine, verdict]
  | accepted c =>
      have kept : m = w.cache := writes (by rw [verdict]; rfl)
      subst kept
      have overruns_iff : s.RefreshOverruns w request token ↔
          s.policy.rotateRefreshTokens = true ∧ s.EntryOverruns w c .refreshRotated := by
        simp [RefreshOverruns, fine, verdict]
      have exchanged := replies_exchange (s := s) (w := w') (c := c) (leaves.closed closed)
        (Codec.decodeIgnoringExpiry_eq_ok (decodes_of_verdictTo verdict)).1
        (by rwa [leaves.clock, leaves.now])
      rw [entryOverruns_of_leaves leaves, ← overruns_iff] at exchanged
      exact exchanged.mono fun r w'' replies => replies.before leaves

/-! ### Calls -/

/-- What is taken for the request where there is none: nobody is throttled for it. -/
def anonymous : RequestContext := ⟨"", none⟩

/-- A call has to keep a counter or a revoked token beyond the end of the timer. -/
def Call.Overruns (s : TokenService) (w : World Memory) : Call → Prop
  | .verify request token expected =>
    s.CounterOverruns w (request.getD anonymous) (s.verdictOn w token expected)
  | .refresh request token => s.RefreshOverruns w (request.getD anonymous) token
  | .revoke token reason =>
    ∃ c, s.codec.decodeIgnoringExpiry s.keys token = .ok c ∧ s.EntryOverruns w c reason
  | _ => False

/-- What an action replies, the call with its value does. -/
theorem replies_reply {α : Type} {a : Action α} {reply : α → Reply} {overruns : Prop}
    (replies : a.Yields w (w.Replies overruns)) :
    (do return reply (← a) : Action Reply).Yields w (w.Replies overruns) := by
  apply replies.andThen id
  exact fun x m w' fine _ leaves => Yields.done (.value fine trivial leaves)

theorem replies_revoke (closed : w.breaker.state = .initial) (reads : 0 ≤ (w.clock w.now).toInt) :
    (s.revoke token reason).Yields w (w.Replies ((Call.revoke token reason).Overruns s w)) := by
  unfold revoke
  cases decoded : s.codec.decodeIgnoringExpiry s.keys token with
  | error e =>
      refine Yields.done (.value ?_ trivial w.leaves_self)
      simp [Call.Overruns, decoded]
  | ok c =>
      have overruns_iff : (Call.revoke token reason).Overruns s w ↔ s.EntryOverruns w c reason := by
        simp [Call.Overruns, decoded]
      rw [overruns_iff]
      apply Yields.ask
      apply replies_kept closed (Codec.decodeIgnoringExpiry_eq_ok decoded).1 reads
      intro x m w' fine leaves
      cases x <;> exact Yields.done (.value fine trivial leaves)

theorem replies_call {k : Call} (limits : s.HasLimits) (closed : w.breaker.state = .initial)
    (reads : 0 ≤ (w.clock w.now).toInt) :
    (k.action s).Yields w (w.Replies (k.Overruns s w)) := by
  cases k with
  | issue subject => exact replies_reply (Yields.replies_of_idles yields_issue id)
  | issueAccess subject => exact replies_reply (Yields.replies_of_idles yields_issueNow id)
  | issueRefresh subject => exact replies_reply (Yields.replies_of_idles yields_issueRefreshToken id)
  | issueReset userId email => exact replies_reply (Yields.replies_of_idles yields_issueNow id)
  | verify request token expected =>
      apply replies_reply
      cases request with
      | some request =>
          exact (returns_verifyFor limits closed).mono fun r w' returns => returns.mono fun _ _ _ => trivial
      | none =>
          apply yields_generate
          rintro ⟨requestId, _⟩ w' ⟨⟩ leaves _
          have verified : (s.verifyFor ⟨requestId, none⟩ token expected).Yields w' _ :=
            returns_verifyFor limits (leaves.closed closed)
          rw [verdictOn_of_leaves leaves, counterOverruns_of_leaves leaves] at verified
          exact verified.mono fun r w'' returns => (returns.before leaves).mono fun _ _ _ => trivial
  | refresh request token =>
      apply replies_reply
      cases request with
      | some request => exact replies_refreshFor limits closed reads
      | none =>
          apply yields_generate
          rintro ⟨requestId, _⟩ w' ⟨⟩ leaves _
          have refreshed : (s.refreshFor ⟨requestId, none⟩ token).Yields w' _ :=
            replies_refreshFor limits (leaves.closed closed) (by rwa [leaves.clock, leaves.now])
          rw [refreshOverruns_of_leaves leaves] at refreshed
          exact refreshed.mono fun r w'' replies => replies.before leaves
  | revoke token reason => exact replies_reply (replies_revoke closed reads)
  | remove tokenId =>
      apply replies_reply
      cases keyed : s.store.key tokenId with
      | error e => exact Revocation.Store.yields_onKey_invalid keyed (.value id trivial w.leaves_self)
      | ok k =>
          apply (Revocation.Store.yields_remove closed keyed).mono
          rintro r w' ⟨rfl, leaves⟩
          exact .value id trivial leaves

/-! ### Why a call overruns -/

theorem le_of_after?_eq_none {now : Instant} {seconds : Nat}
    (none : now.after? (Span.ofSecs seconds) = none) : 2 ^ 63 - 1 ≤ now.secs + seconds := by
  unfold Instant.after? at none
  split at none
  · cases none
  · rename_i far
    rw [Span.ofSecs, Nat.add_mul_div_left _ _ (by decide)] at far
    exact Nat.le_of_not_lt far

/-- An entry is kept until the last second of the clock at most, so it overruns only where the timer is
ahead of the clock. -/
theorem EntryOverruns.ahead (overruns : s.EntryOverruns w c reason)
    (reads : 0 ≤ (w.clock w.now).toInt) (early : (w.clock w.now).toInt ≤ 253402300799) :
    (w.clock w.now).toInt ≤ w.now.secs := by
  obtain ⟨ttl, _, k, _, _, far⟩ := overruns
  have late := le_of_after?_eq_none far
  have kept := lifetimeSecs_entryFor c (w.clock w.now) ttl reason
  omega

/-- A call overruns only for the window of the throttle, or if the timer is ahead of the clock. -/
theorem Call.Overruns.cause {k : Call} (overruns : k.Overruns s w) (reads : 0 ≤ (w.clock w.now).toInt)
    (early : (w.clock w.now).toInt ≤ 253402300799) :
    (∃ t, s.throttle = some t ∧ 2 ^ 63 - 1 ≤ w.now.secs + t.window.lifetimeSecs) ∨
      (w.clock w.now).toInt ≤ w.now.secs := by
  have counted {request : RequestContext} {verdict : Verdict}
      (overruns : s.CounterOverruns w request verdict) :
      ∃ t, s.throttle = some t ∧ 2 ^ 63 - 1 ≤ w.now.secs + t.window.lifetimeSecs := by
    obtain ⟨_, t, client, found, _, far⟩ := overruns
    exact ⟨t, has_of_throttled found, le_of_after?_eq_none far⟩
  cases k with
  | verify request token expected => exact .inl (counted overruns)
  | refresh request token =>
      rcases overruns with overruns | ⟨_, c, _, overruns⟩
      · exact .inl (counted overruns)
      · exact .inr (overruns.ahead reads early)
  | revoke token reason =>
      obtain ⟨c, _, overruns⟩ := overruns
      exact .inr (overruns.ahead reads early)
  | issue | issueAccess | issueRefresh | issueReset | remove => exact overruns.elim

/-! ### Calls one after the other -/

/-- Calls that have all replied leave the breaker and the clock as they were. -/
theorem closed_of_visits {log : List Visit} (limits : s.HasLimits) (visits : s.Visits w₀ log w)
    (closed : w₀.breaker.state = .initial) (reads : ∀ t, 0 ≤ (w₀.clock t).toInt)
    (replied : ∀ v ∈ log, v.reply.isSome) : w.breaker.state = .initial ∧ w.clock = w₀.clock := by
  refine visits.keeps (P := fun _ w => w.breaker.state = .initial ∧ w.clock = w₀.clock) replied
    ⟨closed, rfl⟩ ?_ fun _ ih => ih
  rintro log w k reply w' ⟨closed, clock⟩ runs
  have replies := replies_call (k := k) limits closed (by rw [clock]; exact reads w.now)
  cases replies.of_run runs with
  | value _ _ leaves => exact ⟨leaves.closed closed, leaves.clock.trans clock⟩

/-- A throttle of settings that pass the check has a limit. -/
theorem hasLimits_of_check {settings : Settings} (accepted : settings.check = .ok ())
    (throttle : s.throttle = settings.throttle?) : s.HasLimits := by
  intro t has
  rw [throttle] at has
  unfold Settings.throttle? at has
  unfold Settings.check Settings.checkThrottle at accepted
  split at has
  · rename_i enabled
    cases has
    intro none
    rw [if_pos ⟨enabled, none⟩] at accepted
    cases limits : settings.checkLimits <;> rw [limits] at accepted <;> cases accepted
  · cases has

/-- A service with the throttle of settings that pass the check, over a cache in memory and with a clock
between the years 1970 and 9999, replies to each call after others to which it has replied, unless the call
overruns. It does so only where the window of the throttle reaches the end of the timer, which the check lets
pass, or the timer is ahead of the clock; and then it ends in a fault. -/
theorem returns_iff {settings : Settings} {log : List Visit} (accepted : settings.check = .ok ())
    (throttle : s.throttle = settings.throttle?) (visits : s.Visits w₀ log w)
    (closed : w₀.breaker.state = .initial)
    (reads : ∀ t, 0 ≤ (w₀.clock t).toInt ∧ (w₀.clock t).toInt ≤ 253402300799)
    (replied : ∀ v ∈ log, v.reply.isSome) (k : Call) :
    (∃ reply w', (k.action s).run Memory.backend w = (.value reply, w')) ∧ ¬ k.Overruns s w ∨
      (∃ w', (k.action s).run Memory.backend w = (.fault .instantRange, w')) ∧ k.Overruns s w ∧
        (settings.throttling.enabled = true ∧
            2 ^ 63 - 1 ≤ w.now.secs + settings.throttling.throttle.window.lifetimeSecs ∨
          (w.clock w.now).toInt ≤ w.now.secs) := by
  have limits := hasLimits_of_check accepted throttle
  obtain ⟨closed, clock⟩ := closed_of_visits limits visits closed (fun t => (reads t).1) replied
  obtain ⟨low, high⟩ := reads w.now
  rw [← clock] at low high
  obtain ⟨r, w', replies, runs⟩ := Action.run_of_yields (replies_call (k := k) limits closed low)
  cases replies with
  | value fine _ _ => exact .inl ⟨⟨_, w', runs⟩, fine⟩
  | overran overruns =>
      refine .inr ⟨⟨w', runs⟩, overruns, (overruns.cause low high).imp_left ?_⟩
      rintro ⟨t, has, far⟩
      rw [throttle, Settings.throttle?, Option.ite_none_right_eq_some] at has
      obtain ⟨enabled, ⟨⟩⟩ := has
      exact ⟨enabled, far⟩

end TokenService

/-! ### A window without end -/

namespace Sample

open TokenService

/-- Settings with a throttle whose window is the longest that can be set. -/
def unforgiving : Settings where
  tokens := { keys := .secret "Xq9#Lm2$Pz7&Rt4!Vw8*Ky3@Nb6^Hd5%Jf1(Gs0)Uc-=Ea+_Zo" }
  throttling := { throttle := { window := Span.ofSecs (2 ^ 64 - 1) } }

def unforgivingService : TokenService := { service with throttle := unforgiving.throttle? }

/-- A world in which it is always the same second. -/
def still : World Memory := { world with clock := fun _ => 1700000000 }

/-- They pass the check. A client that presents what is no token brings the service to a fault, and if nobody
presents the same, it is rejected. -/
theorem returns_unforgiving : unforgiving.check = .ok () ∧
    (∃ w', (forging.action unforgivingService).run Memory.backend still = (.fault .instantRange, w')) ∧
    ∃ reply w', ((Call.verify none "forged" .access).action unforgivingService).run Memory.backend still =
      (.value reply, w') := by
  have accepted : unforgiving.check = .ok () := rfl
  have reads (t : Instant) : 0 ≤ (still.clock t).toInt ∧ (still.clock t).toInt ≤ 253402300799 := by
    change 0 ≤ (1700000000 : Int64).toInt ∧ (1700000000 : Int64).toInt ≤ 253402300799
    decide
  have none : ∀ v ∈ ([] : List Visit), v.reply.isSome := fun v impossible => by cases impossible
  have either := returns_iff accepted (s := unforgivingService) rfl .start rfl reads none
  refine ⟨accepted, ?_, ?_⟩
  · have overruns : forging.Overruns unforgivingService still :=
      ⟨rfl, { window := Span.ofSecs (2 ^ 64 - 1) }, "a", rfl, rfl, rfl⟩
    rcases either forging with ⟨_, fine⟩ | ⟨faults, _⟩
    · exact absurd overruns fine
    · exact faults
  · rcases either (.verify .none "forged" .access) with
      ⟨replies, _⟩ | ⟨_, ⟨_, t, client, impossible, _⟩, _⟩
    · exact replies
    · cases impossible

end Sample

end TokenAuthority
