import TokenAuthority.Proofs.Effect.Asking
import TokenAuthority.Proofs.Service.FailedRefresh
import TokenAuthority.Settings.Basic

/-!
# Settings under which tokens can be made

Making tokens waits for nothing, so how a call that only issues tokens ends follows from the settings,
the keys and one reading of the clock.

* `TokenService.answers_mint` — what making a token comes to.
* `TokenService.Able` — what a service needs for making the tokens of a user.
* `TokenService.issues_iff` — settings that pass the check issue tokens of just those kinds whose
  lifetimes fit a signed word. The check itself only asks for a second at least.
-/

namespace TokenAuthority

/-! ### Settings that pass the check -/

namespace Settings

/-- What the check asks of the lifetimes of tokens. -/
theorem Tokens.lifetimes_of_check {t : Tokens} (accepted : t.check = .ok ()) :
    t.accessTtl.secs ≠ 0 ∧ t.refreshTtl.secs ≠ 0 ∧ t.resetTtl.secs ≠ 0 := by
  unfold check at accepted
  dsimp only at accepted
  split at accepted
  · cases accepted
  split at accepted
  · cases accepted
  split at accepted
  · cases accepted
  split at accepted
  · cases accepted
  · exact ⟨‹_›, ‹_›, ‹_›⟩

/-- Settings that pass the check have settings of tokens that pass theirs. -/
theorem tokens_of_check {settings : Settings} (accepted : settings.check = .ok ()) :
    settings.tokens.check = .ok () := by
  unfold check checkLimits at accepted
  cases checked : settings.tokens.check with
  | ok => rfl
  | error e =>
      rw [checked] at accepted
      cases accepted

theorem lasts_of_check {settings : Settings} (accepted : settings.check = .ok ()) (kind : TokenKind) :
    0 < (settings.policy.ttl kind).secs := by
  obtain ⟨access, refresh, reset⟩ := Tokens.lifetimes_of_check (tokens_of_check accepted)
  cases kind with
  | access => exact Nat.pos_of_ne_zero access
  | refresh => exact Nat.pos_of_ne_zero refresh
  | reset => exact Nat.pos_of_ne_zero reset

end Settings

namespace TokenService

open TokenAuthority.Action

/-- The settings that leave a service have passed the check, and its policy, its throttle and its codec are those
that are set: what is said below of such settings is said of every service that they leave. -/
theorem ofSettings_eq_ok {settings : Settings} {s : TokenService} {name : String}
    (made : ofSettings settings name = .ok s) :
    settings.check = .ok () ∧ s.policy = settings.policy ∧ s.throttle = settings.throttle? ∧
      s.codec = settings.codec := by
  unfold ofSettings Settings.checked at made
  cases checked : settings.check with
  | error e =>
      rw [checked] at made
      cases made
  | ok =>
      rw [checked] at made
      cases loaded : settings.tokens.keys.load with
      | error e =>
          rw [loaded] at made
          cases made
      | ok keys =>
          rw [loaded] at made
          cases made
          exact ⟨rfl, rfl, rfl, rfl⟩

/-! ### Making a token -/

section Mint

variable {σ : Type} {s : TokenService} {w : World σ} {kind : TokenKind} {subject : Subject}
  {sessionId : Option String} {now seconds : Int64}

/-- The credential of a token that is made at a time for some seconds, under an identifier. -/
def draft (kind : TokenKind) (subject : Subject) (sessionId : Option String) (now seconds : Int64)
    (tokenId : String) : Credential where
  tokenId := tokenId
  userId := subject.userId
  email := subject.email
  roles := subject.roles
  sessionId := sessionId
  issuedAt := now
  expiresAt := Seconds.plus now seconds
  kind := kind

def idOf (random : Randomness) (draw : Nat) : String :=
  RandomText.ofOctets (random.octets draw tokenIdOctets)

theorem answers_draw {count : Nat} (positive : count ≠ 0) : (RandomText.draw count).answers? w =
    some (.ok (RandomText.ofOctets (w.random.octets w.draws count)), { w with draws := w.draws + 1 }) := by
  unfold RandomText.draw
  rw [if_neg positive]
  rfl

/-- Making a token takes one draw, for its identifier, and ends as encoding its credential does. -/
theorem answers_mint (lasts : s.lifetime kind = .ok seconds) :
    (s.mint kind subject sessionId now).answers? w =
      match s.codec.encode s.keys (draft kind subject sessionId now seconds (idOf w.random w.draws)) with
      | .error e => some (.error (.crypto e), { w with draws := w.draws + 1 })
      | .ok token => some (.ok ⟨token, idOf w.random w.draws, kind, Seconds.plus now seconds⟩,
          { w with draws := w.draws + 1, counts := w.counts.record (.issued kind) }) := by
  unfold mint
  rw [lasts]
  dsimp only
  rw [answers_bind (answers_draw (by decide))]
  change Action.answers? (match s.codec.encode s.keys
    (draft kind subject sessionId now seconds (idOf w.random w.draws)) with
    | .error e => _
    | .ok token => _) _ = _
  cases s.codec.encode s.keys (draft kind subject sessionId now seconds (idOf w.random w.draws)) with
  | error e => rfl
  | ok token => rfl

/-- Whether the seconds of the lifetime of a kind fit a signed word. -/
def Fits (s : TokenService) (kind : TokenKind) : Prop := (s.policy.ttl kind).secs < 2 ^ 63

instance : DecidablePred s.Fits := fun _ => inferInstanceAs (Decidable (_ < _))

/-- A lifetime that fits is counted as it is. -/
theorem lifetime_of_fits (fits : s.Fits kind) : s.lifetime kind =
    .ok (Int64.ofInt (s.policy.ttl kind).secs) ∧
      (Int64.ofInt (s.policy.ttl kind).secs).toInt = (s.policy.ttl kind).secs := by
  unfold Fits at fits
  have kept : (Int64.ofInt (s.policy.ttl kind).secs).toInt = (s.policy.ttl kind).secs :=
    Int64.toInt_ofInt_of_le (by omega) (by omega)
  refine ⟨?_, kept⟩
  unfold lifetime Seconds.ofInt?
  rw [if_pos kept]

/-- Any other one is an error of the settings. -/
theorem lifetime_of_not_fits (unfit : ¬ s.Fits kind) :
    s.lifetime kind = .error (.config (kind.name ++ " TTL out of range")) := by
  unfold Fits at unfit
  have lost : (Int64.ofInt (s.policy.ttl kind).secs).toInt ≠ (s.policy.ttl kind).secs := by
    intro kept
    have bound := (Int64.ofInt (s.policy.ttl kind).secs).toInt_lt
    omega
  unfold lifetime Seconds.ofInt?
  rw [if_neg lost]

/-- No token of such a kind is made. -/
theorem answers_mint_of_not_fits (unfit : ¬ s.Fits kind) :
    (s.mint kind subject sessionId now).answers? w =
      some (.error (.config (kind.name ++ " TTL out of range")), w) := by
  unfold mint
  rw [lifetime_of_not_fits unfit]
  rfl

/-- A random text of some octets has characters. -/
theorem ofOctets_ne_empty {octets : List UInt8} (drawn : octets ≠ []) :
    RandomText.ofOctets octets ≠ "" :=
  fun empty => drawn (octets_of_ofOctets empty)

/-- What a service needs for making the tokens of a user at a time: keys that sign every message, somebody
to hold them, lifetimes, a source that gives as many random octets as it is asked for, and a clock that
is not at its end. -/
structure Able (s : TokenService) (userId : String) (now : Int64) (w : World σ) : Prop where
  signs : ∀ message, ∃ signature, s.keys.sign message = .ok signature
  owned : userId ≠ ""
  lasts : ∀ kind, 0 < (s.policy.ttl kind).secs
  drawn : ∀ draw count, (w.random.octets draw count).length = count
  reads : w.clock w.now = now
  early : now.toInt < 2 ^ 63 - 1

/-- It stays able once it has drawn a text. -/
theorem Able.answers_draw {userId : String} (able : s.Able userId now w) (count : Nat)
    (positive : count ≠ 0) : ∃ text w', (RandomText.draw count).answers? w = some (.ok text, w') ∧
      s.Able userId now w' := by
  refine ⟨_, _, TokenService.answers_draw positive, ?_⟩
  exact ⟨able.signs, able.owned, able.lasts, able.drawn, able.reads, able.early⟩

/-- A token is made then, if its lifetime fits. -/
theorem Able.answers_mint (able : s.Able subject.userId now w) (sessionId : Option String)
    (fits : s.Fits kind) : ∃ issued w',
      (s.mint kind subject sessionId now).answers? w = some (.ok issued, w') ∧
        s.Able subject.userId now w' := by
  obtain ⟨counted, kept⟩ := lifetime_of_fits fits
  generalize Int64.ofInt (s.policy.ttl kind).secs = seconds at counted kept
  have id : idOf w.random w.draws ≠ "" := by
    refine ofOctets_ne_empty (List.ne_nil_of_length_pos ?_)
    rw [able.drawn]
    decide
  have later : now.toInt < (Seconds.plus now seconds).toInt := by
    have lasts := able.lasts kind
    have early := able.early
    have least := now.le_toInt
    rw [Seconds.plus, Seconds.toInt_nearest_eq, kept]
    omega
  have flawless : (draft kind subject sessionId now seconds (idOf w.random w.draws)).flaw? = none :=
    Credential.flaw?_eq_none_iff.mpr ⟨able.owned, id, later⟩
  obtain ⟨signature, signs⟩ := able.signs (s.codec.unsigned s.keys
    (draft kind subject sessionId now seconds (idOf w.random w.draws))).signedOctets
  rw [TokenService.answers_mint counted, Codec.encode_of_flawless flawless, signs]
  refine ⟨_, _, rfl, ?_⟩
  exact ⟨able.signs, able.owned, able.lasts, able.drawn, able.reads, able.early⟩

end Mint

/-! ### Calls that issue tokens -/

/-- For whom a call issues tokens, and of which kinds; nothing for the calls that do more than that. -/
def Call.issues? : Call → Option (String × List TokenKind)
  | .issue subject => some (subject.userId, [.access, .refresh])
  | .issueAccess subject => some (subject.userId, [.access])
  | .issueRefresh subject => some (subject.userId, [.refresh])
  | .issueReset userId _ => some (userId, [.reset])
  | .verify _ _ _ | .refresh _ _ | .revoke _ _ | .remove _ => none

/-- Whether a reply gives out tokens that were issued, or the error that it tells; nothing for the replies
of other calls. -/
def Reply.issued? : Reply → Option (Except AuthError Unit)
  | .pair x => some (x.map fun _ => ())
  | .issued x => some (x.map fun _ => ())
  | .verdict _ | .refreshed _ | .revoked _ | .removed _ => none

/-- What a call for tokens of some kinds comes to: the error names the first kind that does not fit. -/
def outcome (s : TokenService) (kinds : List TokenKind) : Except AuthError Unit :=
  match kinds.find? fun kind => ¬ s.Fits kind with
  | none => .ok ()
  | some kind => .error (.config (kind.name ++ " TTL out of range"))

section Calls

variable {σ : Type} {s : TokenService} {w : World σ} {kind : TokenKind} {kinds : List TokenKind}
  {subject : Subject} {userId : String}

theorem outcome_of_fits (fits : s.Fits kind) : s.outcome (kind :: kinds) = s.outcome kinds := by
  unfold outcome
  rw [List.find?_cons_of_neg (by simpa using fits)]

theorem outcome_of_not_fits (unfit : ¬ s.Fits kind) :
    s.outcome (kind :: kinds) = .error (.config (kind.name ++ " TTL out of range")) := by
  unfold outcome
  rw [List.find?_cons_of_pos (by simpa using unfit)]

/-- All of them come, if all lifetimes fit. -/
theorem outcome_eq_ok_iff : s.outcome kinds = .ok () ↔ ∀ kind ∈ kinds, s.Fits kind := by
  induction kinds with
  | nil => exact ⟨fun _ kind none => (List.not_mem_nil none).elim, fun _ => rfl⟩
  | cons kind kinds ih =>
      rw [List.forall_mem_cons, ← ih]
      by_cases fits : s.Fits kind
      · rw [outcome_of_fits fits]
        exact ⟨fun rest => ⟨fits, rest⟩, And.right⟩
      · rw [outcome_of_not_fits fits]
        constructor
        · intro impossible
          cases impossible
        · intro both
          exact absurd both.1 fits

/-- The call for one token. -/
theorem Able.answers_token {now : Int64} {sessionId : Option String}
    (able : s.Able subject.userId now w) : ∃ x w',
      (s.mint kind subject sessionId now).answers? w = some (x, w') ∧
        x.map (fun _ => ()) = s.outcome [kind] := by
  by_cases fits : s.Fits kind
  · obtain ⟨issued, w', answers, _⟩ := able.answers_mint sessionId fits
    rw [outcome_of_fits fits]
    exact ⟨_, w', answers, rfl⟩
  · rw [outcome_of_not_fits fits]
    exact ⟨_, w, answers_mint_of_not_fits fits, rfl⟩

/-- The tokens of a session. -/
theorem Able.answers_issue (able : s.Able subject.userId (w.clock w.now) w) :
    ∃ x w', (s.issue subject).answers? w = some (x, w') ∧
      x.map (fun _ => ()) = s.outcome [.access, .refresh] := by
  obtain ⟨sessionId, w₁, draws, able₁⟩ := able.answers_draw sessionIdOctets (by decide)
  unfold issue
  rw [answers_bind draws]
  dsimp only
  rw [answers_now, able₁.reads]
  by_cases access : s.Fits .access
  · rw [outcome_of_fits access]
    obtain ⟨issued, w₂, answers, able₂⟩ := able₁.answers_mint (some sessionId) access
    rw [answers_bind answers]
    by_cases refresh : s.Fits .refresh
    · rw [outcome_of_fits refresh]
      obtain ⟨issued', w₃, answers', _⟩ := able₂.answers_mint (some sessionId) refresh
      exact ⟨_, w₃, answers_bind answers', rfl⟩
    · rw [outcome_of_not_fits refresh]
      exact ⟨_, w₂, answers_bind (answers_mint_of_not_fits refresh), rfl⟩
  · rw [outcome_of_not_fits access]
    exact ⟨_, w₁, answers_bind (answers_mint_of_not_fits access), rfl⟩

/-- A refresh token of a session of its own. -/
theorem Able.answers_issueRefreshToken (able : s.Able subject.userId (w.clock w.now) w) :
    ∃ x w', (s.issueRefreshToken subject).answers? w = some (x, w') ∧
      x.map (fun _ => ()) = s.outcome [.refresh] := by
  obtain ⟨sessionId, w₁, draws, able₁⟩ := able.answers_draw sessionIdOctets (by decide)
  unfold issueRefreshToken
  rw [answers_bind draws]
  dsimp only
  rw [answers_now, able₁.reads]
  exact able₁.answers_token

/-- What a call that issues tokens comes to, for a service that is able to make them. -/
theorem Able.answers_call {k : Call} (able : s.Able userId (w.clock w.now) w)
    (issues : k.issues? = some (userId, kinds)) :
    ∃ reply w', (k.action s).answers? w = some (reply, w') ∧ reply.issued? = some (s.outcome kinds) := by
  cases k with
  | issue subject =>
      cases issues
      obtain ⟨x, w', answers, comes⟩ := able.answers_issue
      exact ⟨.pair x, w', answers_bind answers, congrArg some comes⟩
  | issueAccess subject =>
      cases issues
      obtain ⟨x, w', answers, comes⟩ := able.answers_token
      exact ⟨.issued x, w', answers_bind answers, congrArg some comes⟩
  | issueRefresh subject =>
      cases issues
      obtain ⟨x, w', answers, comes⟩ := able.answers_issueRefreshToken
      exact ⟨.issued x, w', answers_bind answers, congrArg some comes⟩
  | issueReset userId email =>
      cases issues
      have able : s.Able (Subject.mk userId email []).userId (w.clock w.now) w := able
      obtain ⟨x, w', answers, comes⟩ := able.answers_token
      exact ⟨.issued x, w', answers_bind answers, congrArg some comes⟩
  | verify request token expected => cases issues
  | refresh request token => cases issues
  | revoke token reason => cases issues
  | remove tokenId => cases issues

/-- The error of a call names a kind of which no tokens can be made. -/
theorem not_fits_of_outcome {e : AuthError} (fails : s.outcome kinds = .error e) :
    ∃ kind ∈ kinds, ¬ s.Fits kind ∧ e = .config (kind.name ++ " TTL out of range") := by
  unfold outcome at fails
  cases found : kinds.find? fun kind => ¬ s.Fits kind with
  | none =>
      rw [found] at fails
      cases fails
  | some kind =>
      rw [found] at fails
      cases fails
      have unfit := List.find?_some found
      exact ⟨kind, List.mem_of_find?_eq_some found, by simpa using unfit, rfl⟩

/-- A service with the policy of settings that pass the check, and with keys that sign, issues tokens to
every user and over every cache, at all times before the end of the range — as long as the seconds of
their lifetimes fit a signed word. A call for a token of which they do not ends in an error of the
settings, although the check has let them pass. -/
theorem issues_iff {settings : Settings} (backend : Cache.Backend σ) {k : Call}
    (accepted : settings.check = .ok ()) (policy : s.policy = settings.policy)
    (signs : ∀ message, ∃ signature, s.keys.sign message = .ok signature)
    (random : ∀ draw count, (w.random.octets draw count).length = count)
    (early : (w.clock w.now).toInt < 2 ^ 63 - 1)
    (issues : k.issues? = some (userId, kinds)) (owned : userId ≠ "") :
    ∃ reply outcome, ((k.action s).run backend w).1 = .value reply ∧ reply.issued? = some outcome ∧
      (outcome = .ok () ↔ ∀ kind ∈ kinds, (settings.policy.ttl kind).secs < 2 ^ 63) ∧
      ∀ e, outcome = .error e → ∃ kind ∈ kinds, ¬ (settings.policy.ttl kind).secs < 2 ^ 63 ∧
        e = .config (kind.name ++ " TTL out of range") := by
  have able : s.Able userId (w.clock w.now) w := by
    refine ⟨signs, owned, fun kind => ?_, random, rfl, early⟩
    rw [policy]
    exact Settings.lasts_of_check accepted kind
  obtain ⟨reply, w', answers, given⟩ := able.answers_call issues
  rw [← policy]
  refine ⟨reply, s.outcome kinds, ?_, given, outcome_eq_ok_iff, fun e => not_fits_of_outcome⟩
  rw [run_of_answers backend answers]

end Calls

end TokenService

/-! ### A lifetime without end -/

namespace Sample

open TokenService

/-- Settings with tokens for resetting a password that last for too long to be counted. -/
def everlasting : Settings where
  tokens :=
    { keys := .secret "Xq9#Lm2$Pz7&Rt4!Vw8*Ky3@Nb6^Hd5%Jf1(Gs0)Uc-=Ea+_Zo", resetTtl := Span.ofSecs (2 ^ 63) }

def everlastingService : TokenService := { service with policy := everlasting.policy }

/-- These settings pass the check; a session can be issued under them, and no token for resetting a password. -/
theorem issues_everlasting : everlasting.check = .ok () ∧
    (∃ reply, ((Call.action everlastingService (.issue ⟨"42", "a@b.com", []⟩)).run Cache.Memory.backend
      world).1 = .value reply ∧ reply.issued? = some (.ok ())) ∧
    ∃ reply, ((Call.action everlastingService (.issueReset "42" "a@b.com")).run Cache.Memory.backend
      world).1 = .value reply ∧ reply.issued? = some (.error (.config "reset TTL out of range")) := by
  have accepted : everlasting.check = .ok () := rfl
  have signs (message : List UInt8) : ∃ signature, everlastingService.keys.sign message = .ok signature :=
    ⟨_, rfl⟩
  have random (draw count : Nat) : (world.random.octets draw count).length = count :=
    List.length_replicate
  refine ⟨accepted, ?_, ?_⟩
  · obtain ⟨reply, outcome, ends, gives, fits, _⟩ := issues_iff Cache.Memory.backend
      (k := .issue ⟨"42", "a@b.com", []⟩) accepted rfl signs random (by decide) rfl (by decide)
    refine ⟨reply, ends, ?_⟩
    rw [gives, fits.mpr (by decide)]
  · obtain ⟨reply, outcome, ends, gives, fits, fails⟩ := issues_iff Cache.Memory.backend
      (k := .issueReset "42" "a@b.com") accepted rfl signs random (by decide) rfl (by decide)
    refine ⟨reply, ends, ?_⟩
    cases outcome with
    | ok => exact absurd (fits.mp rfl) (by decide)
    | error e =>
        obtain ⟨kind, mem, _, rfl⟩ := fails e rfl
        cases List.mem_singleton.mp mem
        rw [gives]
        rfl

end Sample

end TokenAuthority
