import TokenAuthority.Proofs.Service.FailClosed
import TokenAuthority.Proofs.Service.Lineage
import TokenAuthority.Proofs.Service.Overrun
import TokenAuthority.Proofs.Text.Integer
import TokenAuthority.Service.Adapter

/-!
# Authentication

The verification of an access token gives the number of a user, and a directory of users is asked for the user of
that number only.

* `Identity.Of` — the identity of a credential whose subject is the number of a user.
* `Adapter.Course` — how an authentication goes on after the verification.
* `Adapter.Authenticates` — how an authentication ends and what it asks, given how the verification and the
  look-up in the directory end.
* `Adapter.Vouches` — an access token is accepted as one of the user for whom it was made, and never as a
  refresh token.
* `Adapter.authenticates` — this is what every adapter does that is made of settings.
-/

namespace TokenAuthority

open Cache (Memory)

/-! ### Identities -/

/-- The subject of a credential is the number of a user. -/
def Credential.Names (c : Credential) (userId : Int64) : Prop :=
  Integer.Numeral true c.userId.toList userId.toInt

namespace Identity

/-- The subject of a credential is the number of this user, and all else is as the credential says. -/
structure Of (i : Identity) (c : Credential) : Prop where
  userId : c.Names i.userId
  email : i.email = c.email
  roles : i.roles = c.roles
  expiresAt : i.expiresAt = c.expiresAt
  tokenId : i.tokenId = c.tokenId
  sessionId : i.sessionId = c.sessionId

variable {c : Credential} {i : Identity} {reason : FailureReason}

/-- A subject is read as the number that it names. -/
theorem names_iff {n : Int64} : c.Names n ↔ Integer.readInt64 c.userId = .ok n.toInt := by
  rw [Integer.readInt64_eq_ok_iff]
  exact (and_iff_left ⟨n.le_toInt, n.toInt_lt⟩).symm

theorem ofCredential_eq_ok_iff : ofCredential c = .ok i ↔ i.Of c := by
  unfold ofCredential
  constructor
  · intro told
    split at told
    · rename_i n read
      cases told
      obtain ⟨_, least, most⟩ := Integer.readInt64_eq_ok_iff.mp read
      refine ⟨names_iff.mpr ?_, rfl, rfl, rfl, rfl, rfl⟩
      rw [read, Int64.toInt_ofInt_of_le least most]
    · cases told
  · rintro ⟨names, email, roles, expiresAt, tokenId, sessionId⟩
    rw [names_iff.mp names]
    obtain ⟨userId, _, _, _, _, _⟩ := i
    cases email
    cases roles
    cases expiresAt
    cases tokenId
    cases sessionId
    simp only [Int64.ofInt_toInt]

theorem ofCredential_eq_error_iff : ofCredential c = .error reason ↔
    reason = .invalidClaims ∧ ∀ n, ¬ c.Names n := by
  unfold ofCredential
  constructor
  · intro fails
    split at fails
    · cases fails
    · rename_i e read
      cases fails
      refine ⟨rfl, fun n names => ?_⟩
      rw [names_iff.mp names] at read
      cases read
  · rintro ⟨rfl, nameless⟩
    split
    · rename_i n read
      obtain ⟨_, least, most⟩ := Integer.readInt64_eq_ok_iff.mp read
      refine absurd (names_iff.mpr ?_) (nameless (Int64.ofInt n))
      rw [read, Int64.toInt_ofInt_of_le least most]
    · rfl

theorem Of.unique {j : Identity} (presents : i.Of c) (presents' : j.Of c) : i = j := by
  have same := ofCredential_eq_ok_iff.mpr presents
  rw [ofCredential_eq_ok_iff.mpr presents'] at same
  exact (Except.ok.inj same).symm

end Identity

namespace Adapter

open TokenAuthority.Action

/-! ### Adapters in use -/

/-- The service of an adapter, if it has one, has a leeway that is not negative and limits for its clients. -/
def Sound (a : Adapter) : Prop := ∀ s, a.service = .ok s → 0 ≤ s.codec.leeway.toInt ∧ s.HasLimits

variable {a : Adapter} {s : TokenService}

/-- Adapters are sound as they are made of settings. -/
theorem sound_new (settings : Settings) (backend : String) : Sound { settings, backend } := by
  intro s served
  obtain ⟨checked, _, throttle, codec⟩ := TokenService.ofSettings_eq_ok served
  refine ⟨?_, TokenService.hasLimits_of_check checked throttle⟩
  rw [codec]
  change 0 ≤ (Seconds.nearest settings.tokens.leeway.toNat).toInt
  rw [Seconds.toInt_nearest_eq]
  omega

/-- The service stays the same from one use to the next. -/
theorem service_afterUse (served : a.service = .ok s) : a.afterUse.service = .ok s := by
  rw [afterUse, served]
  rfl

theorem fault?_afterUse (served : a.service = .ok s) : a.afterUse.fault? = none := by
  rw [afterUse, served]
  rfl

/-- An adapter stays sound when it is used, also if its service cannot be made. -/
theorem Sound.afterUse (sound : a.Sound) : a.afterUse.Sound := by
  cases served : a.service with
  | ok s =>
      intro s' served'
      rw [service_afterUse served] at served'
      cases served'
      exact sound s served
  | error e =>
      have unmade : a.afterUse = { settings := a.settings, backend := a.backend } := by
        rw [Adapter.afterUse, served]
        rfl
      rw [unmade]
      exact sound_new a.settings a.backend

/-- A call of an adapter that has its service is one of the service. -/
theorem withService_eq {α : Type} {next : TokenService → Action (Except AuthError α)}
    (faultless : a.fault? = none) (served : a.service = .ok s) : a.withService next = next s := by
  unfold withService
  rw [faultless, served]

/-! ### The course of an authentication -/

section Course

variable {σ υ : Type} (backend : Cache.Backend σ) (request : RequestContext) (token : String)
  (users : UserDirectory υ) (w : World σ)

/-- How an authentication ends, given how the look-up of a user ends. -/
def decided (users : UserDirectory υ) (i : Identity) :
    Ending (Except (List String) (Option υ)) → Ending (Except AuthError (Identity × υ))
  | .value (.error causes) => .value (.error (.userLookup (": ".intercalate causes)))
  | .value (.ok none) => .value (.error .userNotFound)
  | .value (.ok (some user)) => .value (if users.isActive user then .ok (i, user) else .error .userInactive)
  | .fault f => .fault f
  | .endless => .endless

/-- How an authentication goes on after the verification: the numbers for which a user is looked up, how it ends,
and the world that it leaves. -/
inductive Course : Ending Verdict × World σ → List Int64 → Ending (Except AuthError (Identity × υ)) →
    World σ → Prop where
  | broken {f : Fault} {w' : World σ} : Course (.fault f, w') [] (.fault f) w'
  | endless {w' : World σ} : Course (.endless, w') [] .endless w'
  | rejected {reason : FailureReason} {stage : Stage} {w' : World σ} :
      Course (.value (.rejected reason stage), w') [] (.value (.error (.rejected reason))) w'
  | nameless {c : Credential} {w' : World σ} : (∀ n, ¬ c.Names n) →
      Course (.value (.accepted c), w') [] (.value (.error (.rejected .invalidClaims))) w'
  | named {c : Credential} {i : Identity} {w' : World σ} : i.Of c →
      Course (.value (.accepted c), w') [i.userId]
        (decided users i ((users.find i.userId).run backend w').1) ((users.find i.userId).run backend w').2

variable {verified : Ending Verdict × World σ} {asked : List Int64}
  {ending : Ending (Except AuthError (Identity × υ))} {w' : World σ}

theorem exists_course (verified : Ending Verdict × World σ) :
    ∃ asked ending w', Course backend users verified asked ending w' := by
  obtain ⟨(c | ⟨reason, stage⟩) | f | _, w'⟩ := verified
  · cases told : Identity.ofCredential c with
    | ok i => exact ⟨_, _, _, .named (Identity.ofCredential_eq_ok_iff.mp told)⟩
    | error reason => exact ⟨_, _, _, .nameless (Identity.ofCredential_eq_error_iff.mp told).2⟩
  · exact ⟨_, _, _, .rejected⟩
  · exact ⟨_, _, _, .broken⟩
  · exact ⟨_, _, _, .endless⟩

/-- The identity of the credential that a verification accepts, or why there is none. -/
def identified : Verdict → Except AuthError Identity
  | .accepted c => (Identity.ofCredential c).mapError AuthError.rejected
  | .rejected reason _ => .error (.rejected reason)

theorem verifyAs_eq {expected : TokenKind} (faultless : a.fault? = none) (served : a.service = .ok s) :
    a.verifyAs request token expected =
      (s.verifyFor request token expected >>= fun verdict => return identified verdict) := by
  rw [verifyAs, withService_eq faultless served]
  congr 1
  funext verdict
  cases verdict <;> rfl

/-- What is done with an identity: its user is looked up. -/
def lookUp (i : Identity) : Action (Except AuthError (Identity × υ)) := do
  match ← users.find i.userId with
  | .error causes => return .error (.userLookup (": ".intercalate causes))
  | .ok none => return .error .userNotFound
  | .ok (some user) => return if users.isActive user then .ok (i, user) else .error .userInactive

theorem run_lookUp (i : Identity) : (lookUp users i).run backend w =
    (decided users i ((users.find i.userId).run backend w).1, ((users.find i.userId).run backend w).2) := by
  unfold lookUp
  rw [run_bind]
  rcases (users.find i.userId).run backend w with ⟨(_ | _ | user) | f | _, w'⟩
  all_goals rfl

theorem history_lookUp (i : Identity) :
    (lookUp users i).history backend w = (users.find i.userId).history backend w := by
  unfold lookUp
  rw [history_bind]
  rcases (users.find i.userId).run backend w with ⟨(_ | _ | user) | f | _, w'⟩
  all_goals exact List.append_nil _

/-- An authentication takes the course that follows its verification, and sees only what it and the look-up see. -/
theorem authenticate_course (faultless : a.fault? = none) (served : a.service = .ok s)
    (course : Course backend users ((s.verifyFor request token .access).run backend w) asked ending w') :
    (a.authenticate request token users).run backend w = (ending, w') ∧
      (a.authenticate request token users).history backend w =
        (s.verifyFor request token .access).history backend w ++ asked.flatMap fun n =>
          (users.find n).history backend ((s.verifyFor request token .access).run backend w).2 := by
  rw [authenticate, verifyAs_eq request token faultless served, run_bind, run_bind, history_bind, history_bind,
    run_bind]
  generalize (s.verifyFor request token .access).run backend w = verified at course
  generalize (s.verifyFor request token .access).history backend w = seen
  cases course with
  | broken => simp
  | endless => simp
  | rejected => exact ⟨rfl, congrArg (· ++ []) (List.append_nil seen)⟩
  | @nameless c w' nameless =>
      have told : identified (.accepted c) = .error (.rejected .invalidClaims) := by
        rw [identified, Identity.ofCredential_eq_error_iff.mpr ⟨rfl, nameless⟩]
        rfl
      simp only [told]
      exact ⟨rfl, congrArg (· ++ []) (List.append_nil seen)⟩
  | @named c i w' presents =>
      have told : identified (.accepted c) = .ok i := by
        rw [identified, Identity.ofCredential_eq_ok_iff.mpr presents]
        rfl
      simp only [told]
      rw [List.flatMap_singleton, ← history_lookUp]
      exact ⟨run_lookUp backend users w' i, congrArg (· ++ _) (List.append_nil seen)⟩

end Course

/-! ### Outcomes -/

/-- The verification has accepted a credential, and this is its identity. -/
def Presents (verified : Ending Verdict) (i : Identity) : Prop :=
  ∃ c, verified = .value (.accepted c) ∧ i.Of c

/-- How an authentication ends and what it sees, given how the verification ends, and how a look-up of a user in
the world that it leaves ends. -/
structure Authenticates {σ υ : Type} (backend : Cache.Backend σ) (users : UserDirectory υ)
    (verified : Ending Verdict × World σ) (seen : History)
    (ended : Ending (Except AuthError (Identity × υ)) × World σ) (h : History) : Prop where
  admits : ∀ i user, ended.1 = .value (.ok (i, user)) ↔ Presents verified.1 i ∧
    ((users.find i.userId).run backend verified.2).1 = .value (.ok (some user)) ∧ users.isActive user = true
  rejects : ∀ reason, ended.1 = .value (.error (.rejected reason)) ↔
    (∃ stage, verified.1 = .value (.rejected reason stage)) ∨
      reason = .invalidClaims ∧ ∃ c, verified.1 = .value (.accepted c) ∧ ∀ n, ¬ c.Names n
  fails : ∀ text, ended.1 = .value (.error (.userLookup text)) ↔ ∃ i causes, Presents verified.1 i ∧
    ((users.find i.userId).run backend verified.2).1 = .value (.error causes) ∧ text = ": ".intercalate causes
  misses : ended.1 = .value (.error .userNotFound) ↔ ∃ i, Presents verified.1 i ∧
    ((users.find i.userId).run backend verified.2).1 = .value (.ok none)
  refuses : ended.1 = .value (.error .userInactive) ↔ ∃ i user, Presents verified.1 i ∧
    ((users.find i.userId).run backend verified.2).1 = .value (.ok (some user)) ∧ users.isActive user = false
  errors : ∀ e, ended.1 = .value (.error e) → (∃ reason, e = .rejected reason) ∨
    (∃ text, e = .userLookup text) ∨ e = .userNotFound ∨ e = .userInactive
  faults : ∀ f, ended.1 = .fault f ↔ verified.1 = .fault f ∨ ∃ i, Presents verified.1 i ∧
    ((users.find i.userId).run backend verified.2).1 = .fault f
  hangs : ended.1 = .endless ↔ verified.1 = .endless ∨ ∃ i, Presents verified.1 i ∧
    ((users.find i.userId).run backend verified.2).1 = .endless
  asks : ∀ i, Presents verified.1 i → h = seen ++ (users.find i.userId).history backend verified.2 ∧
    ended.2 = ((users.find i.userId).run backend verified.2).2
  spares : (∀ i, ¬ Presents verified.1 i) → h = seen ∧ ended.2 = verified.2

section Outcomes

variable {σ υ : Type} {backend : Cache.Backend σ} {users : UserDirectory υ} {i j : Identity} {user : υ}
  {found : Ending (Except (List String) (Option υ))} {c : Credential}

theorem decided_eq_ok : decided users i found = .value (.ok (j, user)) ↔
    j = i ∧ found = .value (.ok (some user)) ∧ users.isActive user = true := by
  rcases found with (causes | _ | user') | f | _ <;> grind [decided]

theorem decided_ne_rejected {reason : FailureReason} :
    decided users i found ≠ .value (.error (.rejected reason)) := by
  rcases found with (causes | _ | user') | f | _ <;> grind [decided]

theorem decided_eq_userLookup {text : String} : decided users i found = .value (.error (.userLookup text)) ↔
    ∃ causes, found = .value (.error causes) ∧ text = ": ".intercalate causes := by
  rcases found with (causes | _ | user') | f | _ <;> grind [decided]

theorem decided_eq_userNotFound : decided users i found = .value (.error .userNotFound) ↔
    found = .value (.ok none) := by
  rcases found with (causes | _ | user') | f | _ <;> grind [decided]

theorem decided_eq_userInactive : decided users i found = .value (.error .userInactive) ↔
    ∃ user, found = .value (.ok (some user)) ∧ users.isActive user = false := by
  rcases found with (causes | _ | user') | f | _ <;> grind [decided]

theorem decided_eq_error {e : AuthError} (fails : decided users i found = .value (.error e)) :
    (∃ text, e = .userLookup text) ∨ e = .userNotFound ∨ e = .userInactive := by
  rcases found with (causes | _ | user') | f | _ <;> grind [decided]

theorem decided_eq_fault {f : Fault} : decided users i found = .fault f ↔ found = .fault f := by
  rcases found with (causes | _ | user') | f | _ <;> grind [decided]

theorem decided_eq_endless : decided users i found = .endless ↔ found = .endless := by
  rcases found with (causes | _ | user') | f | _ <;> grind [decided]

theorem not_presents {verified : Ending Verdict} (unaccepted : ∀ c, verified ≠ .value (.accepted c)) :
    ¬ Presents verified i :=
  fun ⟨c, accepted, _⟩ => unaccepted c accepted

/-- An accepted credential has one identity, if its subject is the number of a user. -/
theorem presents_iff (presents : i.Of c) : Presents (.value (.accepted c)) j ↔ j = i := by
  constructor
  · rintro ⟨_, ⟨⟩, presents'⟩
    exact presents'.unique presents
  · rintro rfl
    exact ⟨c, rfl, presents⟩

theorem presents_iff_identified {verdict : Verdict} :
    Presents (.value verdict) i ↔ identified verdict = .ok i := by
  cases verdict with
  | accepted c =>
      constructor
      · rintro ⟨_, ⟨⟩, presents⟩
        rw [identified, Identity.ofCredential_eq_ok_iff.mpr presents]
        rfl
      · intro told
        cases read : Identity.ofCredential c with
        | ok j =>
            rw [identified, read] at told
            cases told
            exact ⟨c, rfl, Identity.ofCredential_eq_ok_iff.mp read⟩
        | error reason =>
            rw [identified, read] at told
            cases told
  | rejected reason stage =>
      refine iff_of_false (not_presents fun _ impossible => ?_) fun impossible => ?_
      · cases impossible
      · cases impossible

theorem Course.outcome {verified : Ending Verdict × World σ} {asked : List Int64} {seen : History}
    {ending : Ending (Except AuthError (Identity × υ))} {w' : World σ}
    (course : Course backend users verified asked ending w') :
    Authenticates backend users verified seen (ending, w')
      (seen ++ asked.flatMap fun n => (users.find n).history backend verified.2) := by
  cases course with
  | @broken f w' =>
      have untold : ∀ i, ¬ Presents (.fault f) i :=
        fun _ => not_presents fun _ impossible => by cases impossible
      constructor <;> grind
  | endless =>
      have untold : ∀ i, ¬ Presents .endless i := fun _ => not_presents fun _ impossible => by cases impossible
      constructor <;> grind
  | @rejected reason stage w' =>
      have untold : ∀ i, ¬ Presents (.value (.rejected reason stage)) i :=
        fun _ => not_presents fun _ impossible => by cases impossible
      constructor <;> grind
  | @nameless c w' nameless =>
      have untold : ∀ i, ¬ Presents (.value (.accepted c)) i := by
        rintro i ⟨_, ⟨⟩, presents⟩
        exact nameless i.userId presents.userId
      constructor <;> grind
  | @named c i w' presents =>
      have told {j : Identity} : Presents (.value (.accepted c)) j ↔ j = i := presents_iff presents
      have named : ¬ ∀ n, ¬ c.Names n := fun nameless => nameless i.userId presents.userId
      constructor
      case admits =>
        intro j user
        rw [decided_eq_ok, told]
        exact and_congr_right fun same => by rw [same]
      case rejects => simp [decided_ne_rejected, named]
      case fails => simp [decided_eq_userLookup, told]
      case misses => simp [decided_eq_userNotFound, told]
      case refuses => simp [decided_eq_userInactive, told]
      case errors => exact fun e fails => .inr (decided_eq_error fails)
      case faults => simp [decided_eq_fault, told]
      case hangs => simp [decided_eq_endless, told]
      case asks =>
        intro j presents'
        rw [told.mp presents', List.flatMap_singleton]
        exact ⟨rfl, rfl⟩
      case spares => exact fun untold => absurd (told.mpr rfl) (untold i)

end Outcomes

/-! ### Access tokens -/

section Made

variable {σ : Type} {backend : Cache.Backend σ} {w w' : World σ} {userId : Int64} {email : String}
  {roles : List String} {token : String} {expected : TokenKind} {i : Identity} {c : Credential}

/-- An access token that an adapter makes holds the number of the user, at the reading of the clock. -/
theorem encodes_of_generate (faultless : a.fault? = none) (served : a.service = .ok s)
    (ran : (a.generateAccessToken userId email roles).run backend w = (.value (.ok token), w')) :
    ∃ seconds, s.codec.encode s.keys (TokenService.draft .access (subject userId email roles) none
      (w.clock w.now) seconds (TokenService.idOf w.random w.draws)) = .ok token := by
  rw [generateAccessToken, withService_eq faultless served, run_bind] at ran
  have answers : (s.issueAccessToken (subject userId email roles)).answers? w =
      (s.mint .access (subject userId email roles) none (w.clock w.now)).answers? w := answers_now
  cases lasts : s.lifetime .access with
  | error e =>
      have fails : (s.mint .access (subject userId email roles) none (w.clock w.now)).answers? w =
          some (.error e, w) := by
        rw [TokenService.mint, lasts]
        rfl
      rw [run_of_answers backend (answers.trans fails)] at ran
      cases ran
  | ok seconds =>
      rw [TokenService.answers_mint lasts] at answers
      cases made : s.codec.encode s.keys (TokenService.draft .access (subject userId email roles) none
          (w.clock w.now) seconds (TokenService.idOf w.random w.draws)) with
      | error e =>
          rw [made] at answers
          rw [run_of_answers backend answers] at ran
          cases ran
      | ok token' =>
          rw [made] at answers
          rw [run_of_answers backend answers] at ran
          cases ran
          exact ⟨seconds, made⟩

/-- A token that is accepted over whatever cache holds the credential, which is of the kind that is expected. -/
theorem holds_of_verify (ran : ((s.verify token expected).run backend w).1 = .value (.accepted c)) :
    s.codec.decodeIgnoringExpiry s.keys token = .ok c ∧ c.kind = expected := by
  rw [TokenService.verify, run_bind] at ran
  generalize RequestContext.generate.run backend w = generated at ran
  obtain ⟨request | f | _, w'⟩ := generated
  · have verified := TokenService.verifyFor_limited.run_value backend ran
    obtain ⟨_, now, _, decoded, kind, _⟩ := (verified.failsClosed.accepted c).mp rfl
    exact ⟨(Codec.decode_eq_ok_iff.mp decoded).1, kind⟩
  · cases ran
  · cases ran

/-- A verification answers with an identity exactly if it accepts a credential of that identity. -/
theorem verifies_iff (faultless : a.fault? = none) (served : a.service = .ok s) (w : World σ) :
    ((do
      let request ← RequestContext.generate
      return (← a.verifyAs request token expected).toOption : Action (Option Identity)).run backend w).1 =
        .value (some i) ↔ Presents ((s.verify token expected).run backend w).1 i := by
  rw [TokenService.verify, run_bind, run_bind]
  rcases RequestContext.generate.run backend w with ⟨request | f | _, w'⟩
  · dsimp only
    rw [verifyAs_eq request token faultless served, run_bind, run_bind]
    rcases (s.verifyFor request token expected).run backend w' with ⟨verdict | f | _, w''⟩
    · change Ending.value (identified verdict).toOption = _ ↔ _
      rw [presents_iff_identified]
      cases identified verdict <;> simp [Except.toOption]
    · simp [Presents]
    · simp [Presents]
  · simp [Presents]
  · simp [Presents]

/-- No revocation is kept for what a token holds. -/
def Unrevoked (s : TokenService) (v : World Memory) (token : String) : Prop :=
  ∀ c k, s.codec.decodeIgnoringExpiry s.keys token = .ok c → s.store.key c.tokenId = .ok k →
    ¬ v.cache.Holds v.now k

/-- A token is accepted as one of this user while the clock reads `now`, if it has not been revoked and what the
keys sign they verify, as a shared secret does and a key that signs with the public key of its own
(`KeyMaterial.agrees_of_own`). It is never accepted as a refresh token. -/
structure Vouches (a : Adapter) (s : TokenService) (token : String) (now : Int64) (userId : Int64)
    (email : String) (roles : List String) : Prop where
  presents : s.keys.Agrees → ∀ v : World Memory, v.cache.Valid → v.breaker.state = .initial →
    v.clock v.now = now → Unrevoked s v token →
    ∃ i, ((a.verifyAccessToken token).run Memory.backend v).1 = .value (some i) ∧
      i.userId = userId ∧ i.email = email ∧ i.roles = roles
  refused : ∀ {σ : Type} (backend : Cache.Backend σ) (v : World σ) i,
    ((a.verifyRefreshToken token).run backend v).1 ≠ .value (some i)

/-- A token for access that was made of a credential vouches for the identity of that credential. -/
theorem vouches_of_encode {k : String} (faultless : a.fault? = none) (served : a.service = .ok s)
    (leeway : 0 ≤ s.codec.leeway.toInt) (made : s.codec.encode s.keys c = .ok token)
    (nonneg : 0 ≤ c.issuedAt.toInt) (access : c.kind = .access) (keyed : s.store.key c.tokenId = .ok k)
    (presents : i.Of c) : a.Vouches s token c.issuedAt i.userId i.email i.roles where
  presents agrees v valid closed same unrevoked := by
    obtain ⟨_, holds, current⟩ := TokenService.decode_made agrees made nonneg
    have decoded : s.codec.decode s.keys token (v.clock v.now) = .ok c := by
      rw [same]
      exact current leeway
    have dead : (v.cache.live? v.now k).isSome = false := Bool.eq_false_iff.mpr fun found =>
      unrevoked c k holds keyed ((Cache.Memory.live?_isSome_iff valid).mp found)
    have accepted : s.verdictOn v token .access = .accepted c := by
      rw [TokenService.verdictOn_eq decoded access keyed, dead]
      rfl
    refine ⟨i, (verifies_iff faultless served v).mpr ⟨c, ?_, presents⟩, rfl, rfl, rfl⟩
    rw [TokenService.run_verify closed, accepted]
  refused backend v j accepted := by
    obtain ⟨c', accepted, _⟩ := (verifies_iff faultless served v).mp accepted
    obtain ⟨holds, kind⟩ := holds_of_verify accepted
    rw [Codec.eq_of_encode made holds, access] at kind
    cases kind

/-- An access token that an adapter makes for a user vouches for that user. -/
theorem vouches_of_generate (sound : a.Sound) (faultless : a.fault? = none) (served : a.service = .ok s)
    (nonneg : 0 ≤ (w.clock w.now).toInt)
    (ran : (a.generateAccessToken userId email roles).run backend w = (.value (.ok token), w')) :
    a.afterUse.Vouches s token (w.clock w.now) userId email roles := by
  obtain ⟨seconds, made⟩ := encodes_of_generate faultless served ran
  obtain ⟨flawless, _⟩ := Codec.encode_eq_ok made
  obtain ⟨_, named, _⟩ := Credential.flaw?_eq_none_iff.mp flawless
  obtain ⟨k, keyed⟩ := TokenService.key_idOf s.store named
  have presents : Identity.Of ⟨userId, email, roles, Seconds.plus (w.clock w.now) seconds,
      TokenService.idOf w.random w.draws, none⟩ (TokenService.draft .access (subject userId email roles) none
        (w.clock w.now) seconds (TokenService.idOf w.random w.draws)) :=
    ⟨Integer.numeral_toString _, rfl, rfl, rfl, rfl, rfl⟩
  exact vouches_of_encode (fault?_afterUse served) (service_afterUse served) (sound s served).1 made nonneg rfl
    keyed presents

end Made

/-! ### Adapters -/

section Calls

variable {σ υ : Type} {request : RequestContext} {token : String} {users : UserDirectory υ}

theorem authenticate_of_fault {f : Fault} (faults : a.fault? = some f) :
    a.authenticate request token users = .fault f := by
  rw [authenticate, verifyAs, withService, faults]
  rfl

theorem authenticate_of_error {e : AuthError} (faultless : a.fault? = none) (unserved : a.service = .error e) :
    a.authenticate request token users = return .error e := by
  rw [authenticate, verifyAs, withService, faultless, unserved]
  rfl

theorem authenticates_of_served (backend : Cache.Backend σ) (w : World σ) (faultless : a.fault? = none)
    (served : a.service = .ok s) :
    Authenticates backend users ((s.verifyFor request token .access).run backend w)
      ((s.verifyFor request token .access).history backend w)
      ((a.authenticate request token users).run backend w)
      ((a.authenticate request token users).history backend w) := by
  obtain ⟨asked, ending, w', course⟩ :=
    exists_course backend users ((s.verifyFor request token .access).run backend w)
  obtain ⟨ran, saw⟩ := authenticate_course backend request token users w faultless served course
  rw [ran, saw]
  exact course.outcome

/-- A verification ends with its verdict, unless counting it overruns. -/
theorem run_verifyFor {w : World Memory} (limits : s.HasLimits) (closed : w.breaker.state = .initial)
    (fine : ¬ s.CounterOverruns w request (s.verdictOn w token .access)) :
    ((s.verifyFor request token .access).run Memory.backend w).1 =
      .value (s.verdictTo w request token .access) := by
  have verifies : (s.verifyFor request token .access).Yields w _ := TokenService.returns_verifyFor limits closed
  obtain ⟨r, w', returns, ran⟩ := run_of_yields verifies
  rw [ran]
  cases returns with
  | value _ given _ =>
      rw [given.1]
      rfl
  | overran overruns => exact absurd overruns fine

end Calls

/-- Adapters are sound as they are made of settings and stay so when they are used, and this is what a sound one
does. Where its service cannot be made, an authentication says so and asks nothing. Otherwise it admits exactly
those whose token is accepted, has the number of a user as its subject, and whose user is found under it and
active; for every other case there is an error of its own, and a user is looked up only for such a token, once.
Over a cache in memory without failures the verification ends with its verdict, unless counting that overruns.
An access token that was made for a user vouches for that user. -/
theorem authenticates : (∀ settings backend, Sound { settings, backend }) ∧ ∀ a : Adapter, a.Sound →
    a.afterUse.Sound ∧
    (∀ f, a.fault? = some f → ∀ {σ υ : Type} (backend : Cache.Backend σ) (request : RequestContext)
      (token : String) (users : UserDirectory υ) (w : World σ),
      (a.authenticate request token users).run backend w = (.fault f, w) ∧
        (a.authenticate request token users).history backend w = []) ∧
    (∀ e, a.fault? = none → a.service = .error e → ∀ {σ υ : Type} (backend : Cache.Backend σ)
      (request : RequestContext) (token : String) (users : UserDirectory υ) (w : World σ),
      (a.authenticate request token users).run backend w = (.value (.error e), w) ∧
        (a.authenticate request token users).history backend w = []) ∧
    (∀ s, a.fault? = none → a.service = .ok s →
      (∀ {σ υ : Type} (backend : Cache.Backend σ) (request : RequestContext) (token : String)
        (users : UserDirectory υ) (w : World σ),
        Authenticates backend users ((s.verifyFor request token .access).run backend w)
          ((s.verifyFor request token .access).history backend w)
          ((a.authenticate request token users).run backend w)
          ((a.authenticate request token users).history backend w)) ∧
      (∀ (request : RequestContext) (token : String) (w : World Memory), w.breaker.state = .initial →
        ¬ s.CounterOverruns w request (s.verdictOn w token .access) →
        ((s.verifyFor request token .access).run Memory.backend w).1 =
          .value (s.verdictTo w request token .access)) ∧
      ∀ {σ : Type} (backend : Cache.Backend σ) (w w' : World σ) (userId : Int64) (email : String)
        (roles : List String) (token : String), 0 ≤ (w.clock w.now).toInt →
        (a.generateAccessToken userId email roles).run backend w = (.value (.ok token), w') →
        a.afterUse.Vouches s token (w.clock w.now) userId email roles) := by
  refine ⟨sound_new, fun a sound => ⟨sound.afterUse, ?_, ?_, fun s faultless served => ⟨?_, ?_, ?_⟩⟩⟩
  · intro f faults σ υ backend request token users w
    rw [authenticate_of_fault faults]
    exact ⟨rfl, rfl⟩
  · intro e faultless unserved σ υ backend request token users w
    rw [authenticate_of_error faultless unserved]
    exact ⟨rfl, rfl⟩
  · exact fun backend request token users w => authenticates_of_served backend w faultless served
  · exact fun request token w closed fine => run_verifyFor (sound s served).2 closed fine
  · intro σ backend w w' userId email roles token nonneg ran
    exact vouches_of_generate sound faultless served nonneg ran

end Adapter

/-! ### A user with a negative number -/

namespace Sample

open Adapter TokenService TokenAuthority.Action

/-- An adapter whose service was made. -/
def clerk : Adapter := { settings := unforgiving, backend := "memory", made := some service }

/-- A directory that knows one user. -/
def staff : UserDirectory String where
  find n := return .ok (if n = -7 then some "a" else none)
  isActive _ := true

theorem sound_clerk : clerk.Sound := by
  rintro s ⟨⟩
  exact ⟨by decide, fun t impossible => by cases impossible⟩

/-- What the token of the user says. -/
def clerkCredential : Credential :=
  draft .access (Adapter.subject (-7) "a@b.com" ["admin"]) none 0 900 (idOf dealt.random 0)

/-- The world in which it has been made. -/
def served : World Memory := { dealt with draws := 1, counts := dealt.counts.record (.issued .access) }

theorem clerkToken_generated : ∃ token, service.codec.encode service.keys clerkCredential = .ok token ∧
    (clerk.generateAccessToken (-7) "a@b.com" ["admin"]).run Memory.backend dealt =
      (.value (.ok token), served) := by
  have flawless : clerkCredential.flaw? = none := by decide +kernel
  obtain ⟨token, made, _⟩ := Codec.exists_encode service.codec matches_keys flawless (by decide)
  refine ⟨token, made, run_of_answers Memory.backend ?_⟩
  have minted : (service.issueAccessToken (Adapter.subject (-7) "a@b.com" ["admin"])).answers? dealt = _ :=
    answers_now.trans (answers_mint (by decide +kernel : service.lifetime .access = .ok 900))
  have encoded : service.codec.encode service.keys (draft .access (Adapter.subject (-7) "a@b.com" ["admin"]) none
      (dealt.clock dealt.now) 900 (idOf dealt.random dealt.draws)) = .ok token := made
  rw [encoded] at minted
  rw [generateAccessToken, withService_eq rfl rfl, answers_bind minted]
  rfl

/-- The user presents a token that was made for them, and is admitted, but not for a refresh; who presents what is
no token is rejected, and nobody is looked up. -/
theorem authenticates_clerk : ∃ token,
    (clerk.generateAccessToken (-7) "a@b.com" ["admin"]).run Memory.backend dealt = (.value (.ok token), served) ∧
    (∃ i, ((clerk.afterUse.verifyAccessToken token).run Memory.backend served).1 = .value (some i) ∧
      i.userId = -7 ∧ i.email = "a@b.com" ∧ i.roles = ["admin"]) ∧
    (∀ i, ((clerk.afterUse.verifyRefreshToken token).run Memory.backend served).1 ≠ .value (some i)) ∧
    (∃ i, ((clerk.authenticate request token staff).run Memory.backend served).1 = .value (.ok (i, "a"))) ∧
    ((clerk.authenticate request "forged" staff).run Memory.backend served).1 =
      .value (.error (.rejected .malformedToken)) ∧
    (clerk.authenticate request "forged" staff).history Memory.backend served =
      (service.verifyFor request "forged" .access).history Memory.backend served := by
  obtain ⟨token, made, generated⟩ := clerkToken_generated
  obtain ⟨_, _, _, serves⟩ := authenticates.2 clerk sound_clerk
  obtain ⟨authenticated, verified, vouches⟩ := serves service rfl rfl
  have vouched := vouches Memory.backend dealt served (-7) "a@b.com" ["admin"] token (by decide) generated
  have agrees : service.keys.Agrees := KeyMaterial.agrees_of_own fun _ _ impossible => by cases impossible
  have valid : served.cache.Valid := Cache.Memory.valid_empty _
  have absent (k : String) : ¬ served.cache.Holds served.now k := Cache.Memory.not_holds_empty _ _ k
  have fine (token : String) :
      ¬ service.CounterOverruns served request (service.verdictOn served token .access) := by
    rintro ⟨_, t, client, impossible, _⟩
    cases impossible
  have forged : ((service.verifyFor request "forged" .access).run Memory.backend served).1 =
      .value (.rejected .malformedToken .received) := by
    rw [verified request "forged" served rfl (fine "forged")]
    exact congrArg Ending.value (by decide +kernel)
  have accepted : ((service.verifyFor request token .access).run Memory.backend served).1 =
      .value (.accepted clerkCredential) := by
    obtain ⟨named, _, current⟩ := decode_made agrees made (by decide)
    obtain ⟨k, keyed⟩ := key_idOf service.store named
    have verdict : service.verdictOn served token .access = _ := verdictOn_eq (current (by decide)) rfl keyed
    rw [verified request token served rfl (fine token)]
    exact congrArg Ending.value verdict
  refine ⟨token, generated, vouched.presents agrees served valid rfl rfl fun c k _ _ => absent k, ?_, ?_, ?_, ?_⟩
  · exact fun i => vouched.refused Memory.backend served i
  · have presents : Identity.Of ⟨-7, "a@b.com", ["admin"], _, _, none⟩ clerkCredential :=
      ⟨Integer.numeral_toString _, rfl, rfl, rfl, rfl, rfl⟩
    exact ⟨_, ((authenticated Memory.backend request token staff served).admits _ _).mpr
      ⟨⟨clerkCredential, accepted, presents⟩, rfl, rfl⟩⟩
  · exact ((authenticated Memory.backend request "forged" staff served).rejects _).mpr (.inl ⟨_, forged⟩)
  · refine ((authenticated Memory.backend request "forged" staff served).spares fun i => ?_).1
    rw [forged]
    exact not_presents fun _ impossible => by cases impossible

end Sample

end TokenAuthority
