import TokenAuthority.Proofs.Revocation.Store
import TokenAuthority.Service.Verification

/-!
# What a verification sees

A verification asks the throttle, reads the service clock once, looks the token up if it is current and
of the expected kind, and counts its verdict.

* `TokenService.Judged` — all histories up to the verdict, with the verdict that goes with each.
* `TokenService.Verified` — all histories of a whole verification.
* `TokenService.ensures_verifyFor` — a verification sees one of these and nothing else.
-/

namespace TokenAuthority

/-- The event is the answer of the cache that an entry was there already. -/
def Event.IsLost (e : Event) : Prop :=
  ∃ time key value ttl ds, e = .ended time (.cache (.setIfAbsent key value ttl)) ds (.ok (.ok false))

/-- The event counts an issued token. -/
def Event.IsIssue (e : Event) : Prop :=
  ∃ time kind x, e = .answered time (.count (.issued kind)) x

/-- The event neither stores an entry nor counts an issued token. -/
def Event.IsHarmless (e : Event) : Prop :=
  (∀ key value ttl, ¬ e.Ends (.setIfAbsent key value ttl)) ∧ ¬ e.IsIssue

/-- An answer that an entry was there already ends the call to store one. -/
theorem Event.IsHarmless.not_lost {e : Event} (harmless : e.IsHarmless) : ¬ e.IsLost := by
  rintro ⟨time, key, value, ttl, ds, rfl⟩
  exact harmless.1 key value ttl ⟨time, ds, _, rfl⟩

theorem Event.harmless_of_plain {time : Instant} {q : Query} {x : q.Answer}
    (plain : q.isPlain = true) : (Event.answered time q x).IsHarmless := by
  refine ⟨fun _ _ _ => Event.not_ends_answered, ?_⟩
  rintro ⟨_, kind, _, same⟩
  cases same
  cases plain

/-- The events of a call of the store are harmless unless it stores an entry. -/
theorem Event.IsOf.harmless {call : Cache.Request} {e : Event} (of : e.IsOf call)
    (other : ∀ key value ttl, call ≠ .setIfAbsent key value ttl) : e.IsHarmless := by
  constructor
  · rintro key value ttl ⟨time, ds, x, rfl⟩
    rcases of with same | ⟨s, impossible⟩
    · exact other key value ttl (Wait.cache.inj same).symm
    · cases impossible
  · rintro ⟨time, kind, x, rfl⟩
    rcases of with ⟨_, plain⟩ | impossible
    · cases plain
    · cases impossible

namespace TokenService

open TokenAuthority.Action

/-- The throttle may make this cache call for a request. -/
def Throttles (s : TokenService) (request : RequestContext) (call : Cache.Request) : Prop :=
  ∃ throttle client, s.throttled? request = some (throttle, client) ∧
    (call = .get (throttle.key client) ∨
      call = .increment (throttle.key client) throttle.window)

/-- The event may be seen on behalf of the throttle. -/
def SeesThrottle (s : TokenService) (request : RequestContext) (e : Event) : Prop :=
  (∃ time t, e = .answered time .timer t) ∨ ∃ call, s.Throttles request call ∧ e.Ends call

variable {s : TokenService} {request : RequestContext} {token : String} {expected : TokenKind}
  {R : Rule} {ds : List Nat} {h : History}

theorem SeesThrottle.harmless {e : Event} (seen : s.SeesThrottle request e) : e.IsHarmless := by
  rcases seen with ⟨time, t, rfl⟩ | ⟨call, ⟨throttle, client, _, made⟩, time, ds, x, rfl⟩
  · exact Event.harmless_of_plain rfl
  · refine ⟨?_, fun ⟨_, _, _, impossible⟩ => by cases impossible⟩
    rintro key value ttl ⟨time', ds', x', same⟩
    simp only [Event.ended.injEq, Wait.cache.injEq] at same
    rcases made with rfl | rfl <;> exact absurd same.2.1 (fun impossible => by cases impossible)

/-- A call on a counter sees nothing but events of the throttle. -/
theorem ensures_onCounter {call : Cache.Request} (known : s.Throttles request call)
    (lenient : R.Lenient)
    (throttles : ∀ tail, (∀ e ∈ tail, e.IsHarmless) → ∀ call time d ds x, s.Throttles request call →
      R.event (h ++ tail) (.ended time (.cache call) (d :: ds) x)) :
    (Throttle.onCounter call).Ensures R ds h fun tail _ => ∀ e ∈ tail, s.SeesThrottle request e := by
  refine (Cache.ensures_limited (fun time x => lenient.asks _ time _ x rfl) ?_).mono ?_
  · intro asked begun time x
    have timer : (Event.answered asked .timer begun).IsHarmless := Event.harmless_of_plain rfl
    exact throttles _ (List.forall_mem_singleton.mpr timer) call time _ _ x known
  · intro tail r seen e he
    rcases seen.events e he with timer | ends
    · exact .inl timer
    · exact .inr ⟨call, known, ends⟩

theorem ensures_isTurnedAway (lenient : R.Lenient)
    (throttles : ∀ tail, (∀ e ∈ tail, e.IsHarmless) → ∀ call time d ds x, s.Throttles request call →
      R.event (h ++ tail) (.ended time (.cache call) (d :: ds) x)) :
    (s.isTurnedAway request).Ensures R ds h fun tail _ => ∀ e ∈ tail, s.SeesThrottle request e := by
  unfold isTurnedAway
  match found : s.throttled? request with
  | none => exact Ensures.done (by simp)
  | some (throttle, client) =>
      have counted : (Throttle.onCounter (.get (throttle.key client))).Ensures R ds h fun tail _ =>
          ∀ e ∈ tail, s.SeesThrottle request e :=
        ensures_onCounter ⟨throttle, client, found, .inl rfl⟩ lenient throttles
      refine Ensures.bind (fun tail _ => ∀ e ∈ tail, s.SeesThrottle request e)
        (Ensures.bind _ counted ?_ fun tail i seen => seen) ?_ fun tail i seen => seen
      · intro tail x seen
        rcases x with _ | _ | _ <;> exact Ensures.done (by simpa using seen)
      · exact fun tail x seen => Ensures.done (by simpa using seen)

/-- The event may be seen while a verdict is counted. -/
def SeesObserved (s : TokenService) (request : RequestContext) (expected : TokenKind)
    (verdict : Verdict) (e : Event) : Prop :=
  (∃ time, e = .answered time (.count (.verification expected verdict.reason?)) ()) ∨
    s.SeesThrottle request e

theorem SeesObserved.harmless {verdict : Verdict} {e : Event}
    (seen : s.SeesObserved request expected verdict e) : e.IsHarmless := by
  rcases seen with ⟨time, rfl⟩ | throttle
  · exact Event.harmless_of_plain rfl
  · exact throttle.harmless

theorem ensures_observe {verdict : Verdict} (lenient : R.Lenient)
    (throttles : ∀ tail, (∀ e ∈ tail, e.IsHarmless) → ∀ call time d ds x, s.Throttles request call →
      R.event (h ++ tail) (.ended time (.cache call) (d :: ds) x)) :
    (s.observe request expected verdict).Ensures R ds h fun tail _ =>
      ∀ e ∈ tail, s.SeesObserved request expected verdict e := by
  unfold observe
  refine Ensures.ask (fun time x => lenient.asks _ time _ x rfl) fun time _ => ?_
  have counts : s.SeesObserved request expected verdict
      (.answered time (.count (.verification expected verdict.reason?)) ()) := .inl ⟨time, rfl⟩
  have silent : (Action.done ()).Ensures R ds
      (h ++ [.answered time (.count (.verification expected verdict.reason?)) ()]) fun tail _ =>
        ∀ e ∈ .answered time (.count (.verification expected verdict.reason?)) () :: tail,
          s.SeesObserved request expected verdict e :=
    Ensures.done (by simpa using counts)
  cases suspicious : verdict.reason?.any FailureReason.isSuspicious with
  | false => exact silent
  | true =>
      simp only [if_true]
      match found : s.throttled? request with
      | none => exact silent
      | some (throttle, client) =>
          let seen (tail : History) : Prop := ∀ e ∈ tail, s.SeesThrottle request e
          have counted : (Throttle.onCounter (.increment (throttle.key client) throttle.window)).Ensures
              R ds (h ++ [.answered time (.count (.verification expected verdict.reason?)) ()])
              fun tail _ => seen tail :=
            ensures_onCounter ⟨throttle, client, found, .inr rfl⟩ lenient fun tail harmless => by
              rw [List.append_assoc]
              exact throttles (_ :: tail)
                (List.forall_mem_cons.mpr ⟨Event.harmless_of_plain rfl, harmless⟩)
          have known {tail : History} (all : seen tail) : ∀ e ∈
              .answered time (.count (.verification expected verdict.reason?)) () :: tail,
              s.SeesObserved request expected verdict e :=
            List.forall_mem_cons.mpr ⟨counts, fun e he => .inr (all e he)⟩
          refine Ensures.bind (fun tail _ => seen tail)
            (Ensures.bind (fun tail _ => seen tail) counted ?_ fun tail i all => all) ?_
            fun tail i all => known all
          · intro tail x all
            rcases x with _ | _ <;> exact Ensures.done (by simpa using all)
          · exact fun tail x all => Ensures.done (by simpa using known all)

/-! ### The verdict -/

/-- What is seen of the look-up of a credential, and the verdict. -/
inductive Checked (s : TokenService) (c : Credential) (ds : List Nat) :
    History → Except Interruption Verdict → Prop where
  | answered (asked opened : Instant) {h : History} {x : Except Revocation.Error Bool} :
      s.store.LooksUp c.tokenId (opened.deadlineTick s.policy.revocationCheckTimeout :: ds) h (.ok x) →
      Checked s c ds (.answered asked .timer opened :: h) (.ok (.ofLookup c (.ok x)))
  | late (asked opened : Instant) {h : History} :
      s.store.LooksUp c.tokenId (opened.deadlineTick s.policy.revocationCheckTimeout :: ds) h
        (.error (.deadline 0)) →
      Checked s c ds (.answered asked .timer opened :: h)
        (.ok (.ofLookup c (.error ⟨s.policy.revocationCheckTimeout⟩)))
  | cut (asked opened : Instant) {h : History} {i : Nat} :
      s.store.LooksUp c.tokenId (opened.deadlineTick s.policy.revocationCheckTimeout :: ds) h
        (.error (.deadline (i + 1))) →
      Checked s c ds (.answered asked .timer opened :: h) (.error (.deadline i))
  | faulty (asked opened : Instant) {h : History} {f : Fault} :
      s.store.LooksUp c.tokenId (opened.deadlineTick s.policy.revocationCheckTimeout :: ds) h
        (.error (.fault f)) →
      Checked s c ds (.answered asked .timer opened :: h) (.error (.fault f))

/-- What is seen of a verification up to its verdict, and the verdict. -/
inductive Judged (s : TokenService) (request : RequestContext) (token : String)
    (expected : TokenKind) (ds : List Nat) : History → Except Interruption Verdict → Prop where
  | turnedAway {h : History} :
      (∀ e ∈ h, s.SeesThrottle request e) →
      Judged s request token expected ds h (.ok (.rejected .rateLimited .received))
  | abandoned {h : History} {i : Interruption} :
      (∀ e ∈ h, s.SeesThrottle request e) → Judged s request token expected ds h (.error i)
  | undecodable {h : History} (time : Instant) {now : Int64} {e : DecodeError} :
      (∀ e ∈ h, s.SeesThrottle request e) → s.codec.decode s.keys token now = .error e →
      Judged s request token expected ds (h ++ [.answered time .clock now]) (.ok (.ofDecodeError e))
  | otherKind {h : History} (time : Instant) {now : Int64} {c : Credential} :
      (∀ e ∈ h, s.SeesThrottle request e) → s.codec.decode s.keys token now = .ok c →
      c.kind ≠ expected →
      Judged s request token expected ds (h ++ [.answered time .clock now])
        (.ok (.rejected .wrongTokenType .expiryChecked))
  | checked {h check : History} (time : Instant) {now : Int64} {c : Credential}
      {r : Except Interruption Verdict} :
      (∀ e ∈ h, s.SeesThrottle request e) → s.codec.decode s.keys token now = .ok c →
      c.kind = expected → s.Checked c ds check r →
      Judged s request token expected ds (h ++ .answered time .clock now :: check) r

theorem Checked.harmless {c : Credential} {r : Except Interruption Verdict} (seen : s.Checked c ds h r) :
    ∀ e ∈ h, e.IsHarmless := by
  have all {asked opened : Instant} {lookup : History} {ds : List Nat}
      {r : Except Interruption (Except Revocation.Error Bool)} (looked : s.store.LooksUp c.tokenId ds lookup r) :
      ∀ e ∈ .answered asked .timer opened :: lookup, e.IsHarmless := by
    refine List.forall_mem_cons.mpr ⟨Event.harmless_of_plain rfl, fun e he => ?_⟩
    obtain ⟨k, _, of⟩ := looked.events e he
    exact of.harmless fun _ _ _ impossible => by cases impossible
  cases seen with
  | answered asked opened looked => exact all looked
  | late asked opened looked => exact all looked
  | cut asked opened looked => exact all looked
  | faulty asked opened looked => exact all looked

/-- The events of a verification up to its verdict are harmless. -/
theorem Judged.harmless {r : Except Interruption Verdict} (seen : s.Judged request token expected ds h r) :
    ∀ e ∈ h, e.IsHarmless := by
  have told {time : Instant} {now : Int64} : (Event.answered time .clock now).IsHarmless :=
    Event.harmless_of_plain rfl
  have throttled {before : History} (sees : ∀ e ∈ before, s.SeesThrottle request e) :
      ∀ e ∈ before, e.IsHarmless := fun e he => (sees e he).harmless
  cases seen with
  | turnedAway sees => exact throttled sees
  | abandoned sees => exact throttled sees
  | undecodable time sees _ =>
      exact List.forall_mem_append.mpr ⟨throttled sees, List.forall_mem_singleton.mpr told⟩
  | otherKind time sees _ _ =>
      exact List.forall_mem_append.mpr ⟨throttled sees, List.forall_mem_singleton.mpr told⟩
  | checked time sees _ _ checked =>
      exact List.forall_mem_append.mpr
        ⟨throttled sees, List.forall_mem_cons.mpr ⟨told, checked.harmless⟩⟩

/-- What a lenient rule has to allow for a verification to keep to it. -/
structure AllowsVerification (s : TokenService) (R : Rule) (request : RequestContext)
    (token : String) (h : History) : Prop where
  throttles : ∀ tail, (∀ e ∈ tail, e.IsHarmless) → ∀ call time d ds x, s.Throttles request call →
    R.event (h ++ tail) (.ended time (.cache call) (d :: ds) x)
  looks : ∀ tail, (∀ e ∈ tail, e.IsHarmless) → ∀ time now c k, Event.answered time .clock now ∈ tail →
    s.codec.decode s.keys token now = .ok c → s.store.key c.tokenId = .ok k →
    s.store.Allows R (.contains k) (h ++ tail)

theorem allowsVerification_free : s.AllowsVerification Rule.free request token h :=
  ⟨fun _ _ _ _ _ _ _ _ => trivial, fun _ _ _ _ _ _ _ _ _ => Revocation.Store.allows_free⟩

/-- The look-up of a credential sees one of its histories. -/
theorem ensures_checkRevocation {c : Credential} (lenient : R.Lenient)
    (looks : ∀ tail, (∀ e ∈ tail, e.IsHarmless) → ∀ k, s.store.key c.tokenId = .ok k →
      s.store.Allows R (.contains k) (h ++ tail)) :
    (s.checkRevocation c).Ensures R ds h (s.Checked c ds) := by
  unfold checkRevocation withTimeout
  let bounded (tail : History) (r : Except Interruption (Option (Except Revocation.Error Bool))) : Prop :=
    s.Checked c ds tail (match r with
      | .ok (some x) => .ok (.ofLookup c (.ok x))
      | .ok none => .ok (.ofLookup c (.error ⟨s.policy.revocationCheckTimeout⟩))
      | .error i => .error i)
  let told (tail : History) (r : Except Interruption (Except TimeoutError (Except Revocation.Error Bool))) :
      Prop :=
    s.Checked c ds tail (r.map (.ofLookup c))
  refine Ensures.bind told (Ensures.bind bounded ?_ ?_ fun tail i seen => seen) ?_ fun tail i seen => seen
  · refine Ensures.timeout (fun time t => lenient.asks _ time _ t rfl) fun asked opened => ?_
    have timer : (Event.answered asked .timer opened).IsHarmless := Event.harmless_of_plain rfl
    refine (Revocation.Store.ensures_onKey lenient
      (looks _ (List.forall_mem_singleton.mpr timer))).mono ?_
    intro tail r seen
    rcases r with ((_ | i) | f) | x
    · exact .late asked opened seen
    · exact .cut asked opened seen
    · exact .faulty asked opened seen
    · exact .answered asked opened seen
  · intro tail x seen
    cases x with
    | some x => exact Ensures.done (by simpa [told, Except.map] using seen)
    | none => exact Ensures.done (by simpa [told, Except.map] using seen)
  · exact fun tail x seen => Ensures.done (by simpa [told, Except.map] using seen)

/-- A verification up to its verdict sees one of its histories. -/
theorem ensures_judge (lenient : R.Lenient) (allows : s.AllowsVerification R request token h) :
    (s.judge request token expected).Ensures R ds h (s.Judged request token expected ds) := by
  unfold judge
  refine Ensures.bind _ (ensures_isTurnedAway lenient allows.throttles) ?_
    fun tail i seen => .abandoned seen
  intro tail away seen
  cases away with
  | true => exact Ensures.done (by simpa using .turnedAway seen)
  | false =>
      refine Ensures.ask (fun time x => lenient.asks _ time _ x rfl) fun time now => ?_
      cases decoded : s.codec.decode s.keys token now with
      | error e => exact Ensures.done (.undecodable time seen decoded)
      | ok c =>
          simp only
          by_cases kind : c.kind = expected
          · rw [if_pos kind]
            refine (ensures_checkRevocation lenient fun tail' harmless k key => ?_).mono ?_
            · rw [List.append_assoc, List.append_assoc]
              refine allows.looks _ (List.forall_mem_append.mpr
                ⟨fun e he => (seen e he).harmless, List.forall_mem_cons.mpr ⟨?_, harmless⟩⟩)
                time now c k (by simp) decoded key
              exact Event.harmless_of_plain rfl
            · exact fun check r checked => .checked time seen decoded kind checked
          · rw [if_neg kind]
            exact Ensures.done (.otherKind time seen decoded kind)

/-! ### The whole verification -/

/-- What is seen of a verification, and its verdict. -/
inductive Verified (s : TokenService) (request : RequestContext) (token : String)
    (expected : TokenKind) (ds : List Nat) : History → Except Interruption Verdict → Prop where
  | judged {h observed : History} {verdict : Verdict} :
      s.Judged request token expected ds h (.ok verdict) →
      (∀ e ∈ observed, s.SeesObserved request expected verdict e) →
      Verified s request token expected ds (h ++ observed) (.ok verdict)
  | abandoned {h : History} {i : Interruption} :
      s.Judged request token expected ds h (.error i) →
      Verified s request token expected ds h (.error i)
  | abandonedLate {h observed : History} {verdict : Verdict} {i : Interruption} :
      s.Judged request token expected ds h (.ok verdict) →
      (∀ e ∈ observed, s.SeesObserved request expected verdict e) →
      Verified s request token expected ds (h ++ observed) (.error i)

theorem Verified.harmless {r : Except Interruption Verdict} (seen : s.Verified request token expected ds h r) :
    ∀ e ∈ h, e.IsHarmless := by
  cases seen with
  | judged judged observes =>
      exact List.forall_mem_append.mpr ⟨judged.harmless, fun e he => (observes e he).harmless⟩
  | abandoned judged => exact judged.harmless
  | abandonedLate judged observes =>
      exact List.forall_mem_append.mpr ⟨judged.harmless, fun e he => (observes e he).harmless⟩

/-- A verdict that a token is accepted or revoked is one on a credential that was decoded at a time that
was read, is of the expected kind, and was looked up with an answer. -/
theorem Verified.answered {verdict : Verdict}
    (seen : s.Verified request token expected ds h (.ok verdict))
    (told : verdict.reason? = none ∨ verdict.reason? = some .tokenRevoked) :
    ∃ time now c lookup ds' found, Event.answered time .clock now ∈ h ∧
      s.codec.decode s.keys token now = .ok c ∧ c.kind = expected ∧
      s.store.LooksUp c.tokenId ds' lookup (.ok (.ok found)) ∧ (∀ e ∈ lookup, e ∈ h) ∧
      verdict = .ofLookup c (.ok (.ok found)) := by
  have unanswered {stage : Stage} (same : verdict = .rejected .revocationCheckUnavailable stage) :
      False := by
    subst same
    rcases told with told | told <;> cases told
  cases seen with
  | judged judged _ =>
      cases judged with
      | turnedAway => rcases told with told | told <;> cases told
      | otherKind => rcases told with told | told <;> cases told
      | @undecodable _ _ _ e =>
          rcases told with told | told
          · cases told
          · cases e <;> cases told
      | @checked _ _ time now c _ _ decoded kind checked =>
          generalize outcome : (Except.ok verdict : Except Interruption Verdict) = r at checked
          cases checked with
          | @answered asked opened lookup x looked =>
              cases outcome
              cases x with
              | error e => exact (unanswered rfl).elim
              | ok found =>
                  refine ⟨time, now, c, lookup, _, found, ?_, decoded, kind, looked, ?_, rfl⟩
                  · simp
                  · exact fun e mem => by simp [mem]
          | late =>
              cases outcome
              exact (unanswered rfl).elim
          | cut => cases outcome
          | faulty => cases outcome

theorem ensures_verifyFor (lenient : R.Lenient)
    (allows : s.AllowsVerification R request token h) :
    (s.verifyFor request token expected).Ensures R ds h
      (s.Verified request token expected ds) := by
  unfold verifyFor
  refine Ensures.bind _ (ensures_judge lenient allows) ?_ fun tail i cut => .abandoned cut
  intro tail verdict judged
  refine Ensures.bind _ (ensures_observe lenient fun tail' harmless => ?_) ?_ ?_
  · rw [List.append_assoc]
    exact allows.throttles (tail ++ tail') (List.forall_mem_append.mpr ⟨judged.harmless, harmless⟩)
  · exact fun observed _ seen => Ensures.done (by simpa using .judged judged seen)
  · exact fun observed i seen => .abandonedLate judged seen

end TokenService

end TokenAuthority
