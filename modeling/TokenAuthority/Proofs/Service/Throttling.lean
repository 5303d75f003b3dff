import TokenAuthority.Proofs.Cache.Counter
import TokenAuthority.Proofs.Service.Prompt

/-!
# A service with a throttle, over a cache in memory

Under the key of each client lies the counter of its suspicious failures. A client that has as many in its
open window as it may is turned away; every other call ends as it would without a throttle. None of this
depends on the breaker, which calls that ended in a fault may have opened.

* `Throttle.Tallies` — the cache holds the counters of all clients.
* `Throttle.counted` — what has been counted after a call.
* `TokenService.VerdictFor` — the verdict on a token, when so much has been counted.
* `TokenService.yields_call_tallied` — a call is rate-limited exactly if its client is at the limit, and it
  counts once more for its client exactly if it is rejected as suspicious.
-/

namespace TokenAuthority

open TokenAuthority.Action
open Cache (Memory Request Window)

namespace Throttle

variable {throttle : Throttle} {w w' : World Memory} {client : String} {x? : Option Window}
  {xs : String → Option Window}

/-! ### The counter of a client -/

/-- A call on a counter is one cache call. -/
theorem yields_onCounter {request : Request} {a : request.Answer} {m : Memory}
    (performs : w.cache.perform w.now request = .ok (a, m)) :
    (onCounter request).Yields w fun r w' => r = .ok a ∧ w.Leaves m w' := by
  refine Yields.withTimeoutOr (Yields.cache ?_ ?_)
  · intro a' m' performs'
    cases performs.symm.trans performs'
    exact ⟨rfl, rfl, rfl, id, rfl⟩
  · intro e fails
    cases performs.symm.trans fails

/-- What the counter of a client reads. -/
def count (throttle : Throttle) (w : World Memory) (client : String) : UInt64 :=
  ((w.cache.live? w.now (throttle.key client)).bind fun e => Integer.uint64? e.value).getD 0

/-- A client is turned away if its counter reads as much as it may. -/
theorem yields_turnsAway : (throttle.isThrottled client).Yields w
    (w.Gives (decide (throttle.maxFailures ≤ throttle.count w client))) := by
  have failures : (throttle.failures client).Yields w (w.Gives (throttle.count w client)) := by
    unfold count
    refine Yields.bind _ (yields_onCounter rfl) ?_ ?_
    · rintro _ w' ⟨same, leaves⟩
      cases same
      cases w.cache.live? w.now (throttle.key client) with
      | none => exact Yields.done ⟨rfl, leaves⟩
      | some e => exact Yields.done ⟨rfl, leaves⟩
    · rintro e w' ⟨impossible, _⟩
      cases impossible
  exact Yields.gives failures fun w' leaves => Yields.done ⟨rfl, leaves⟩

/-- A client is turned away if it has as many failures in its open window as it may. -/
theorem yields_isThrottled (counts : w.cache.Counts w.now (throttle.key client) throttle.window x?)
    (fits : Window.countAt throttle.window w.now x? < 2 ^ 64) :
    (throttle.isThrottled client).Yields w
      (w.Gives (decide (throttle.maxFailures.toNat ≤ Window.countAt throttle.window w.now x?))) := by
  have same : decide (throttle.maxFailures.toNat ≤ Window.countAt throttle.window w.now x?) =
      decide (throttle.maxFailures ≤ throttle.count w client) := by
    rw [count, counts.read fits]
    refine decide_eq_decide.mpr ?_
    rw [UInt64.le_iff_toNat_le, UInt64.toNat_ofNat_of_lt' fits]
  rw [same]
  exact yields_turnsAway

/-- Recording a failure counts once more for its client, and leaves the other keys. -/
theorem yields_recordFailure (counts : w.cache.Counts w.now (throttle.key client) throttle.window x?)
    (valid : w.cache.Valid) (whole : Span.ofSecs throttle.window.lifetimeSecs = throttle.window)
    (inRange : (w.now.after? throttle.window).isSome)
    (fits : Window.countAt throttle.window w.now x? + 1 < 2 ^ 64) :
    (throttle.recordFailure client).Yields w fun r w' => ∃ n m, r = .ok (some n) ∧ w.Leaves m w' ∧ m.Valid ∧
      m.Counts w.now (throttle.key client) throttle.window
        (some (Window.note throttle.window w.now x?)) ∧
      ∀ k t, k ≠ throttle.key client → w.now ≤ t → m.live? t k = w.cache.live? t k := by
  obtain ⟨n, m, counted, valid', counts', others⟩ := counts.increment valid whole inRange fits
  have performs : w.cache.perform w.now (.increment (throttle.key client) throttle.window) =
      .ok (.ok n, m) := counted
  refine Yields.bind _ (yields_onCounter performs) ?_ ?_
  · rintro _ w' ⟨same, leaves⟩
    cases same
    exact Yields.done ⟨n, m, rfl, leaves, valid', counts', others⟩
  · rintro e w' ⟨impossible, _⟩
    cases impossible

/-! ### The counters of all clients -/

/-- Two clients have two keys. -/
theorem key_inj {client client' : String} : throttle.key client' = throttle.key client ↔ client' = client :=
  String.append_right_inj _

/-- The window of a client after a call: one that is for this client and is rejected as suspicious counts
once more, and no other call changes anything. -/
def counted (throttle : Throttle) (now : Instant) (client? : Option String) (reason? : Option FailureReason)
    (xs : String → Option Window) (client : String) : Option Window :=
  if client? = some client ∧ reason?.any FailureReason.isSuspicious then
    some (Window.note throttle.window now (xs client))
  else xs client

/-- Nothing is counted unless a client is rejected as suspicious. -/
theorem counted_of_harmless {now : Instant} {client? : Option String} {reason? : Option FailureReason}
    (harmless : client? = none ∨ reason?.any FailureReason.isSuspicious = false) :
    throttle.counted now client? reason? xs = xs := by
  funext client
  refine if_neg fun both => ?_
  rcases harmless with nobody | harmless
  · rw [nobody] at both
    cases both.1
  · rw [harmless] at both
    cases both.2

/-- The cache holds the counters of all clients, none of which has more failures than it may. -/
structure Tallies (throttle : Throttle) (xs : String → Option Window) (w : World Memory) : Prop where
  valid : w.cache.Valid
  counts : ∀ client, w.cache.Counts w.now (throttle.key client) throttle.window (xs client)
  bounded : ∀ client, ∀ x ∈ xs client, x.count ≤ throttle.maxFailures.toNat

namespace Tallies

/-- No client has more failures in its open window than it may. -/
theorem countAt_le (tallies : throttle.Tallies xs w) (now : Instant) (client : String) :
    Window.countAt throttle.window now (xs client) ≤ throttle.maxFailures.toNat := by
  cases has : xs client with
  | none => exact Nat.zero_le _
  | some x => exact Nat.le_trans Window.countAt_le (tallies.bounded client x has)

theorem fits (tallies : throttle.Tallies xs w) (client : String) :
    Window.countAt throttle.window w.now (xs client) < 2 ^ 64 :=
  Nat.lt_of_le_of_lt (tallies.countAt_le w.now client) throttle.maxFailures.toNat_lt

/-- What leaves the entries of the counters leaves the counters. -/
theorem of_live (tallies : throttle.Tallies xs w) (now : w'.now = w.now) (valid : w'.cache.Valid)
    (same : ∀ client t, w.now ≤ t →
      w'.cache.live? t (throttle.key client) = w.cache.live? t (throttle.key client)) :
    throttle.Tallies xs w' := by
  refine ⟨valid, fun client => ?_, tallies.bounded⟩
  rw [now]
  exact (tallies.counts client).of_live (same client)

theorem retains (tallies : throttle.Tallies xs w) (retains : w.Retains w') : throttle.Tallies xs w' := by
  refine tallies.of_live retains.now ?_ fun client t _ => ?_
  · rw [retains.cache]
    exact tallies.valid
  · rw [retains.cache]

theorem leaves (tallies : throttle.Tallies xs w) (leaves : w.Leaves w.cache w') : throttle.Tallies xs w' :=
  tallies.retains leaves.retains

/-- A cache call for a key that is no client's leaves the counters. -/
theorem perform {request : Request} {a : request.Answer} (tallies : throttle.Tallies xs w)
    (now : w'.now = w.now) (performs : w.cache.perform w.now request = .ok (a, w'.cache))
    (spares : ∀ client, ¬ request.Writes (throttle.key client)) : throttle.Tallies xs w' :=
  tallies.of_live now (Memory.perform_acts tallies.valid performs).1 fun client _ later =>
    Memory.live?_of_perform tallies.valid performs (spares client) later

theorem advance (tallies : throttle.Tallies xs w) (span : Span) : throttle.Tallies xs (w.advance span) :=
  ⟨tallies.valid, fun client => (tallies.counts client).later (Nat.le_add_right _ _), tallies.bounded⟩

/-- A client below its limit is counted once more. -/
theorem recordFailure (tallies : throttle.Tallies xs w) (client : String)
    (whole : Span.ofSecs throttle.window.lifetimeSecs = throttle.window)
    (inRange : (w.now.after? throttle.window).isSome) {reason? : Option FailureReason}
    (suspicious : reason?.any FailureReason.isSuspicious)
    (below : Window.countAt throttle.window w.now (xs client) < throttle.maxFailures.toNat) :
    (throttle.recordFailure client).Yields w fun r w' => (∃ n, r = .ok n) ∧
      throttle.Tallies (throttle.counted w.now (some client) reason? xs) w' := by
  have fits := Nat.lt_of_le_of_lt (Nat.succ_le_of_lt below) throttle.maxFailures.toNat_lt
  refine (yields_recordFailure (tallies.counts client) tallies.valid whole inRange fits).mono ?_
  rintro _ w' ⟨n, m, rfl, ⟨now, _, _, cache⟩, valid, counts, others⟩
  refine ⟨⟨_, rfl⟩, ?_, fun client' => ?_, fun client' => ?_⟩
  · rwa [cache]
  · rw [cache, now, counted]
    by_cases same : client' = client
    · subst same
      rwa [if_pos ⟨rfl, suspicious⟩]
    · rw [if_neg fun both => same (Option.some.inj both.1).symm]
      refine (tallies.counts client').of_live fun t later => ?_
      exact others _ t (fun equal => same (key_inj.mp equal)) later
  · rw [counted]
    split
    · rename_i both
      rw [← Option.some.inj both.1]
      rintro x ⟨⟩
      rw [Window.count_note]
      exact below
    · exact tallies.bounded client'

end Tallies

end Throttle

namespace TokenService

open Throttle (counted)

variable {s : TokenService} {throttle : Throttle} {w w' : World Memory} {request : RequestContext}
  {token client : String} {expected : TokenKind} {xs : String → Option Window}

/-- Failures are counted by a throttle, in windows of whole seconds, and no counter lies under the key of a
token. -/
structure ThrottledBy (s : TokenService) (throttle : Throttle) : Prop where
  has : s.throttle = some throttle
  whole : Span.ofSecs throttle.window.lifetimeSecs = throttle.window
  apart : ∀ tokenId k, s.store.key tokenId = .ok k → ∀ client, throttle.key client ≠ k

/-- The key spaces that a service has by default are apart. -/
theorem key_ne_of_default {tokenId k : String} (stored : s.store.keySpace = "token:blacklist")
    (counted : throttle.keySpace = "auth:verify_failures") (keyed : s.store.key tokenId = .ok k)
    (client : String) : throttle.key client ≠ k := by
  intro same
  unfold Revocation.Store.key at keyed
  split at keyed
  · cases keyed
  · rw [Throttle.key, counted, ← Except.ok.inj keyed, stored] at same
    have first := congrArg (fun text => text.toList.head?) same
    simp at first

/-- By default a throttle counts apart from the tokens. -/
theorem ThrottledBy.of_default {seconds : Nat} (has : s.throttle = some throttle)
    (stored : s.store.keySpace = "token:blacklist") (counted : throttle.keySpace = "auth:verify_failures")
    (lasts : throttle.window = Span.ofSecs seconds) (positive : 1 ≤ seconds) : s.ThrottledBy throttle := by
  refine ⟨has, ?_, fun tokenId k keyed => key_ne_of_default stored counted keyed⟩
  rw [lasts, Span.lifetimeSecs_ofSecs, Nat.max_eq_left positive]

/-- Storing the entry of a credential leaves the counters. -/
theorem tallies_of_stores {c : Credential} {stored : Bool} (throttled : s.ThrottledBy throttle)
    (tallies : throttle.Tallies xs w) (stores : s.Stores c w stored w') : throttle.Tallies xs w' := by
  obtain ⟨k, ttl, reason, m, keyed, _, performs, leaves⟩ := stores
  rw [← leaves.cache] at performs
  exact tallies.perform leaves.now performs fun client same => throttled.apart _ k keyed client same.symm

/-! ### Verifying -/

/-- No verdict that is reached through the token itself is that of the throttle. -/
theorem Judges.ne_rateLimited {verdict : Verdict} (judges : s.Judges w token expected false verdict) :
    verdict.reason? ≠ some .rateLimited := by
  cases judges with
  | refused _ => exact fun impossible => by cases impossible
  | judged =>
      unfold verdictOn
      split
      · rename_i e _
        cases e <;> exact fun impossible => by cases impossible
      · split
        · unfold Verdict.ofLookup
          split <;> exact fun impossible => by cases impossible
        · exact fun impossible => by cases impossible

/-- The verdicts on a token that may be given when so much has been counted. -/
inductive VerdictFor (s : TokenService) (throttle : Throttle) (xs : String → Option Window)
    (w : World Memory) (token : String) (expected : TokenKind) : Option String → Verdict → Prop where
  | turnedAway {client : String} :
      throttle.maxFailures.toNat ≤ Window.countAt throttle.window w.now (xs client) →
      VerdictFor s throttle xs w token expected (some client) (.rejected .rateLimited .received)
  | judged {client? : Option String} {verdict : Verdict} :
      (∀ client ∈ client?, Window.countAt throttle.window w.now (xs client) < throttle.maxFailures.toNat) →
      s.Judges w token expected false verdict → VerdictFor s throttle xs w token expected client? verdict

/-- A verification is rate-limited exactly if its client has as many failures as it may. -/
theorem VerdictFor.reason_iff {client? : Option String} {verdict : Verdict}
    (verdictFor : s.VerdictFor throttle xs w token expected client? verdict) :
    verdict.reason? = some .rateLimited ↔ ∃ client ∈ client?,
      throttle.maxFailures.toNat ≤ Window.countAt throttle.window w.now (xs client) := by
  cases verdictFor with
  | turnedAway full => exact ⟨fun _ => ⟨_, rfl, full⟩, fun _ => rfl⟩
  | judged below judges =>
      refine ⟨fun limited => absurd limited judges.ne_rateLimited, ?_⟩
      rintro ⟨client, of, full⟩
      exact absurd full (Nat.not_le_of_lt (below client of))

/-- The verdict that a client gets. -/
theorem Judges.verdictFor {verdict : Verdict} (judges : s.Judges w token expected
      (decide (throttle.maxFailures.toNat ≤ Window.countAt throttle.window w.now (xs client))) verdict) :
    s.VerdictFor throttle xs w token expected (some client) verdict := by
  by_cases full : throttle.maxFailures.toNat ≤ Window.countAt throttle.window w.now (xs client)
  · rw [decide_eq_true full] at judges
    cases judges
    exact .turnedAway full
  · rw [decide_eq_false full] at judges
    refine .judged (fun client' same => ?_) judges
    cases same
    exact Nat.lt_of_not_le full

/-- A client that is at its limit gets no suspicious verdict. -/
theorem VerdictFor.below {verdict : Verdict}
    (verdictFor : s.VerdictFor throttle xs w token expected (some client) verdict)
    (suspicious : verdict.reason?.any FailureReason.isSuspicious) :
    Window.countAt throttle.window w.now (xs client) < throttle.maxFailures.toNat := by
  cases verdictFor with
  | turnedAway _ => cases suspicious
  | judged below _ => exact below client rfl

/-- A token that is accepted has an identifier with a key. -/
theorem VerdictFor.keyed {client? : Option String} {verdict : Verdict} {c : Credential}
    (verdictFor : s.VerdictFor throttle xs w token expected client? verdict)
    (accepted : verdict = .accepted c) : ∃ k, s.store.key c.tokenId = .ok k := by
  cases verdictFor with
  | turnedAway _ => cases accepted
  | judged _ judges =>
      cases judges with
      | judged =>
          obtain ⟨k, _, keyed⟩ := decodes_of_verdictOn accepted
          exact ⟨k, keyed⟩
      | refused _ => cases accepted

/-- The verdict does not depend on what has been counted for operators and drawn before. -/
theorem VerdictFor.before {client? : Option String} {verdict : Verdict} (leaves : w.Leaves w.cache w')
    (verdictFor : s.VerdictFor throttle xs w' token expected client? verdict) :
    s.VerdictFor throttle xs w token expected client? verdict := by
  cases verdictFor with
  | turnedAway full =>
      rw [leaves.now] at full
      exact .turnedAway full
  | judged below judges =>
      rw [leaves.now] at below
      exact .judged below (judges.before leaves)

/-! ### Calls -/

/-- The client that a verification or a refresh is for. -/
def Call.client? : Call → Option String
  | .verify request _ _ => request.bind RequestContext.client
  | .refresh request _ => request.bind RequestContext.client
  | _ => none

/-- Why a verification or a refresh was rejected. -/
def Reply.reason? : Reply → Option FailureReason
  | .verdict outcome => outcome.reason?
  | .refreshed (.error e) => e.reason?
  | _ => none

theorem Reply.reason?_of_not_rejected {x : Except AuthError RefreshedTokens}
    (accepts : ∀ reason, x ≠ .error (.rejected reason)) : (Reply.refreshed x).reason? = none := by
  cases x with
  | ok tokens => rfl
  | error e =>
      cases e with
      | rejected reason => exact absurd rfl (accepts reason)
      | _ => rfl

/-- A call is rate-limited exactly if its client has as many failures as it may, and it counts once more for
the client exactly if it is rejected as suspicious. -/
structure Tallied (throttle : Throttle) (xs : String → Option Window) (w : World Memory)
    (client? : Option String) (reason? : Option FailureReason) (w' : World Memory) : Prop where
  limited : reason? = some .rateLimited ↔ ∃ client ∈ client?,
    throttle.maxFailures.toNat ≤ Window.countAt throttle.window w.now (xs client)
  tallies : throttle.Tallies (throttle.counted w.now client? reason? xs) w'

/-- After an acceptance nothing that a refresh replies is a reason to limit or to count. -/
theorem VerdictFor.tallied {client? : Option String} {c : Credential} {reason? : Option FailureReason}
    (verdictFor : s.VerdictFor throttle xs w token expected client? (.accepted c))
    (tallies : throttle.Tallies xs w') (harmless : reason? = none ∨ reason? = some .tokenRevoked) :
    Tallied throttle xs w client? reason? w' := by
  have limited : none = some FailureReason.rateLimited ↔ _ := verdictFor.reason_iff
  rcases harmless with rfl | rfl
  · refine ⟨limited, ?_⟩
    rwa [Throttle.counted_of_harmless (.inr rfl)]
  · refine ⟨Iff.trans ?_ limited, ?_⟩
    · exact ⟨fun impossible => (by cases impossible), fun impossible => (by cases impossible)⟩
    · rwa [Throttle.counted_of_harmless (.inr rfl)]

/-- A call that is for no client is not limited, and counts nothing. -/
theorem Tallied.aside {reason? : Option FailureReason} (tallies : throttle.Tallies xs w')
    (unlimited : reason? ≠ some .rateLimited) : Tallied throttle xs w none reason? w' := by
  refine ⟨⟨fun limited => absurd limited unlimited, ?_⟩, ?_⟩
  · rintro ⟨client, impossible, _⟩
    cases impossible
  · rwa [Throttle.counted_of_harmless (.inl rfl)]

/-- A call that leaves the cache as it is, and whose reply gives no reason. -/
theorem yields_idle_tallied {α : Type} {a : Action α} {reply : α → Reply} (idles : a.Yields w w.Idles)
    (tallies : throttle.Tallies xs w) (silent : ∀ x, (reply x).reason? = none) :
    (do return reply (← a) : Action Reply).Yields w fun r w' =>
      Tallied throttle xs w none (r.toOption.bind Reply.reason?) w' := by
  refine yields_reply (idles.mono ?_)
  rintro r w' ⟨x, rfl, leaves⟩
  exact .aside (tallies.leaves leaves) (by simp [Except.map, Except.toOption, silent])

section Calls

variable (throttled : s.ThrottledBy throttle) (inRange : (w.now.after? throttle.window).isSome)
  (tallies : throttle.Tallies xs w)

include throttled inRange tallies

/-- Observing a verdict counts once more for the client if it is suspicious. -/
theorem yields_observe {verdict : Verdict} (expected : TokenKind) (of : request.client = some client)
    (below : verdict.reason?.any FailureReason.isSuspicious →
      Window.countAt throttle.window w.now (xs client) < throttle.maxFailures.toNat) :
    (s.observe request expected verdict).Yields w fun r w' => r = .ok () ∧
      throttle.Tallies (throttle.counted w.now (some client) verdict.reason? xs) w' := by
  have counts : s.throttled? request = some (throttle, client) := by rw [throttled?, throttled.has, of]
  have asked : w.Leaves w.cache (w.answer (.count (.verification expected verdict.reason?))).2 :=
    w.leaves_self.answer fun _ impossible => by cases impossible
  refine Yields.ask ?_
  cases suspicious : verdict.reason?.any FailureReason.isSuspicious with
  | false =>
      rw [if_neg Bool.false_ne_true, Throttle.counted_of_harmless (.inr suspicious)]
      exact Yields.done ⟨rfl, tallies.leaves asked⟩
  | true =>
      rw [if_pos rfl, counts]
      have recorded := (tallies.leaves asked).recordFailure client throttled.whole (by rwa [asked.now])
        suspicious (by rw [asked.now]; exact below suspicious)
      rw [asked.now] at recorded
      refine Yields.bind _ recorded ?_ ?_
      · rintro _ w' ⟨_, tallies⟩
        exact Yields.done ⟨rfl, tallies⟩
      · rintro e w' ⟨⟨n, impossible⟩, _⟩
        cases impossible

/-- A verification gives its verdict, and counts once more for its client if that is suspicious. -/
theorem yields_verifyFor_tallied :
    (s.verifyFor request token expected).Yields w fun r w' => ∃ verdict, r = .ok verdict ∧
      s.VerdictFor throttle xs w token expected request.client verdict ∧
      throttle.Tallies (throttle.counted w.now request.client verdict.reason? xs) w' := by
  cases of : request.client with
  | none =>
      have free : s.throttled? request = none := by rw [throttled?, throttled.has, of]
      refine (yields_verifyUnlimited free).mono ?_
      rintro r w' ⟨verdict, judges, rfl, leaves⟩
      refine ⟨verdict, rfl, .judged (fun _ impossible => (Option.not_mem_none _ impossible).elim) judges, ?_⟩
      rw [Throttle.counted_of_harmless (.inl rfl)]
      exact tallies.leaves leaves
  | some client =>
      let away := decide (throttle.maxFailures.toNat ≤ Window.countAt throttle.window w.now (xs client))
      have turned : (s.isTurnedAway request).Yields w (w.Gives away) := by
        unfold isTurnedAway throttled?
        rw [throttled.has, of]
        exact Throttle.yields_isThrottled (tallies.counts client) (tallies.fits client)
      refine Yields.bind _ (yields_judge turned) ?_ ?_
      · rintro verdict w' ⟨_, judges, same, leaves⟩
        cases same
        have verdictFor : s.VerdictFor throttle xs w token expected (some client) verdict := judges.verdictFor
        have observed := yields_observe throttled (by rwa [leaves.now]) (tallies.leaves leaves) expected of
          (by rw [leaves.now]; exact verdictFor.below)
        rw [leaves.now] at observed
        refine Yields.bind _ observed ?_ ?_
        · rintro _ w'' ⟨_, tallies⟩
          exact Yields.done ⟨_, rfl, verdictFor, tallies⟩
        · rintro e w'' ⟨impossible, _⟩
          cases impossible
      · rintro e w' ⟨_, _, impossible, _⟩
        cases impossible

theorem yields_verifyWith_tallied {request : Option RequestContext} :
    (s.verifyWith request token expected).Yields w fun r w' => ∃ verdict, r = .ok verdict ∧
      s.VerdictFor throttle xs w token expected (request.bind RequestContext.client) verdict ∧
      throttle.Tallies
        (throttle.counted w.now (request.bind RequestContext.client) verdict.reason? xs) w' := by
  cases request with
  | some request => exact yields_verifyFor_tallied throttled inRange tallies
  | none =>
      refine yields_generate fun request w' anonymous leaves _ => ?_
      refine (yields_verifyFor_tallied throttled (by rwa [leaves.now]) (tallies.leaves leaves)).mono ?_
      rintro r w'' ⟨verdict, rfl, verdictFor, tallies⟩
      rw [anonymous] at verdictFor tallies
      rw [leaves.now] at tallies
      exact ⟨verdict, rfl, verdictFor.before leaves, tallies⟩

/-- A refresh is rate-limited, and counts, as its verification. -/
theorem yields_refreshFor_tallied : (s.refreshFor request token).Yields w fun r w' =>
    Tallied throttle xs w request.client (r.toOption.bind fun x => (Reply.refreshed x).reason?) w' := by
  refine Yields.bind _ (yields_verifyFor_tallied throttled inRange tallies) ?_ ?_
  · rintro verdict w' ⟨_, ⟨⟩, verdictFor, tallies⟩
    cases verdict with
    | rejected reason stage => exact Yields.done ⟨verdictFor.reason_iff, tallies⟩
    | accepted c =>
        obtain ⟨k, keyed⟩ := verdictFor.keyed rfl
        rw [Throttle.counted_of_harmless (.inr rfl)] at tallies
        refine (yields_exchange keyed).mono ?_
        intro r w'' exchanged
        cases exchanged with
        | lost stores => exact verdictFor.tallied (tallies_of_stores throttled tallies stores) (.inr rfl)
        | unrotated _ leaves accepts =>
            exact verdictFor.tallied (tallies.leaves leaves) (.inl (Reply.reason?_of_not_rejected accepts))
        | rotated _ stores accepts =>
            exact verdictFor.tallied (tallies_of_stores throttled tallies stores)
              (.inl (Reply.reason?_of_not_rejected accepts))
        | refused _ leaves => exact verdictFor.tallied (tallies.leaves leaves) (.inl rfl)
        | fault retains => exact verdictFor.tallied (tallies.retains retains) (.inl rfl)
  · rintro e w' ⟨verdict, impossible, _⟩
    cases impossible

theorem yields_refreshWith_tallied {request : Option RequestContext} :
    (s.refreshWith request token).Yields w fun r w' =>
      Tallied throttle xs w (request.bind RequestContext.client)
        (r.toOption.bind fun x => (Reply.refreshed x).reason?) w' := by
  cases request with
  | some request => exact yields_refreshFor_tallied throttled inRange tallies
  | none =>
      refine yields_generate fun request w' anonymous leaves _ => ?_
      refine (yields_refreshFor_tallied throttled (by rwa [leaves.now]) (tallies.leaves leaves)).mono ?_
      rintro r w'' ⟨limited, tallies⟩
      rw [anonymous, leaves.now] at limited tallies
      exact ⟨limited, tallies⟩

/-- A call is rate-limited exactly if its client has as many failures in its open window as it may, and it
counts once more for the client exactly if it is rejected as suspicious. -/
theorem yields_call_tallied {k : Call} : (k.action s).Yields w fun r w' =>
    Tallied throttle xs w k.client? (r.toOption.bind Reply.reason?) w' := by
  cases k with
  | issue subject => exact yields_idle_tallied yields_issue tallies fun _ => rfl
  | issueAccess subject => exact yields_idle_tallied yields_issueNow tallies fun _ => rfl
  | issueRefresh subject => exact yields_idle_tallied yields_issueRefreshToken tallies fun _ => rfl
  | issueReset userId email => exact yields_idle_tallied yields_issueNow tallies fun _ => rfl
  | verify request token expected =>
      refine yields_reply ((yields_verifyWith_tallied throttled inRange tallies).mono ?_)
      rintro r w' ⟨verdict, rfl, verdictFor, tallies⟩
      exact ⟨verdictFor.reason_iff, tallies⟩
  | refresh request token =>
      refine yields_reply ((yields_refreshWith_tallied throttled inRange tallies).mono ?_)
      rintro (e | x) w' tallied
      · exact tallied
      · exact tallied
  | revoke token reason =>
      refine yields_reply (yields_revoke.mono fun r w' revoked => ?_)
      cases revoked with
      | failed leaves => exact .aside (tallies.leaves leaves) fun impossible => by cases impossible
      | fault retains => exact .aside (tallies.retains retains) fun impossible => by cases impossible
      | revoked _ stores =>
          exact .aside (tallies_of_stores throttled tallies stores) fun impossible => by cases impossible
  | remove tokenId =>
      refine yields_reply ?_
      cases keyed : s.store.key tokenId with
      | error e =>
          exact Revocation.Store.yields_onKey_invalid keyed
            (.aside tallies fun impossible => by cases impossible)
      | ok k =>
          refine (Revocation.Store.yields_onKey_outcome keyed fun _ _ impossible => by
            cases impossible).mono fun r w' comes => ?_
          cases comes with
          | answered answered =>
              refine .aside (tallies.perform answered.now answered.performs fun client same => ?_)
                fun impossible => by cases impossible
              exact throttled.apart tokenId k keyed client same.symm
          | fault _ retains => exact .aside (tallies.retains retains) fun impossible => by cases impossible
          | refused _ retains => exact .aside (tallies.retains retains) fun impossible => by cases impossible

end Calls

end TokenService

end TokenAuthority
