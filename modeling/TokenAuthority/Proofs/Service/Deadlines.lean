import TokenAuthority.Proofs.Effect.Elapsed
import TokenAuthority.Proofs.Resilience.Delays
import TokenAuthority.Proofs.Service.Credentials
import TokenAuthority.Proofs.Service.FailClosed

/-!
# How long a verification takes

A verification reads the counter of its client, and then it either looks its token up or counts a failure:
a verdict for which a look-up was needed is never held against the client. So no verification pays for more
than two of its deadlines, whatever the cache does.

* `TokenService.takes_judge` — the ticks up to the verdict.
* `TokenService.verifyFor_run_ends` — a verification is never without an end.
* `TokenService.verifyFor_run_inTime` — a verification ends within two deadlines.
-/

namespace TokenAuthority

/-- Whether a verdict is held against the client. -/
def Verdict.isSuspicious (verdict : Verdict) : Bool := verdict.reason?.any FailureReason.isSuspicious

theorem Verdict.isSuspicious_ofLookup (c : Credential)
    (lookup : Except TimeoutError (Except Revocation.Error Bool)) :
    (Verdict.ofLookup c lookup).isSuspicious = false := by
  rcases lookup with _ | _ | _ | _ <;> rfl

/-- The first deadline leaves the timer in a range in which the far future is still an instant. -/
theorem Instant.inRange_later {t : Instant} {n : Nat}
    (inRange : ((t.after (Span.ofSecs 1)).after? farFuture).isSome)
    (few : n ≤ t.ticksUntil Throttle.counterTimeout) : ((t.later n).after? farFuture).isSome := by
  apply isSome_after?_of_le _ inRange
  have bound := t.ticksUntil_le Throttle.counterTimeout
  have ticks : Throttle.counterTimeout.ceilMillis = 250 := by decide
  change t.nanoseconds + Span.nanosPerMilli * n ≤ t.nanoseconds + Span.nanosPerSecond * 1
  simp only [Span.nanosPerMilli, Span.nanosPerSecond]
  omega

namespace TokenService

open TokenAuthority.Action

variable {σ : Type} {backend : Cache.Backend σ} {s : TokenService} {request : RequestContext}
  {token : String} {expected : TokenKind} {w : World σ}

/-- Asking the throttle takes no longer than its deadline. -/
theorem takes_isTurnedAway (inRange : (w.now.after? Instant.farFuture).isSome) :
    (s.isTurnedAway request).Takes backend w fun n _ =>
      n ≤ w.now.ticksUntil Throttle.counterTimeout := by
  unfold isTurnedAway
  cases s.throttled? request with
  | none => exact Takes.done (Nat.zero_le _)
  | some found =>
    obtain ⟨throttle, client⟩ := found
    have failures : (throttle.failures client).Takes backend w fun n _ =>
        n ≤ w.now.ticksUntil Throttle.counterTimeout := by
      apply Takes.bind _ (takes_withTimeoutOr backend inRange) _ fun _ => id
      intro n x w' _ few
      rcases x with _ | _ | _ <;> exact Takes.done few
    apply Takes.bind _ failures _ fun _ => id
    intro n x w' _ few
    exact Takes.done few

/-- Looking a token up takes no longer than its deadline, and is not held against the client. -/
theorem takes_checkRevocation {c : Credential} (inRange : (w.now.after? Instant.farFuture).isSome) :
    (s.checkRevocation c).Takes backend w fun n verdict =>
      n ≤ w.now.ticksUntil s.policy.revocationCheckTimeout ∧
        verdict.any Verdict.isSuspicious = false := by
  unfold checkRevocation
  apply Takes.bind _ (takes_withTimeout backend inRange)
  · intro n x w' _ few
    exact Takes.done ⟨few, Verdict.isSuspicious_ofLookup c x⟩
  · intro n few
    exact ⟨few, rfl⟩

/-- Up to its verdict a verification takes the deadline of the throttle, and that of the look-up unless the
verdict is held against the client. -/
theorem takes_judge (inRange : ((w.now.after (Span.ofSecs 1)).after? Instant.farFuture).isSome) :
    (s.judge request token expected).Takes backend w fun n verdict =>
      n ≤ w.now.ticksUntil Throttle.counterTimeout +
        if verdict.any Verdict.isSuspicious then 0
        else w.now.ticksUntil s.policy.revocationCheckTimeout := by
  unfold judge
  apply Takes.bind _ (takes_isTurnedAway (Instant.inRange_later inRange (Nat.zero_le _)))
  · intro n away w' now few
    have soon (verdict : Verdict) : n + 0 ≤ w.now.ticksUntil Throttle.counterTimeout +
        if (some verdict).any Verdict.isSuspicious then 0
        else w.now.ticksUntil s.policy.revocationCheckTimeout := by
      omega
    cases away with
    | true => exact Takes.done (soon _)
    | false =>
      apply Takes.bind (fun m _ => m = 0) (Takes.query fun _ => rfl)
      · rintro m time w'' now' rfl
        cases s.codec.decode s.keys token time with
        | error e => exact Takes.done (soon _)
        | ok c =>
          dsimp only
          split
          · have inRange' : (w''.now.after? Instant.farFuture).isSome := by
              rw [now', now, Instant.later_zero]
              exact Instant.inRange_later inRange few
            apply (takes_checkRevocation inRange').mono
            rintro m verdict ⟨looked, harmless⟩
            rw [now', now, Instant.later_zero, Instant.ticksUntil_later] at looked
            rw [harmless, if_neg Bool.false_ne_true]
            omega
          · exact Takes.done (soon _)
      · rintro m rfl
        exact Nat.le_trans few (Nat.le_add_right _ _)
  · intro n few
    exact Nat.le_trans few (Nat.le_add_right _ _)

/-- Counting a verdict takes no time unless it is held against the client, and then no longer than the
deadline of the throttle. -/
theorem takes_observe {verdict : Verdict} (inRange : verdict.isSuspicious = true →
      (w.now.after? Instant.farFuture).isSome) :
    (s.observe request expected verdict).Takes backend w fun n _ =>
      n ≤ if verdict.isSuspicious then w.now.ticksUntil Throttle.counterTimeout else 0 := by
  unfold observe
  apply Takes.bind (fun m _ => m = 0) (Takes.query fun _ => rfl)
  · rintro m ⟨⟩ w' now rfl
    rw [Instant.later_zero] at now
    change Takes backend (if verdict.isSuspicious = true then _ else _) _ _
    cases suspicious : verdict.isSuspicious with
    | false => exact Takes.done (Nat.zero_le _)
    | true =>
      simp only [if_true]
      cases s.throttled? request with
      | none => exact Takes.done (Nat.zero_le _)
      | some found =>
        obtain ⟨throttle, client⟩ := found
        have recorded : (throttle.recordFailure client).Takes backend w' fun n _ =>
            n ≤ w'.now.ticksUntil Throttle.counterTimeout := by
          have inRange' : (w'.now.after? Instant.farFuture).isSome := by
            rw [now]
            exact inRange suspicious
          apply Takes.bind _ (takes_withTimeoutOr backend inRange') _ fun _ => id
          intro n x w'' _ few
          rcases x with _ | _ <;> exact Takes.done few
        rw [now] at recorded
        apply Takes.bind _ recorded
        · intro n x w'' _ few
          apply Takes.done
          omega
        · intro n few
          omega
  · rintro m rfl
    exact Nat.zero_le _

/-- A verification takes no longer than the deadline of the throttle and then the longer one of the
look-up's and the throttle's. -/
theorem takes_verifyFor (inRange : ((w.now.after (Span.ofSecs 1)).after? Instant.farFuture).isSome) :
    (s.verifyFor request token expected).Takes backend w fun n _ =>
      n ≤ w.now.ticksUntil Throttle.counterTimeout +
        max (w.now.ticksUntil Throttle.counterTimeout)
          (w.now.ticksUntil s.policy.revocationCheckTimeout) := by
  unfold verifyFor
  apply Takes.bind _ (takes_judge inRange)
  · intro n verdict w' now judged
    have inRange' : verdict.isSuspicious = true → (w'.now.after? Instant.farFuture).isSome := by
      intro suspicious
      rw [Option.any_some, suspicious, if_pos rfl] at judged
      rw [now]
      exact Instant.inRange_later inRange judged
    apply Takes.bind _ (takes_observe inRange')
    · intro m x w'' _ observed
      apply Takes.done
      rw [now, Instant.ticksUntil_later] at observed
      cases suspicious : verdict.isSuspicious <;> simp [suspicious] at judged observed <;> omega
    · intro m observed
      rw [now, Instant.ticksUntil_later] at observed
      cases suspicious : verdict.isSuspicious <;> simp [suspicious] at judged observed <;> omega
  · intro n judged
    simp at judged
    omega

/-- Over any cache a verification ends, and if it ends in a fault, that is the cache's or a delay
that is too long. -/
theorem verifyFor_run_ends (backend : Cache.Backend σ) (s : TokenService) (request : RequestContext)
    (token : String) (expected : TokenKind) (w : World σ) :
    match ((s.verifyFor request token expected).run backend w).1 with
    | .value _ => True
    | .fault f => backend.Faults f ∨
        s.store.retry.HasLongDelay f ∧ Span.ofSecs (2 ^ 64 - 4096) < s.store.retry.cap
    | .endless => False := by
  have limited : (s.verifyFor request token expected).Ensures (.limited s.store.retry.HasLongDelay) [] []
      (s.Verified request token expected []) := verifyFor_limited
  split <;> rename_i ended
  · trivial
  · rcases limited.run_fault backend ended with faults | ⟨_, long⟩
    · exact .inl faults
    · exact .inr ⟨long, long.cap⟩
  · exact absurd ended (Action.not_endless backend limited)

/-- Over any cache, whatever it answers, after whatever time, if ever, and whatever the retry and the breaker
are set to, a verification ends. It takes no longer than the deadline of the throttle and then the
longer one of that deadline and the look-up's, each kept on the first tick that is not before it: from a whole
tick on these are 250 milliseconds, and the longer one of 250 milliseconds and the look-up's deadline, rounded
up. It ends with a verdict, unless the cache ends in a fault or a delay between two attempts is too long to be
a span; that takes a cap of more than 2⁶⁴ - 4096 seconds. -/
theorem verifyFor_run_inTime (backend : Cache.Backend σ) (s : TokenService) (request : RequestContext)
    (token : String) (expected : TokenKind) (w : World σ)
    (inRange : ((w.now.after (Span.ofSecs 1)).after? Instant.farFuture).isSome) :
    (∃ n, ((s.verifyFor request token expected).run backend w).2.now = w.now.later n ∧
      n ≤ w.now.ticksUntil Throttle.counterTimeout + max (w.now.ticksUntil Throttle.counterTimeout)
        (w.now.ticksUntil s.policy.revocationCheckTimeout) ∧
      (w.now.nanoseconds % Span.nanosPerMilli = 0 →
        n ≤ 250 + max 250 s.policy.revocationCheckTimeout.ceilMillis)) ∧
    match ((s.verifyFor request token expected).run backend w).1 with
    | .value _ => True
    | .fault f => backend.Faults f ∨
        s.store.retry.HasLongDelay f ∧ Span.ofSecs (2 ^ 64 - 4096) < s.store.retry.cap
    | .endless => False := by
  constructor
  · obtain ⟨n, now, few⟩ : ∃ n, ((s.verifyFor request token expected).run backend w).2.now = w.now.later n ∧
        n ≤ w.now.ticksUntil Throttle.counterTimeout + max (w.now.ticksUntil Throttle.counterTimeout)
          (w.now.ticksUntil s.policy.revocationCheckTimeout) := takes_verifyFor inRange
    refine ⟨n, now, few, ?_⟩
    intro whole
    have counter : w.now.ticksUntil Throttle.counterTimeout = 250 := Instant.ticksUntil_of_whole whole
    rwa [counter, Instant.ticksUntil_of_whole whole] at few
  · exact verifyFor_run_ends backend s request token expected w

end TokenService

namespace Sample

open TokenService

/-- A cache that never answers. -/
def hanging : Cache.Backend Unit := ⟨"hanging", fun _ _ c => (c, .never)⟩

def hangingWorld : World Unit := ⟨.start, fun _ => 0, world.random, 0, world.breaker, [], ()⟩

/-- A service with a throttle that gives a look-up somewhat more than three hundred milliseconds. -/
def impatient : TokenService :=
  { service with
    throttle := some {}
    policy := { service.policy with revocationCheckTimeout := ⟨300500000⟩ } }

/-- Over a cache that never answers a good token is rejected after 250 and 301 milliseconds, which is as late
as it can be. -/
theorem inTime_impatient :
    (∃ n ≤ 551, ((impatient.verifyFor (request.withClient "a") token .refresh).run hanging
      hangingWorld).2.now = hangingWorld.now.later n) ∧
    ((impatient.verifyFor (request.withClient "a") token .refresh).run hanging hangingWorld).2.now =
      hangingWorld.now.later 551 ∧
    ((impatient.verifyFor (request.withClient "a") token .refresh).run hanging hangingWorld).1.value? =
      some (.rejected .revocationCheckUnavailable .expiryChecked) := by
  have decodes : impatient.codec.decodeIgnoringExpiry impatient.keys token = .ok credential := service_decodes
  constructor
  · obtain ⟨⟨n, now, -, few⟩, -⟩ := verifyFor_run_inTime hanging impatient (request.withClient "a") token
      .refresh hangingWorld (by decide)
    exact ⟨n, few (by decide), now⟩
  · rw [verifyFor_eq decodes]
    decide +kernel

end Sample

end TokenAuthority
