import TokenAuthority.Proofs.Effect.Recorded
import TokenAuthority.Proofs.Resilience.Delays
import TokenAuthority.Proofs.Service.Verification

/-!
# Verification fails closed

A token is accepted only when the store has said that it is not revoked, whatever the cache does.

* `TokenService.LookedUp` — a history shows that the look-up of a credential was answered.
* `TokenService.Admits` — a history shows all that an accepted token needs.
* `TokenService.verifyFor_run_failsClosed` — over any cache and any breaker, a verification has an
  end, accepts exactly the tokens that its history admits, and rejects with
  `revocationCheckUnavailable` when the look-up was not answered.
-/

namespace TokenAuthority

/-- The event does not tell the time of day. -/
def Event.IsClockless : Event → Prop
  | .answered _ q _ => q ≠ .clock
  | .ended _ _ _ _ => True

/-- The events of a call of the store do not. -/
theorem Event.IsOf.clockless {call : Cache.Request} {e : Event} (of : e.IsOf call) :
    e.IsClockless := by
  cases e with
  | answered time q x =>
      rcases of with ⟨other, _⟩ | rfl
      · exact other
      · exact fun impossible => by cases impossible
  | ended time wait ds x => trivial

namespace TokenService

/-- A history shows that the look-up of a credential was granted, and that its last call was answered
before the deadlines of the call and of the verification. -/
def LookedUp (s : TokenService) (c : Credential) (h : History) (found : Bool) : Prop :=
  ∃ key asked opened, s.store.key c.tokenId = .ok key ∧ Event.answered asked .timer opened ∈ h ∧
    s.store.Concludes (.contains key)
      [Instant.deadlineTick opened s.policy.revocationCheckTimeout] h found

/-- A history shows that a token holds at the time that the clock reads in it, is of the expected kind
and was looked up and not found revoked. -/
def Admits (s : TokenService) (token : String) (expected : TokenKind) (h : History)
    (c : Credential) : Prop :=
  ∃ time now, Event.answered time .clock now ∈ h ∧ s.codec.decode s.keys token now = .ok c ∧
    c.kind = expected ∧ s.LookedUp c h false

/-- The verdict is the one that a history calls for. -/
structure FailsClosed (s : TokenService) (token : String) (expected : TokenKind) (h : History)
    (verdict : Verdict) : Prop where
  accepted : ∀ c, verdict = .accepted c ↔ s.Admits token expected h c
  otherwise : (∀ c, ¬ s.Admits token expected h c) →
    verdict.isAccepted = false ∧ verdict.payload? = none ∧ verdict.reason?.isSome
  unavailable : ∀ time now c, Event.answered time .clock now ∈ h →
    s.codec.decode s.keys token now = .ok c → c.kind = expected →
    (∀ found, ¬ s.LookedUp c h found) →
    verdict = .rejected .revocationCheckUnavailable .expiryChecked

variable {s : TokenService} {request : RequestContext} {token : String} {expected : TokenKind}
  {h : History}

/-- A verdict that is not an acceptance has a reason and no payload. -/
theorem rejected_of_not_accepted {verdict : Verdict} (not : ∀ c, verdict ≠ .accepted c) :
    verdict.isAccepted = false ∧ verdict.payload? = none ∧ verdict.reason?.isSome := by
  cases verdict with
  | accepted c => exact absurd rfl (not c)
  | rejected reason stage => exact ⟨rfl, rfl, rfl⟩

/-- It is enough to know which tokens are accepted and when look-ups are not answered. -/
theorem FailsClosed.of_accepted {verdict : Verdict}
    (accepted : ∀ c, verdict = .accepted c ↔ s.Admits token expected h c)
    (unavailable : ∀ time now c, Event.answered time .clock now ∈ h →
      s.codec.decode s.keys token now = .ok c → c.kind = expected →
      (∀ found, ¬ s.LookedUp c h found) →
      verdict = .rejected .revocationCheckUnavailable .expiryChecked) :
    s.FailsClosed token expected h verdict where
  accepted := accepted
  otherwise none := rejected_of_not_accepted fun c same => none c ((accepted c).mp same)
  unavailable := unavailable

/-! ### Events beside the look-up -/

/-- An event of the throttle does not tell the time and ends no look-up. -/
theorem SeesThrottle.aside {e : Event} (seen : s.SeesThrottle request e) :
    e.IsClockless ∧ ∀ k, ¬ e.Ends (.contains k) := by
  rcases seen with ⟨time, t, rfl⟩ | ⟨call, ⟨throttle, client, _, made⟩, time, ds, x, rfl⟩
  · exact ⟨fun impossible => (by cases impossible), fun k => Event.not_ends_answered⟩
  · refine ⟨trivial, ?_⟩
    rintro k ⟨time', ds', x', same⟩
    simp only [Event.ended.injEq, Wait.cache.injEq] at same
    rcases made with rfl | rfl <;> exact absurd same.2.1 (fun impossible => by cases impossible)

theorem SeesObserved.aside {verdict : Verdict} {e : Event}
    (seen : s.SeesObserved request expected verdict e) :
    e.IsClockless ∧ ∀ k, ¬ e.Ends (.contains k) := by
  rcases seen with ⟨time, rfl⟩ | throttle
  · exact ⟨fun impossible => (by cases impossible), fun k => Event.not_ends_answered⟩
  · exact throttle.aside

/-- Where no event is a reading of the clock there is no such reading. -/
theorem not_mem_of_clockless {time : Instant} {now : Int64} (clockless : ∀ e ∈ h, e.IsClockless) :
    Event.answered time .clock now ∉ h :=
  fun told => clockless _ told rfl

/-- A history with one reading of the clock has no other. -/
theorem reading_unique {before after : History} {time time' : Instant} {now now' : Int64}
    (clocklessBefore : ∀ e ∈ before, e.IsClockless) (clocklessAfter : ∀ e ∈ after, e.IsClockless)
    (told : Event.answered time' .clock now' ∈ before ++ .answered time .clock now :: after) :
    now' = now := by
  rcases List.mem_append.mp told with told | told
  · exact absurd told (not_mem_of_clockless clocklessBefore)
  · rcases List.mem_cons.mp told with same | told
    · simp only [Event.answered.injEq, heq_eq_eq, true_and] at same
      exact same.2
    · exact absurd told (not_mem_of_clockless clocklessAfter)

/-! ### Verdicts -/

/-- A history shows one answer to a look-up at most. -/
theorem LookedUp.unique {c : Credential} {found found' : Bool} (shown : s.LookedUp c h found)
    (shown' : s.LookedUp c h found') : found = found' := by
  obtain ⟨key, _, _, valid, _, concludes⟩ := shown
  obtain ⟨key', _, _, valid', _, concludes'⟩ := shown'
  cases valid.symm.trans valid'
  exact concludes.unique concludes'

/-- The verdict that a look-up leads to, given what the whole history shows of it. -/
theorem Checked.verdict {c : Credential} {check : History} {verdict : Verdict}
    (seen : s.Checked c [] check (.ok verdict)) (before after : History)
    (beforeAside : ∀ e ∈ before, ∀ k, ¬ e.Ends (.contains k))
    (afterAside : ∀ e ∈ after, ∀ k, ¬ e.Ends (.contains k)) :
    (∃ found, s.LookedUp c (before ++ (check ++ after)) found ∧
        verdict = .ofLookup c (.ok (.ok found))) ∨
      (∀ found, ¬ s.LookedUp c (before ++ (check ++ after)) found) ∧
        verdict = .rejected .revocationCheckUnavailable .expiryChecked := by
  have silent {asked opened : Instant} {lookup : History}
      {r : Except Interruption (Except Revocation.Error Bool)}
      (seen : s.store.LooksUp c.tokenId
        [Instant.deadlineTick opened s.policy.revocationCheckTimeout] lookup r)
      (failed : ∀ v, r ≠ .ok (.ok v)) (found : Bool) :
      ¬ s.LookedUp c (before ++ (.answered asked .timer opened :: lookup ++ after)) found := by
    rintro ⟨key, _, _, valid, _, concludes⟩
    obtain ⟨e, he, answers⟩ := concludes.answers
    simp only [List.mem_append, List.mem_cons] at he
    rcases he with he | (rfl | he) | he
    · exact beforeAside e he key answers.ends
    · exact Event.not_answers_answered answers
    · exact seen.silent valid failed e he answers
    · exact afterAside e he key answers.ends
  cases seen with
  | @answered asked opened lookup x looked =>
      cases x with
      | ok found =>
          obtain ⟨key, valid, concludes⟩ := looked.concludes
          refine .inl ⟨found, ⟨key, asked, opened, valid, by simp, ?_⟩, rfl⟩
          have rest := (concludes.after [.answered asked .timer opened]).before
            fun e he => afterAside e he key
          exact rest.after before
      | error e =>
          exact .inr ⟨silent looked (fun v impossible => by cases impossible), rfl⟩
  | late asked opened looked =>
      exact .inr ⟨silent looked (fun v impossible => by cases impossible), rfl⟩

/-- So it leads to its verdict in a whole verification, between events of the throttle. -/
theorem Checked.outcome {c : Credential} {before check observed : History} {verdict counted : Verdict}
    {time : Instant} {now : Int64} (seen : s.Checked c [] check (.ok verdict))
    (sees : ∀ e ∈ before, s.SeesThrottle request e)
    (observes : ∀ e ∈ observed, s.SeesObserved request expected counted e) :
    (∃ found, s.LookedUp c (before ++ .answered time .clock now :: (check ++ observed)) found ∧
        verdict = .ofLookup c (.ok (.ok found))) ∨
      (∀ found, ¬ s.LookedUp c (before ++ .answered time .clock now :: (check ++ observed)) found) ∧
        verdict = .rejected .revocationCheckUnavailable .expiryChecked := by
  rw [List.append_cons]
  exact seen.verdict (before ++ [.answered time .clock now]) observed
    (List.forall_mem_append.mpr ⟨fun e he => (sees e he).aside.2, by simp⟩)
    fun e he => (observes e he).aside.2

theorem Checked.clockless {c : Credential} {ds : List Nat} {r : Except Interruption Verdict}
    (seen : s.Checked c ds h r) : ∀ e ∈ h, e.IsClockless := by
  have none {asked opened : Instant} {lookup : History} {ds : List Nat}
      {r : Except Interruption (Except Revocation.Error Bool)}
      (looked : s.store.LooksUp c.tokenId ds lookup r) :
      ∀ e ∈ .answered asked .timer opened :: lookup, e.IsClockless := by
    refine List.forall_mem_cons.mpr ⟨(fun impossible => by cases impossible), fun e he => ?_⟩
    obtain ⟨k, _, of⟩ := looked.events e he
    exact of.clockless
  cases seen with
  | answered asked opened looked => exact none looked
  | faulty asked opened looked => exact none looked
  | late asked opened looked => exact none looked
  | cut asked opened looked => exact none looked

/-- Where the token does not hold at the one time that a history tells, nothing is admitted. -/
theorem FailsClosed.of_refused {before after : History} {time : Instant} {now : Int64}
    {verdict : Verdict} (clocklessBefore : ∀ e ∈ before, e.IsClockless)
    (clocklessAfter : ∀ e ∈ after, e.IsClockless)
    (refused : ∀ c, s.codec.decode s.keys token now = .ok c → c.kind ≠ expected)
    (rejected : ∀ c, verdict ≠ .accepted c) :
    s.FailsClosed token expected (before ++ .answered time .clock now :: after) verdict := by
  refine .of_accepted (fun c => ⟨fun same => absurd same (rejected c), ?_⟩) ?_
  · rintro ⟨time', now', told, decoded, kind, _⟩
    cases reading_unique clocklessBefore clocklessAfter told
    exact absurd kind (refused c decoded)
  · intro time' now' c told decoded kind
    cases reading_unique clocklessBefore clocklessAfter told
    exact absurd kind (refused c decoded)

/-- Where the token holds at the one time that a history tells, its look-up decides. -/
theorem FailsClosed.of_outcome {before after : History} {time : Instant} {now : Int64} {c : Credential}
    {verdict : Verdict} (clocklessBefore : ∀ e ∈ before, e.IsClockless)
    (clocklessAfter : ∀ e ∈ after, e.IsClockless)
    (decoded : s.codec.decode s.keys token now = .ok c) (kind : c.kind = expected)
    (outcome : (∃ found, s.LookedUp c (before ++ .answered time .clock now :: after) found ∧
        verdict = .ofLookup c (.ok (.ok found))) ∨
      (∀ found, ¬ s.LookedUp c (before ++ .answered time .clock now :: after) found) ∧
        verdict = .rejected .revocationCheckUnavailable .expiryChecked) :
    s.FailsClosed token expected (before ++ .answered time .clock now :: after) verdict := by
  have only {time' : Instant} {now' : Int64} {c' : Credential}
      (told : Event.answered time' .clock now' ∈ before ++ .answered time .clock now :: after)
      (decoded' : s.codec.decode s.keys token now' = .ok c') : c' = c := by
    cases reading_unique clocklessBefore clocklessAfter told
    rw [decoded] at decoded'
    cases decoded'
    rfl
  refine .of_accepted (fun c' => ⟨?_, ?_⟩) ?_
  · rintro rfl
    rcases outcome with ⟨found, shown, same⟩ | ⟨_, impossible⟩
    · cases found with
      | false =>
          cases same
          exact ⟨time, now, by simp, decoded, kind, shown⟩
      | true => cases same
    · cases impossible
  · rintro ⟨time', now', told, decoded', _, shown'⟩
    cases only told decoded'
    rcases outcome with ⟨found, shown, rfl⟩ | ⟨none, _⟩
    · cases shown.unique shown'
      rfl
    · exact absurd shown' (none false)
  · intro time' now' c' told decoded' _ none
    cases only told decoded'
    rcases outcome with ⟨found, shown, _⟩ | ⟨_, same⟩
    · exact absurd shown (none found)
    · exact same

/-- A verdict that goes with a history of a verification is the one that the history calls for. -/
theorem Verified.failsClosed {verdict : Verdict}
    (seen : s.Verified request token expected [] h (.ok verdict)) :
    s.FailsClosed token expected h verdict := by
  cases seen with
  | @judged h observed verdict judged observes =>
      have quiet {before : History} (sees : ∀ e ∈ before, s.SeesThrottle request e) :
          ∀ e ∈ before, e.IsClockless := fun e he => (sees e he).aside.1
      have quietAfter : ∀ e ∈ observed, e.IsClockless := fun e he => (observes e he).aside.1
      cases judged with
      | turnedAway sees =>
          have clockless := List.forall_mem_append.mpr ⟨quiet sees, quietAfter⟩
          refine .of_accepted (fun c => ⟨fun impossible => (by cases impossible), ?_⟩) ?_
          · rintro ⟨time, now, told, _⟩
            exact absurd told (not_mem_of_clockless clockless)
          · exact fun time now c told => absurd told (not_mem_of_clockless clockless)
      | undecodable time sees failed =>
          rw [List.append_assoc]
          refine .of_refused (quiet sees) quietAfter (fun c decoded => ?_) fun c impossible => ?_
          · rw [failed] at decoded
            cases decoded
          · cases impossible
      | otherKind time sees decoded kind =>
          rw [List.append_assoc]
          refine .of_refused (quiet sees) quietAfter (fun c same => ?_) fun c impossible => ?_
          · rw [decoded] at same
            cases same
            exact kind
          · cases impossible
      | @checked before check time now c _ sees decoded kind checked =>
          rw [List.append_assoc, List.cons_append]
          exact .of_outcome (quiet sees) (List.forall_mem_append.mpr ⟨checked.clockless, quietAfter⟩)
            decoded kind (checked.outcome sees observes)

/-! ### Runs -/

/-- A verification keeps to the rule that its waits are limited. -/
theorem verifyFor_limited :
    (s.verifyFor request token expected).Ensures (.limited s.store.retry.HasLongDelay) [] []
      (s.Verified request token expected []) := by
  have lenient : (Rule.limited s.store.retry.HasLongDelay).Lenient :=
    ⟨fun _ _ _ _ _ => trivial, fun _ _ _ _ => trivial⟩
  refine ensures_verifyFor lenient ⟨?_, ?_⟩
  · exact fun tail _ call time d ds x _ => .inl (List.cons_ne_nil _ _)
  · intro tail _ time now c k _ _ _
    exact {
      calls := fun _ _ _ _ _ _ => .inl (List.cons_ne_nil _ _)
      sleeps := fun _ _ _ span _ _ => .inr ⟨span, rfl⟩
      faults := fun _ _ attempt factor none => ⟨rfl, attempt, factor, none⟩ }

/-- Over any cache and any breaker a verification ends with the verdict that its history
calls for, unless the cache ends in a fault or a delay between attempts is too long to be a span. In
the history, clock and timer answer what the world says, and every answer comes by its deadlines. -/
theorem verifyFor_run_failsClosed {σ : Type} (backend : Cache.Backend σ) (s : TokenService)
    (request : RequestContext) (token : String) (expected : TokenKind) (w : World σ) :
    (match ((s.verifyFor request token expected).run backend w).1 with
      | .value verdict =>
        s.FailsClosed token expected ((s.verifyFor request token expected).history backend w) verdict
      | .fault f => backend.Faults f ∨ s.store.retry.HasLongDelay f
      | .endless => False) ∧
    ∀ e ∈ (s.verifyFor request token expected).history backend w,
      e.IsTruthful w.clock ∧ e.IsPunctual := by
  refine ⟨?_, fun e he => ⟨Action.truthful_history backend e he, Action.punctual_history backend e he⟩⟩
  have ensures : (s.verifyFor request token expected).Ensures (.limited s.store.retry.HasLongDelay) [] []
      (s.Verified request token expected []) := verifyFor_limited
  split <;> rename_i ended
  · exact (ensures.run_value backend ended).failsClosed
  · rcases ensures.run_fault backend ended with faults | ⟨_, long⟩
    · exact .inl faults
    · exact .inr long
  · exact absurd ended (Action.not_endless backend ensures)

end TokenService

end TokenAuthority
