import TokenAuthority.Proofs.Cache.Confined
import TokenAuthority.Proofs.Service.Calls
import TokenAuthority.Proofs.Service.Deadlines
import TokenAuthority.Proofs.Service.FailsOpen
import TokenAuthority.Proofs.Service.FixedWindow
import TokenAuthority.Settings.Basic

/-!
# The order in which a verification decides

What speaks about a token may say several things at once: its client is limited, it has expired, it is of
another kind, it is revoked. The verdict is the first of these in a fixed order, and what comes later in it
is not even asked for.

* `TokenService.Speaks` — what speaks for a verdict, and the place of that verdict in the order. Each is a
  condition of its own, so several may hold of one token.
* `TokenService.Decides` — a verdict is the first that anything speaks for.
* `TokenService.limits_of_judge` — a request is turned away exactly if its client is limited.
* `TokenService.verifyFor_run_decides` — over any cache and any breaker, a verification decides in this order,
  and leaves all entries of the revocation store alone.
-/

namespace TokenAuthority

/-- Every reading of the clock in a history is this one. -/
def History.Reads (h : History) (now : Int64) : Prop :=
  ∀ time x, Event.answered time .clock x ∈ h → x = now

/-- The event belongs to a look-up of the revocation store. -/
def Event.IsLookup : Event → Prop
  | .answered _ (.circuit _) _ => True
  | .ended _ (.cache (.contains _)) _ _ => True
  | _ => False

/-- No counter is read in a history. -/
def History.CountsNothing (h : History) : Prop := ∀ e ∈ h, ∀ key, ¬ e.Ends (.get key)

/-- In a history the cache answers in time that the counter of a client reads as this number. -/
def Throttle.ReadsAs (t : Throttle) (client : String) (h : History) (n : UInt64) : Prop :=
  ∃ asked opened time text, Event.answered asked .timer opened ∈ h ∧
    Event.ended time (.cache (.get (t.key client))) [opened.deadlineTick Throttle.counterTimeout]
      (.ok (.ok (some text))) ∈ h ∧
    Integer.uint64? text = some n

/-- The parts of a verdict fit each other: there is a payload, and no reason, exactly if it accepts. -/
structure Verdict.IsWhole (verdict : Verdict) : Prop where
  payload : verdict.payload?.isSome ↔ verdict.isAccepted = true
  reason : verdict.reason? = none ↔ verdict.isAccepted = true
  result : ∀ c, verdict.toExcept = .ok c ↔ verdict.isAccepted = true ∧ verdict.payload? = some c

theorem Verdict.isWhole (verdict : Verdict) : verdict.IsWhole := by
  cases verdict <;> constructor <;> simp [payload?, reason?, isAccepted, toExcept]

namespace TokenService

open TokenAuthority.Action

/-- The client of a request is limited: a throttle applies, and the counter was read in time and is at its
limit. A limit of zero turns everyone away. -/
def Limits (s : TokenService) (request : RequestContext) (h : History) : Prop :=
  ∃ t client, s.throttled? request = some (t, client) ∧
    (t.maxFailures = 0 ∨ ∃ n, t.maxFailures ≤ n ∧ t.ReadsAs client h n)

/-- What speaks for a verdict at a time of day, and the place of that verdict in the order of decisions. -/
inductive Speaks (s : TokenService) (request : RequestContext) (token : String) (expected : TokenKind)
    (h : History) (now : Int64) : Nat → Verdict → Prop where
  | limited : s.Limits request h →
      Speaks s request token expected h now 0 (.rejected .rateLimited .received)
  | malformed {detail : String} : s.codec.decode s.keys token now = .error (.malformed detail) →
      Speaks s request token expected h now 1 (.rejected .malformedToken .received)
  | unsigned : s.codec.decode s.keys token now = .error .signatureInvalid →
      Speaks s request token expected h now 1 (.rejected .signatureInvalid .received)
  | misstated {detail : String} : s.codec.decode s.keys token now = .error (.invalidClaims detail) →
      Speaks s request token expected h now 1 (.rejected .invalidClaims .received)
  | expired : s.codec.decode s.keys token now = .error .expired →
      Speaks s request token expected h now 2 (.rejected .expiredToken .decoded)
  | otherKind {c : Credential} : s.codec.decode s.keys token now = .ok c → c.kind ≠ expected →
      Speaks s request token expected h now 3 (.rejected .wrongTokenType .expiryChecked)
  | unanswered {c : Credential} : s.codec.decode s.keys token now = .ok c →
      (∀ found, ¬ s.LookedUp c h found) →
      Speaks s request token expected h now 4 (.rejected .revocationCheckUnavailable .expiryChecked)
  | revoked {c : Credential} : s.codec.decode s.keys token now = .ok c → s.LookedUp c h true →
      Speaks s request token expected h now 5 (.rejected .tokenRevoked .revocationChecked)
  | valid {c : Credential} : s.codec.decode s.keys token now = .ok c →
      Speaks s request token expected h now 6 (.accepted c)

/-- The verdict is the first in the order that anything speaks for. -/
structure Leads (s : TokenService) (request : RequestContext) (token : String) (expected : TokenKind)
    (h : History) (now : Int64) (place : Nat) (verdict : Verdict) : Prop where
  speaks : s.Speaks request token expected h now place verdict
  first : ∀ place' verdict', s.Speaks request token expected h now place' verdict' →
    place < place' ∨ verdict' = verdict

/-- A verification has decided in the fixed order. The time of day is the one that it has read; where it
has read none, no time of day would change the verdict. -/
structure Decides (s : TokenService) (request : RequestContext) (token : String) (expected : TokenKind)
    (h : History) (verdict : Verdict) : Prop where
  reads : (∃ now, h.Reads now) ∧
    (¬ s.Limits request h → ∃ time now, Event.answered time .clock now ∈ h)
  leads : ∀ now, h.Reads now → ∃ place, s.Leads request token expected h now place verdict ∧
    (place < 4 → ∀ e ∈ h, ¬ e.IsLookup)
  whole : verdict.IsWhole

variable {s : TokenService} {request : RequestContext} {token : String} {expected : TokenKind}
  {h : History} {verdict : Verdict}

/-! ### Clients that are limited -/

/-- If no counter is read later, the counter of a client reads as the number that was answered for it. -/
theorem read_of_readsAs {t : Throttle} {client : String} {tail later : History}
    {x : (Cache.Request.get (t.key client)).Answer} {n : UInt64}
    (seen : Cache.Attempted Throttle.counterTimeout (.get (t.key client)) [] tail (.ok x))
    (quiet : later.CountsNothing) (readsAs : t.ReadsAs client (tail ++ later) n) :
    ∃ text, x = .ok (some text) ∧ Integer.uint64? text = some n := by
  obtain ⟨asked, opened, time, text, _, ended, read⟩ := readsAs
  refine ⟨text, ?_, read⟩
  rcases List.mem_append.mp ended with ended | ended
  · cases seen with
    | answered =>
        simp only [List.mem_cons, List.not_mem_nil, or_false, reduceCtorEq, false_or, Event.ended.injEq,
          heq_eq_eq, true_and, Except.ok.injEq] at ended
        exact ended.2.2.symm
    | late => simp at ended
  · exact absurd ⟨time, _, _, rfl⟩ (quiet _ ended _)

/-- The failures of a client are the number that its counter reads as, or none. What is seen later does not
matter, as long as no counter is read in it. -/
theorem readsAs_of_failures {t : Throttle} {client : String} :
    (t.failures client).Ensures Rule.free [] h fun tail r => ∀ n, r = .ok n →
      ∀ later : History, later.CountsNothing →
        (n = 0 ∨ t.ReadsAs client (tail ++ later) n) ∧ ∀ m, t.ReadsAs client (tail ++ later) m → m = n := by
  unfold Throttle.failures
  apply Ensures.bind _ (Cache.ensures_limited (fun _ _ => trivial) fun _ _ _ _ => trivial)
  · intro tail x seen
    have nothing (failed : ∀ text n, x = .ok (some text) → Integer.uint64? text ≠ some n) :
        (Action.done 0 : Action UInt64).Ensures Rule.free [] (h ++ tail) fun tail' r =>
          ∀ n, r = .ok n → ∀ later : History, later.CountsNothing →
            (n = 0 ∨ t.ReadsAs client (tail ++ tail' ++ later) n) ∧
              ∀ m, t.ReadsAs client (tail ++ tail' ++ later) m → m = n := by
      apply Ensures.done
      intro n same later quiet
      rw [List.append_nil]
      refine ⟨.inl (Except.ok.inj same).symm, ?_⟩
      intro m readsAs
      obtain ⟨text, rfl, read⟩ := read_of_readsAs seen quiet readsAs
      exact absurd read (failed text m rfl)
    match x with
    | .error e => exact nothing fun text n impossible => by cases impossible
    | .ok none => exact nothing fun text n impossible => by cases impossible
    | .ok (some text) =>
        dsimp only
        cases read : Integer.uint64? text with
        | none =>
            apply nothing
            rintro text n ⟨⟩ impossible
            cases read.symm.trans impossible
        | some count =>
            apply Ensures.done
            intro n same later quiet
            cases same
            rw [List.append_nil]
            constructor
            · right
              cases seen with
              | answered asked time begun => exact ⟨asked, begun, time, text, by simp, by simp, read⟩
            · intro m readsAs
              obtain ⟨_, ⟨⟩, read'⟩ := read_of_readsAs seen quiet readsAs
              exact Option.some.inj (read'.symm.trans read)
  · intro tail i _ n impossible
    cases impossible

/-- A request is turned away exactly if its client is limited. -/
theorem limits_of_turnedAway : (s.isTurnedAway request).Ensures Rule.free [] h fun tail r =>
    ∀ away, r = .ok away → ∀ later : History, later.CountsNothing →
      (away = true ↔ s.Limits request (tail ++ later)) := by
  unfold isTurnedAway
  match found : s.throttled? request with
  | none =>
      apply Ensures.done
      rintro away ⟨⟩ later _
      constructor
      · exact fun impossible => by cases impossible
      · rintro ⟨t, client, impossible, _⟩
        cases found.symm.trans impossible
  | some (t, client) =>
      apply Ensures.bind _ readsAs_of_failures
      · intro tail n counted
        apply Ensures.done
        rintro away ⟨⟩ later quiet
        rw [List.append_nil, decide_eq_true_iff]
        obtain ⟨told, only⟩ := counted n rfl later quiet
        constructor
        · intro full
          refine ⟨t, client, found, ?_⟩
          rcases told with rfl | readsAs
          · exact .inl (UInt64.le_zero_iff.mp full)
          · exact .inr ⟨n, full, readsAs⟩
        · rintro ⟨t', client', found', full⟩
          cases found.symm.trans found'
          rcases full with none | ⟨m, full, readsAs⟩
          · rw [none]
            exact UInt64.zero_le
          · rwa [← only m readsAs]
      · intro tail i _ away impossible
        cases impossible

/-- No verdict that is reached through a look-up is that of the throttle. -/
theorem ofLookup_reason_ne {c : Credential} {x : Except TimeoutError (Except Revocation.Error Bool)} :
    (Verdict.ofLookup c x).reason? ≠ some .rateLimited := by
  rcases x with _ | _ | _ | _ <;> exact fun impossible => by cases impossible

/-- A look-up reads no counter, and its verdict is not that of the throttle. -/
theorem Checked.countsNothing {c : Credential} (seen : s.Checked c [] h (.ok verdict)) :
    h.CountsNothing ∧ verdict.reason? ≠ some .rateLimited := by
  have quiet {asked opened : Instant} {lookup : History} {ds : List Nat}
      {r : Except Interruption (Except Revocation.Error Bool)} (looked : s.store.LooksUp c.tokenId ds lookup r) :
      History.CountsNothing (.answered asked .timer opened :: lookup) := by
    intro e mem key ends
    rcases List.mem_cons.mp mem with rfl | mem
    · exact Event.not_ends_answered ends
    · obtain ⟨time, ds', x, rfl⟩ := ends
      obtain ⟨k, _, impossible | ⟨span, impossible⟩⟩ := looked.events _ mem <;> cases impossible
  generalize outcome : (Except.ok verdict : Except Interruption Verdict) = r at seen
  cases seen with
  | answered asked opened looked =>
      cases outcome
      exact ⟨quiet looked, ofLookup_reason_ne⟩
  | late asked opened looked =>
      cases outcome
      exact ⟨quiet looked, ofLookup_reason_ne⟩
  | cut asked opened looked => cases outcome
  | faulty asked opened looked => cases outcome

/-- A verdict is that of the throttle exactly if the client is limited. -/
theorem limits_of_judge : (s.judge request token expected).Ensures Rule.free [] h fun tail r =>
    ∀ verdict, r = .ok verdict → ∀ later : History, later.CountsNothing →
      (verdict.reason? = some .rateLimited ↔ s.Limits request (tail ++ later)) := by
  unfold judge
  apply Ensures.bind _ limits_of_turnedAway
  · intro before away limits
    cases away with
    | true =>
        apply Ensures.done
        rintro verdict ⟨⟩ later quiet
        rw [List.append_nil]
        exact ⟨fun _ => (limits true rfl later quiet).mp rfl, fun _ => rfl⟩
    | false =>
        have passed {tail later : History} {verdict : Verdict} (quietTail : tail.CountsNothing)
            (quiet : later.CountsNothing) (other : verdict.reason? ≠ some .rateLimited) :
            verdict.reason? = some .rateLimited ↔ s.Limits request (before ++ tail ++ later) := by
          rw [List.append_assoc]
          have unlimited := limits false rfl _ (List.forall_mem_append.mpr ⟨quietTail, quiet⟩)
          exact ⟨fun same => absurd same other, fun full => by cases unlimited.mpr full⟩
        have told {time : Instant} {now : Int64} {tail : History} (quiet : tail.CountsNothing) :
            History.CountsNothing (.answered time .clock now :: tail) :=
          List.forall_mem_cons.mpr ⟨fun _ => Event.not_ends_answered, quiet⟩
        have none : History.CountsNothing [] := fun e impossible => by cases impossible
        apply Ensures.ask fun _ _ => trivial
        intro time now
        cases s.codec.decode s.keys token now with
        | error e =>
            apply Ensures.done
            rintro verdict ⟨⟩ later quiet
            apply passed (told none) quiet
            cases e <;> exact fun impossible => by cases impossible
        | ok c =>
            dsimp only
            split
            · apply (ensures_checkRevocation Rule.lenient_free
                fun _ _ _ _ => Revocation.Store.allows_free).mono
              rintro check r checked verdict rfl later quiet
              exact passed (told checked.countsNothing.1) quiet checked.countsNothing.2
            · apply Ensures.done
              rintro verdict ⟨⟩ later quiet
              exact passed (told none) quiet fun impossible => by cases impossible
  · intro tail i _ verdict impossible
    cases impossible

/-- Counting a verdict reads no counter. -/
theorem countsNothing_of_observe : (s.observe request expected verdict).Ensures Rule.free [] h fun tail _ =>
    tail.CountsNothing := by
  have asked {time : Instant} {q : Query} {x : q.Answer} : History.CountsNothing [.answered time q x] :=
    List.forall_mem_singleton.mpr fun _ => Event.not_ends_answered
  have recorded {t : Throttle} {client : String} {h : History} :
      (t.recordFailure client).Ensures Rule.free [] h fun tail _ => tail.CountsNothing := by
    unfold Throttle.recordFailure
    apply Ensures.bind (fun tail _ => tail.CountsNothing)
    · apply (Cache.ensures_limited (fun _ _ => trivial) fun _ _ _ _ => trivial).mono
      intro tail r seen e mem key ends
      rcases seen.events e mem with ⟨time, t, rfl⟩ | ⟨time, ds, x, rfl⟩
      · exact Event.not_ends_answered ends
      · obtain ⟨_, _, _, impossible⟩ := ends
        cases impossible
    · intro tail x quiet
      rcases x with _ | _ <;> exact Ensures.done (by rwa [List.append_nil])
    · exact fun tail i quiet => quiet
  unfold observe
  apply Ensures.ask fun _ _ => trivial
  intro time _
  split
  · split
    · apply Ensures.bind _ recorded
      · intro tail _ quiet
        apply Ensures.done
        rw [List.append_nil]
        exact List.forall_mem_append.mpr ⟨asked, quiet⟩
      · exact fun tail i quiet => List.forall_mem_append.mpr ⟨asked, quiet⟩
    · exact Ensures.done asked
  · exact Ensures.done asked

/-- The verdict of a whole verification is that of the throttle exactly if the client is limited. -/
theorem limits_of_verifyFor : (s.verifyFor request token expected).Ensures Rule.free [] h fun tail r =>
    ∀ verdict, r = .ok verdict →
      (verdict.reason? = some .rateLimited ↔ s.Limits request tail) := by
  unfold verifyFor
  apply Ensures.bind _ limits_of_judge
  · intro tail verdict limits
    apply Ensures.bind _ countsNothing_of_observe
    · intro observed _ quiet
      apply Ensures.done
      rintro verdict' ⟨⟩
      rw [List.append_nil]
      exact limits verdict rfl observed quiet
    · intro observed i _ verdict' impossible
      cases impossible
  · intro tail i _ verdict impossible
    cases impossible

/-! ### The first that speaks -/

section Order

variable {now : Int64} {place : Nat}

/-- Of a text that is no acceptable token nothing else is said, unless the client is limited. -/
theorem leads_of_error {e : DecodeError} (unlimited : ¬ s.Limits request h)
    (failed : s.codec.decode s.keys token now = .error e) :
    ∃ place, place < 4 ∧ s.Leads request token expected h now place (.ofDecodeError e) := by
  have only {place : Nat} {verdict : Verdict}
      (speaks : s.Speaks request token expected h now place verdict) : verdict = .ofDecodeError e := by
    cases speaks with
    | limited limits => exact absurd limits unlimited
    | malformed failed' | unsigned failed' | misstated failed' | expired failed' =>
        cases failed.symm.trans failed'
        rfl
    | otherKind decoded _ | unanswered decoded _ | revoked decoded _ | valid decoded =>
        cases failed.symm.trans decoded
  cases e with
  | malformed detail => exact ⟨1, by decide, .malformed failed, fun _ _ speaks => .inr (only speaks)⟩
  | signatureInvalid => exact ⟨1, by decide, .unsigned failed, fun _ _ speaks => .inr (only speaks)⟩
  | expired => exact ⟨2, by decide, .expired failed, fun _ _ speaks => .inr (only speaks)⟩
  | invalidClaims detail => exact ⟨1, by decide, .misstated failed, fun _ _ speaks => .inr (only speaks)⟩

/-- What may speak of a token that holds, if the client is not limited. -/
theorem Speaks.of_ok {c : Credential} (unlimited : ¬ s.Limits request h)
    (decoded : s.codec.decode s.keys token now = .ok c)
    (speaks : s.Speaks request token expected h now place verdict) :
    place = 3 ∧ c.kind ≠ expected ∧ verdict = .rejected .wrongTokenType .expiryChecked ∨
      place = 4 ∧ (∀ found, ¬ s.LookedUp c h found) ∧
        verdict = .rejected .revocationCheckUnavailable .expiryChecked ∨
      place = 5 ∧ s.LookedUp c h true ∧ verdict = .rejected .tokenRevoked .revocationChecked ∨
      place = 6 ∧ verdict = .accepted c := by
  cases speaks with
  | limited limits => exact absurd limits unlimited
  | malformed failed | unsigned failed | misstated failed | expired failed =>
      cases failed.symm.trans decoded
  | otherKind decoded' other =>
      cases decoded.symm.trans decoded'
      exact .inl ⟨rfl, other, rfl⟩
  | unanswered decoded' silent =>
      cases decoded.symm.trans decoded'
      exact .inr (.inl ⟨rfl, silent, rfl⟩)
  | revoked decoded' found =>
      cases decoded.symm.trans decoded'
      exact .inr (.inr (.inl ⟨rfl, found, rfl⟩))
  | valid decoded' =>
      cases decoded.symm.trans decoded'
      exact .inr (.inr (.inr ⟨rfl, rfl⟩))

/-- Where the client is limited, that comes first. -/
theorem leads_of_limits (limits : s.Limits request h) :
    s.Leads request token expected h now 0 (.rejected .rateLimited .received) where
  speaks := .limited limits
  first place' verdict' speaks := by
    cases speaks with
    | limited => exact .inr rfl
    | _ => exact .inl (by decide)

/-- The kind of a token comes before its revocation. -/
theorem leads_of_kind {c : Credential} (unlimited : ¬ s.Limits request h)
    (decoded : s.codec.decode s.keys token now = .ok c) (other : c.kind ≠ expected) :
    s.Leads request token expected h now 3 (.rejected .wrongTokenType .expiryChecked) where
  speaks := .otherKind decoded other
  first place' verdict' speaks := by
    rcases speaks.of_ok unlimited decoded with ⟨_, _, rfl⟩ | ⟨rfl, _⟩ | ⟨rfl, _⟩ | ⟨rfl, _⟩
    · exact .inr rfl
    all_goals exact .inl (by decide)

/-- A look-up that is not answered comes next. -/
theorem leads_of_silence {c : Credential} (unlimited : ¬ s.Limits request h)
    (decoded : s.codec.decode s.keys token now = .ok c) (kind : c.kind = expected)
    (silent : ∀ found, ¬ s.LookedUp c h found) :
    s.Leads request token expected h now 4 (.rejected .revocationCheckUnavailable .expiryChecked) where
  speaks := .unanswered decoded silent
  first place' verdict' speaks := by
    rcases speaks.of_ok unlimited decoded with ⟨_, other, _⟩ | ⟨_, _, rfl⟩ | ⟨rfl, _⟩ | ⟨rfl, _⟩
    · exact absurd kind other
    · exact .inr rfl
    all_goals exact .inl (by decide)

/-- The answer of a look-up comes last. -/
theorem leads_of_found {c : Credential} {found : Bool} (unlimited : ¬ s.Limits request h)
    (decoded : s.codec.decode s.keys token now = .ok c) (kind : c.kind = expected)
    (shown : s.LookedUp c h found) :
    ∃ place, 4 ≤ place ∧
      s.Leads request token expected h now place (.ofLookup c (.ok (.ok found))) := by
  cases found with
  | true =>
      refine ⟨5, by decide, .revoked decoded shown, ?_⟩
      intro place' verdict' speaks
      rcases speaks.of_ok unlimited decoded with ⟨_, other, _⟩ | ⟨_, silent, _⟩ | ⟨_, _, rfl⟩ | ⟨rfl, _⟩
      · exact absurd kind other
      · exact absurd shown (silent true)
      · exact .inr rfl
      · exact .inl (by decide)
  | false =>
      refine ⟨6, by decide, .valid decoded, ?_⟩
      intro place' verdict' speaks
      rcases speaks.of_ok unlimited decoded with ⟨_, other, _⟩ | ⟨_, silent, _⟩ | ⟨_, found, _⟩ | ⟨_, rfl⟩
      · exact absurd kind other
      · exact absurd shown (silent false)
      · cases shown.unique found
      · exact .inr rfl

end Order

/-! ### Runs -/

theorem SeesThrottle.not_isLookup {e : Event} (seen : s.SeesThrottle request e) : ¬ e.IsLookup := by
  rcases seen with ⟨time, t, rfl⟩ | ⟨call, ⟨throttle, client, _, made⟩, time, ds, x, rfl⟩
  · exact id
  · rcases made with rfl | rfl <;> exact id

theorem SeesObserved.not_isLookup {e : Event} (seen : s.SeesObserved request expected verdict e) :
    ¬ e.IsLookup := by
  rcases seen with ⟨time, rfl⟩ | throttle
  · exact id
  · exact throttle.not_isLookup

/-- With one reading of the clock there is one time of day to decide for. -/
theorem Decides.of_reading {before after : History} {time : Instant} {now : Int64}
    (clocklessBefore : ∀ e ∈ before, e.IsClockless) (clocklessAfter : ∀ e ∈ after, e.IsClockless)
    (leads : ∃ place, s.Leads request token expected (before ++ .answered time .clock now :: after) now
      place verdict ∧ (place < 4 → ∀ e ∈ before ++ .answered time .clock now :: after, ¬ e.IsLookup)) :
    s.Decides request token expected (before ++ .answered time .clock now :: after) verdict where
  reads := ⟨⟨now, fun _ _ told => reading_unique clocklessBefore clocklessAfter told⟩,
    fun _ => ⟨time, now, by simp⟩⟩
  leads now' reads := by
    cases reads time now (by simp)
    exact leads
  whole := verdict.isWhole

/-- A verification decides in the fixed order, since it is the throttle that decides for the limited. -/
theorem Verified.decides (seen : s.Verified request token expected [] h (.ok verdict))
    (limits : verdict.reason? = some .rateLimited ↔ s.Limits request h) :
    s.Decides request token expected h verdict := by
  cases seen with
  | @judged h observed verdict judged observes =>
      have clockless {before : History} (sees : ∀ e ∈ before, s.SeesThrottle request e) :
          ∀ e ∈ before, e.IsClockless := fun e he => (sees e he).aside.1
      have clocklessAfter : ∀ e ∈ observed, e.IsClockless := fun e he => (observes e he).aside.1
      have unasked {before : History} {time : Instant} {now : Int64}
          (sees : ∀ e ∈ before, s.SeesThrottle request e) :
          ∀ e ∈ before ++ .answered time .clock now :: observed, ¬ e.IsLookup :=
        List.forall_mem_append.mpr ⟨fun e he => (sees e he).not_isLookup,
          List.forall_mem_cons.mpr ⟨id, fun e he => (observes e he).not_isLookup⟩⟩
      cases judged with
      | turnedAway sees =>
          have limited := limits.mp rfl
          have none := List.forall_mem_append.mpr ⟨clockless sees, clocklessAfter⟩
          constructor
          · exact ⟨⟨0, fun _ _ told => absurd told (not_mem_of_clockless none)⟩,
              fun unlimited => absurd limited unlimited⟩
          · intro now _
            refine ⟨0, leads_of_limits limited, fun _ => ?_⟩
            exact List.forall_mem_append.mpr ⟨fun e he => (sees e he).not_isLookup,
              fun e he => (observes e he).not_isLookup⟩
          · exact Verdict.isWhole _
      | @undecodable _ time now e sees failed =>
          have unlimited := mt limits.mpr (by cases e <;> exact fun impossible => by cases impossible)
          rw [List.append_assoc] at unlimited ⊢
          obtain ⟨place, early, leads⟩ := leads_of_error unlimited failed
          exact .of_reading (clockless sees) clocklessAfter ⟨place, leads, fun _ => unasked sees⟩
      | otherKind time sees decoded other =>
          have unlimited := mt limits.mpr fun impossible => by cases impossible
          rw [List.append_assoc] at unlimited ⊢
          exact .of_reading (clockless sees) clocklessAfter
            ⟨3, leads_of_kind unlimited decoded other, fun _ => unasked sees⟩
      | @checked before check time now c _ sees decoded kind checked =>
          have unlimited := mt limits.mpr checked.countsNothing.2
          rw [List.append_assoc, List.cons_append] at unlimited ⊢
          have after := List.forall_mem_append.mpr ⟨checked.clockless, clocklessAfter⟩
          apply Decides.of_reading (clockless sees) after
          rcases checked.outcome sees observes with ⟨found, shown, rfl⟩ | ⟨silent, rfl⟩
          · obtain ⟨place, late, leads⟩ := leads_of_found unlimited decoded kind shown
            exact ⟨place, leads, fun early => absurd early (Nat.not_lt_of_le late)⟩
          · exact ⟨4, leads_of_silence unlimited decoded kind silent, fun early => absurd early (by decide)⟩

/-- The keys of entries and of counters are built as by default. -/
structure HasDefaultKeys (s : TokenService) : Prop where
  entries : s.store.keySpace = ({} : Settings.Revocations).keySpace
  counters : ∀ t, s.throttle = some t → t.keySpace = ({} : Throttle).keySpace

/-- Then no counter lies under the key of a token. -/
theorem HasDefaultKeys.spares (default : s.HasDefaultKeys) {tokenId key : String}
    (keyed : s.store.key tokenId = .ok key) : s.Spares key :=
  fun t has client => key_ne_of_default default.entries (default.counters t has) keyed client

/-- A verification writes nothing but counters. -/
theorem sparing_of_verifyFor {key : String} (spares : s.Spares key) :
    (s.verifyFor request token expected).Ensures (.sparing key) [] []
      (s.Verified request token expected []) := by
  apply ensures_verifyFor
  · exact ⟨fun _ _ _ _ _ => id, fun _ _ _ _ => id⟩
  · constructor
    · exact fun _ _ call _ _ _ _ throttles => throttles.spares spares
    · intro tail _ time now c k _ _ _
      exact ⟨fun _ _ _ _ _ _ => id, fun _ _ _ _ _ _ => id, fun _ _ _ _ _ => trivial⟩

/-- Over any cache and any breaker a verification ends with the first verdict in the order that
anything speaks for, unless the cache ends in a fault or a delay between attempts is too long to be a span,
which takes a cap of more than 2⁶⁴ - 4096 seconds. In the history, clock and timer answer what the world says,
and every answer comes by its deadlines. With the key spaces that it has by default, it leaves every entry of
the revocation store as it was, however it ends. -/
theorem verifyFor_run_decides {σ : Type} (backend : Cache.Backend σ) (s : TokenService)
    (request : RequestContext) (token : String) (expected : TokenKind) (w : World σ) :
    (match ((s.verifyFor request token expected).run backend w).1 with
      | .value verdict =>
        s.Decides request token expected ((s.verifyFor request token expected).history backend w) verdict
      | .fault f => backend.Faults f ∨
          s.store.retry.HasLongDelay f ∧ Span.ofSecs (2 ^ 64 - 4096) < s.store.retry.cap
      | .endless => False) ∧
    (∀ e ∈ (s.verifyFor request token expected).history backend w,
      e.IsTruthful w.clock ∧ e.IsPunctual) ∧
    (s.HasDefaultKeys → ∀ valid holds, backend.Confined valid holds → valid w.cache →
      ∀ tokenId key, s.store.key tokenId = .ok key →
        Cache.Alike holds ((s.verifyFor request token expected).run backend w).2.now key w.cache
          ((s.verifyFor request token expected).run backend w).2.cache) := by
  have limited : (s.verifyFor request token expected).Ensures (.limited s.store.retry.HasLongDelay) [] []
      (s.Verified request token expected []) := verifyFor_limited
  refine ⟨?_, ?_, ?_⟩
  · have ends := verifyFor_run_ends backend s request token expected w
    split <;> rename_i ended
    · exact (limited.run_value backend ended).decides (limits_of_verifyFor.run_value backend ended _ rfl)
    · rwa [ended] at ends
    · rwa [ended] at ends
  · exact fun e he => ⟨Action.truthful_history backend e he, Action.punctual_history backend e he⟩
  · intro default valid holds confined fine tokenId key keyed
    exact (sparing_of_verifyFor (default.spares keyed)).run_alike confined fine

end TokenService

/-! ### A client that is limited -/

namespace Sample

open TokenService
open Cache (Scripted)

/-- A cache in which two failures of a client are counted, and that hangs then. -/
def stuck : World Scripted :=
  { world with cache := ⟨[.answer "2"], .hang, [], .empty⟩ }

/-- The client presents what is no token at all. It is rejected for its failures and not for that, and no
entry is changed. -/
theorem decides_stuck :
    ((wary.verifyFor (request.withClient "a") "forged" .access).run (Scripted.backend "stuck") stuck).1.value? =
        some (.rejected .rateLimited .received) ∧
      wary.Decides (request.withClient "a") "forged" .access
        ((wary.verifyFor (request.withClient "a") "forged" .access).history (Scripted.backend "stuck") stuck)
        (.rejected .rateLimited .received) ∧
      ∀ e tokenId key, wary.store.key tokenId = .ok key →
        Cache.Alike (fun c t key => c.memory.live? t key = some e)
          ((wary.verifyFor (request.withClient "a") "forged" .access).run (Scripted.backend "stuck") stuck).2.now
          key stuck.cache
          ((wary.verifyFor (request.withClient "a") "forged" .access).run
            (Scripted.backend "stuck") stuck).2.cache := by
  have ended : ((wary.verifyFor (request.withClient "a") "forged" .access).run (Scripted.backend "stuck")
      stuck).1.value? = some (.rejected .rateLimited .received) := by
    decide +kernel
  obtain ⟨decides, _, leaves⟩ := verifyFor_run_decides (Scripted.backend "stuck") wary
    (request.withClient "a") "forged" .access stuck
  refine ⟨ended, ?_, ?_⟩
  · generalize ((wary.verifyFor (request.withClient "a") "forged" .access).run (Scripted.backend "stuck")
      stuck).1 = ending at ended decides
    cases ending with
    | value verdict =>
        cases ended
        exact decides
    | fault f => cases ended
    | endless => cases ended
  · intro e tokenId key keyed
    apply leaves ⟨rfl, ?_⟩ _ _ (Scripted.confined "stuck" e) (Cache.Memory.valid_empty _) tokenId key keyed
    rintro t ⟨⟩
    rfl

end Sample

end TokenAuthority
