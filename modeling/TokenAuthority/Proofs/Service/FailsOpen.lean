import Mathlib.Data.List.Forall2
import TokenAuthority.Proofs.Effect.Complete
import TokenAuthority.Proofs.Effect.Prompt
import TokenAuthority.Proofs.Service.Credentials
import TokenAuthority.Proofs.Service.FailClosed

/-!
# The throttle fails open

A throttle whose counters cannot be read turns nobody away. A verification then depends on the time of
day and on the answer of the revocation store, and on nothing else that it sees.

* `TokenService.verdictGiven` — the verdict for a reading of the clock and an answer of the store.
* `TokenService.Decided` — what a verdict is founded on, in the history that leads to it.
* `TokenService.Decided.verdict` — without a counter that reads as a number the verdict is the given one.
* `TokenService.fails_open` — along any sequence of verifications, over any caches, a service with such a
  throttle and one without any give the same verdicts, as far as neither ends in a fault.
-/

namespace TokenAuthority

/-- The event answers the counter of a client with a number. -/
def Event.Counts (t : Throttle) (client : String) (e : Event) : Prop :=
  ∃ time ds text n, e = .ended time (.cache (.get (t.key client))) ds (.ok (.ok (some text))) ∧
    Integer.uint64? text = some n

namespace TokenService

open TokenAuthority.Action

variable {s : TokenService} {request : RequestContext} {token : String} {expected : TokenKind}
  {ds : List Nat} {h : History}

/-! ### Being turned away -/

/-- A history in which a client is counted, under a throttle that applies to the request; or the throttle
needs no count. -/
def CountsAgainst (s : TokenService) (request : RequestContext) (h : History) : Prop :=
  ∃ t client, s.throttled? request = some (t, client) ∧
    (t.maxFailures = 0 ∨ ∃ e ∈ h, e.Counts t client)

/-- The failures of a client are none, unless its counter reads as a number. -/
theorem ensures_failures {t : Throttle} {client : String} :
    (t.failures client).Ensures Rule.free ds h fun tail r =>
      ∀ n, r = .ok n → n = 0 ∨ ∃ e ∈ tail, e.Counts t client := by
  unfold Throttle.failures
  refine Ensures.bind _ (Cache.ensures_limited (fun _ _ => trivial) fun _ _ _ _ => trivial) ?_
    fun tail i _ n impossible => by cases impossible
  intro tail x seen
  match x with
  | .error e => exact Ensures.done fun n same => .inl (Except.ok.inj same).symm
  | .ok none => exact Ensures.done fun n same => .inl (Except.ok.inj same).symm
  | .ok (some text) =>
      refine Ensures.done fun n same => ?_
      rw [List.append_nil]
      cases read : Integer.uint64? text with
      | none =>
          rw [read] at same
          exact .inl (Except.ok.inj same).symm
      | some count =>
          cases seen with
          | answered asked time begun =>
              exact .inr ⟨_, List.mem_cons_of_mem _ (List.mem_singleton_self _), time, _, text, count,
                rfl, read⟩

/-- A request is turned away only if it is counted against. -/
theorem ensures_turnedAway : (s.isTurnedAway request).Ensures Rule.free ds h fun tail r =>
    r = .ok true → s.CountsAgainst request tail := by
  unfold isTurnedAway
  match found : s.throttled? request with
  | none => exact Ensures.done fun impossible => by cases impossible
  | some (t, client) =>
      refine Ensures.bind _ ensures_failures ?_ fun tail i _ impossible => by cases impossible
      intro tail n counted
      refine Ensures.done fun away => ⟨t, client, found, ?_⟩
      rw [List.append_nil]
      rcases counted n rfl with rfl | counts
      · exact .inl (UInt64.le_zero_iff.mp (of_decide_eq_true (Except.ok.inj away)))
      · exact .inr counts

/-! ### What a verdict is founded on -/

/-- The look-up that a verification makes for a credential. -/
def lookUp (s : TokenService) (c : Credential) :
    Action (Except TimeoutError (Except Revocation.Error Bool)) :=
  Action.withTimeout s.policy.revocationCheckTimeout (s.store.isRevoked c.tokenId)

/-- The verdict on a token for a reading of the clock and an outcome of the look-up. -/
def verdictGiven (s : TokenService) (token : String) (expected : TokenKind) (now : Int64)
    (lookup : Except TimeoutError (Except Revocation.Error Bool)) : Verdict :=
  match s.codec.decode s.keys token now with
  | .error e => .ofDecodeError e
  | .ok c => if c.kind = expected then .ofLookup c lookup else .rejected .wrongTokenType .expiryChecked

/-- In this history the clock reads `now`, and a look-up of the identifier of a token that begins right after
a reading ends with `lookup`. -/
structure Consults (s : TokenService) (token : String) (h : History) (now : Int64)
    (lookup : Except TimeoutError (Except Revocation.Error Bool)) : Prop where
  clock : ∀ time x, Event.answered time .clock x ∈ h → x = now
  store : ∀ before time check rest c x, h = before ++ .answered time .clock now :: (check ++ rest) →
    s.codec.decode s.keys token now = .ok c → (s.lookUp c).Completes check x → x = lookup

/-- What a verdict is founded on. -/
inductive Decided (s : TokenService) (request : RequestContext) (token : String)
    (expected : TokenKind) : History → Verdict → Prop where
  | turnedAway {h : History} : s.CountsAgainst request h →
      Decided s request token expected h (.rejected .rateLimited .received)
  | undecodable (before : History) (time : Instant) {now : Int64} (rest : History) {e : DecodeError} :
      s.codec.decode s.keys token now = .error e →
      Decided s request token expected (before ++ .answered time .clock now :: rest) (.ofDecodeError e)
  | otherKind (before : History) (time : Instant) {now : Int64} (rest : History) {c : Credential} :
      s.codec.decode s.keys token now = .ok c → c.kind ≠ expected →
      Decided s request token expected (before ++ .answered time .clock now :: rest)
        (.rejected .wrongTokenType .expiryChecked)
  | lookedUp (before : History) (time : Instant) {now : Int64} {check : History} (rest : History)
      {c : Credential} {x : Except TimeoutError (Except Revocation.Error Bool)} :
      s.codec.decode s.keys token now = .ok c → c.kind = expected → (s.lookUp c).Completes check x →
      Decided s request token expected (before ++ .answered time .clock now :: (check ++ rest))
        (.ofLookup c x)

/-- It stays founded on that, whatever is seen then. -/
theorem Decided.later {verdict : Verdict} (decided : s.Decided request token expected h verdict)
    (tail : History) : s.Decided request token expected (h ++ tail) verdict := by
  cases decided with
  | turnedAway counts =>
      obtain ⟨t, client, found, counts⟩ := counts
      refine .turnedAway ⟨t, client, found, counts.imp_right ?_⟩
      rintro ⟨e, mem, count⟩
      exact ⟨e, List.mem_append_left _ mem, count⟩
  | undecodable before time rest failed =>
      rw [List.append_assoc, List.cons_append]
      exact .undecodable before time _ failed
  | otherKind before time rest decoded other =>
      rw [List.append_assoc, List.cons_append]
      exact .otherKind before time _ decoded other
  | lookedUp before time rest decoded kind completes =>
      rw [List.append_assoc, List.cons_append, List.append_assoc]
      exact .lookedUp before time _ decoded kind completes

/-- The verdict on a credential is founded on its look-up. -/
theorem ensures_lookedUp {c : Credential} : (s.checkRevocation c).Ensures Rule.free [] h fun tail r =>
    ∀ verdict, r = .ok verdict → ∃ x, (s.lookUp c).Completes tail x ∧ verdict = .ofLookup c x := by
  unfold checkRevocation
  refine Ensures.bind _ (ensures_completes (a := s.lookUp c)) ?_
    fun tail i _ verdict impossible => by cases impossible
  intro tail x completes
  refine Ensures.done fun verdict same => ⟨x, ?_, (Except.ok.inj same).symm⟩
  rw [List.append_nil]
  exact completes x rfl

theorem ensures_decided : (s.judge request token expected).Ensures Rule.free [] h fun tail r =>
    ∀ verdict, r = .ok verdict → s.Decided request token expected tail verdict := by
  unfold judge
  refine Ensures.bind _ ensures_turnedAway ?_ fun tail i _ verdict impossible => by cases impossible
  intro before away counted
  cases away with
  | true =>
      refine Ensures.done fun verdict same => ?_
      cases same
      rw [List.append_nil]
      exact .turnedAway (counted rfl)
  | false =>
      refine Ensures.ask (fun _ _ => trivial) fun time now => ?_
      cases decoded : s.codec.decode s.keys token now with
      | error e =>
          refine Ensures.done fun verdict same => ?_
          cases same
          exact .undecodable before time [] decoded
      | ok c =>
          simp only
          by_cases kind : c.kind = expected
          · rw [if_pos kind]
            refine ensures_lookedUp.mono fun check r looked verdict same => ?_
            obtain ⟨x, completes, rfl⟩ := looked verdict same
            rw [← List.append_nil check]
            exact .lookedUp before time [] decoded kind completes
          · rw [if_neg kind]
            refine Ensures.done fun verdict same => ?_
            cases same
            exact .otherKind before time [] decoded kind

theorem ensures_decidedFor : (s.verifyFor request token expected).Ensures Rule.free [] h fun tail r =>
    ∀ verdict, r = .ok verdict → s.Decided request token expected tail verdict := by
  unfold verifyFor
  refine Ensures.bind _ ensures_decided ?_ fun tail i _ verdict impossible => by cases impossible
  intro tail verdict decided
  refine Ensures.bind _ ensures_completes ?_ fun tail' i _ verdict' impossible => by cases impossible
  intro observed _ _
  refine Ensures.done fun verdict' same => ?_
  cases same
  rw [List.append_nil]
  exact (decided verdict rfl).later observed

/-- Where nothing counts against a request, its verdict is the one that the time of day and the outcome of
the look-up give. -/
theorem Decided.verdict {verdict : Verdict} {now : Int64}
    {lookup : Except TimeoutError (Except Revocation.Error Bool)}
    (decided : s.Decided request token expected h verdict)
    (uncounted : ¬ s.CountsAgainst request h) (consults : s.Consults token h now lookup) :
    verdict = s.verdictGiven token expected now lookup := by
  unfold verdictGiven
  cases decided with
  | turnedAway counts => exact absurd counts uncounted
  | undecodable before time rest failed =>
      cases consults.clock time _ (List.mem_append_right _ List.mem_cons_self)
      rw [failed]
  | otherKind before time rest decoded other =>
      cases consults.clock time _ (List.mem_append_right _ List.mem_cons_self)
      rw [decoded]
      exact (if_neg other).symm
  | lookedUp before time rest decoded kind completes =>
      cases consults.clock time _ (List.mem_append_right _ List.mem_cons_self)
      cases consults.store before time _ rest _ _ rfl decoded completes
      rw [decoded]
      exact (if_pos kind).symm

/-! ### The clock and the store in a verification -/

/-- A history has one place for a reading of the clock, if the clock is not read before it and after it. -/
theorem place_unique {before before' after after' : History} {e e' : Event}
    (clocklessBefore : ∀ e ∈ before, e.IsClockless) (clocklessAfter : ∀ e ∈ after, e.IsClockless)
    (reading : ¬ e'.IsClockless)
    (same : before ++ e :: after = before' ++ e' :: after') : before = before' ∧ after = after' := by
  induction before generalizing before' with
  | nil =>
      cases before' with
      | nil => exact ⟨rfl, (List.cons.inj same).2⟩
      | cons first before' =>
          obtain ⟨-, rest⟩ := List.cons.inj same
          refine absurd (clocklessAfter e' ?_) reading
          rw [rest]
          exact List.mem_append_right _ List.mem_cons_self
  | cons first before ih =>
      obtain ⟨clockless, clocklessBefore⟩ := List.forall_mem_cons.mp clocklessBefore
      cases before' with
      | nil =>
          obtain ⟨rfl, -⟩ := List.cons.inj same
          exact absurd clockless reading
      | cons first' before' =>
          obtain ⟨rfl, rest⟩ := List.cons.inj same
          obtain ⟨rfl, rfl⟩ := ih clocklessBefore rest
          exact ⟨rfl, rfl⟩

theorem not_clockless {time : Instant} {now : Int64} : ¬ (Event.answered time .clock now).IsClockless :=
  fun clockless => clockless rfl

/-- A verification reads the clock once at most. -/
theorem Verified.reads {verdict : Verdict} (seen : s.Verified request token expected [] h (.ok verdict)) :
    (∀ e ∈ h, e.IsClockless) ∨ ∃ before time now after, h = before ++ .answered time .clock now :: after ∧
      (∀ e ∈ before, e.IsClockless) ∧ ∀ e ∈ after, e.IsClockless := by
  cases seen with
  | @judged h observed verdict judged observes =>
      have quiet {before : History} (sees : ∀ e ∈ before, s.SeesThrottle request e) :
          ∀ e ∈ before, e.IsClockless := fun e he => (sees e he).aside.1
      have quietAfter : ∀ e ∈ observed, e.IsClockless := fun e he => (observes e he).aside.1
      cases judged with
      | turnedAway sees => exact .inl (List.forall_mem_append.mpr ⟨quiet sees, quietAfter⟩)
      | undecodable time sees _ =>
          rw [List.append_assoc]
          exact .inr ⟨_, time, _, observed, rfl, quiet sees, quietAfter⟩
      | otherKind time sees _ _ =>
          rw [List.append_assoc]
          exact .inr ⟨_, time, _, observed, rfl, quiet sees, quietAfter⟩
      | checked time sees _ _ checked =>
          rw [List.append_assoc]
          exact .inr ⟨_, time, _, _, rfl, quiet sees,
            List.forall_mem_append.mpr ⟨checked.clockless, quietAfter⟩⟩

/-- A verification that accepts a token has looked it up, and found that it is not revoked. -/
theorem Decided.consults_of_accepted {c : Credential} {now : Int64}
    (decided : s.Decided request token expected h (.accepted c))
    (seen : s.Verified request token expected [] h (.ok (.accepted c)))
    (clock : ∀ time x, Event.answered time .clock x ∈ h → x = now) :
    s.Consults token h now (.ok (.ok false)) := by
  generalize accepted : Verdict.accepted c = verdict at decided
  cases decided with
  | turnedAway counts => cases accepted
  | undecodable before time rest failed => cases accepted
  | otherKind before time rest decoded other => cases accepted
  | @lookedUp before time now' check rest c₀ x decoded kind completes =>
      refine ⟨clock, ?_⟩
      intro before' time' check' rest' c' x' same decoded' completes'
      have here : Event.answered time .clock now' ∈
          before ++ .answered time .clock now' :: (check ++ rest) :=
        List.mem_append_right _ List.mem_cons_self
      cases clock time now' here
      cases decoded.symm.trans decoded'
      rcases seen.reads with clockless | ⟨before₀, time₀, _, after₀, cut, clocklessBefore, clocklessAfter⟩
      · exact absurd here (not_mem_of_clockless clockless)
      · obtain ⟨-, following⟩ := place_unique clocklessBefore clocklessAfter not_clockless cut.symm
        obtain ⟨-, following'⟩ :=
          place_unique clocklessBefore clocklessAfter not_clockless (cut.symm.trans same)
        obtain ⟨-, rfl⟩ := completes.unique completes' (following.symm.trans following')
        rcases x with _ | _ | _ | _ <;> cases accepted
        rfl

/-! ### Sequences of verifications -/

def unthrottled (s : TokenService) : TokenService := { s with throttle := none }

/-- One verification of a sequence, with what it has seen and how it has ended. -/
structure Round where
  request : RequestContext
  token : String
  expected : TokenKind
  history : History
  ending : Ending Verdict

/-- Verifications one after the other, the last one first. Between two of them time passes, and anything
may happen to the cache, the breaker and the clock. -/
inductive Rounds {σ : Type} (s : TokenService) (backend : Cache.Backend σ) :
    World σ → List Round → World σ → Prop where
  | none (w : World σ) : Rounds s backend w [] w
  | next {w₀ w w' : World σ} {rounds : List Round} (request : RequestContext) (token : String)
      (expected : TokenKind) : Rounds s backend w₀ rounds w → w.now ≤ w'.now →
      Rounds s backend w₀
        (⟨request, token, expected, (s.verifyFor request token expected).history backend w',
          ((s.verifyFor request token expected).run backend w').1⟩ :: rounds)
        ((s.verifyFor request token expected).run backend w').2

/-- Two verifications of the same token for the same request, with the same reading of the clock and the same
end of the look-up, the first of which reads no number of failures. -/
structure Round.Alike (s : TokenService) (t : Throttle) (r r' : Round) : Prop where
  request : r'.request = r.request
  token : r'.token = r.token
  expected : r'.expected = r.expected
  unread : ∀ e ∈ r.history, ∀ client, ¬ e.Counts t client
  consults : ∃ now lookup, s.Consults r.token r.history now lookup ∧ s.Consults r.token r'.history now lookup

/-- A verification has ended in a fault of the cache, or of a delay between attempts that is too long to be a
span. -/
def Round.Breaks {σ : Type} (s : TokenService) (backend : Cache.Backend σ) (r : Round) : Prop :=
  ∃ f, r.ending = .fault f ∧ (backend.Faults f ∨ s.store.retry.HasLongDelay f)

/-- A verification ends with a verdict that is founded on what it has seen, or in such a fault. -/
theorem decided_or_breaks {σ : Type} (backend : Cache.Backend σ) (w : World σ) (request : RequestContext)
    (token : String) (expected : TokenKind) :
    (∃ verdict, ((s.verifyFor request token expected).run backend w).1 = .value verdict ∧
      s.Decided request token expected ((s.verifyFor request token expected).history backend w) verdict) ∨
    Round.Breaks s backend ⟨request, token, expected, (s.verifyFor request token expected).history backend w,
      ((s.verifyFor request token expected).run backend w).1⟩ := by
  have closed := (verifyFor_run_failsClosed backend s request token expected w).1
  cases ended : ((s.verifyFor request token expected).run backend w).1 with
  | value verdict =>
      exact .inl ⟨verdict, rfl, ensures_decidedFor.run_value backend ended verdict rfl⟩
  | fault f =>
      rw [ended] at closed
      exact .inr ⟨f, rfl, closed⟩
  | endless =>
      rw [ended] at closed
      exact closed.elim

theorem consults_of_run {σ : Type} {backend : Cache.Backend σ} {w : World σ} {c : Credential} {now : Int64}
    (ended : ((s.verifyFor request token expected).run backend w).1 = .value (.accepted c))
    (clock : ∀ time x, Event.answered time .clock x ∈
      (s.verifyFor request token expected).history backend w → x = now) :
    s.Consults token ((s.verifyFor request token expected).history backend w) now (.ok (.ok false)) :=
  (ensures_decidedFor.run_value backend ended _ rfl).consults_of_accepted
    (verifyFor_limited.run_value backend ended) clock

/-- Nothing counts against a request in a history without a counter that reads as a number, if the throttle
lets one failure pass at least. -/
theorem not_countsAgainst {t : Throttle} (throttled : s.throttle = some t) (lenient : 1 ≤ t.maxFailures)
    (unread : ∀ e ∈ h, ∀ client, ¬ e.Counts t client) : ¬ s.CountsAgainst request h := by
  rintro ⟨t', client, found, counts⟩
  unfold throttled? at found
  rw [throttled] at found
  cases called : request.client with
  | none =>
      rw [called] at found
      cases found
  | some client' =>
      rw [called] at found
      cases found
      rcases counts with unlimited | ⟨e, mem, counts⟩
      · rw [unlimited] at lenient
        exact absurd lenient (by decide)
      · exact unread e mem _ counts

/-- Without a throttle nothing counts at all. -/
theorem not_countsAgainst_unthrottled : ¬ s.unthrottled.CountsAgainst request h := by
  rintro ⟨t, client, impossible, _⟩
  cases impossible

/-- A throttle of which no counter can be read makes no difference: along two sequences of the same
verifications, one with the throttle and one without it, each verdict is the same, as long as clock and store
tell both the same, unless one of the two has ended in a fault. The caches may be different ones and may do
anything else, also with what the throttle writes. -/
theorem fails_open {σ σ' : Type} {backend : Cache.Backend σ} {backend' : Cache.Backend σ'} {t : Throttle}
    {w₀ w : World σ} {w₀' w' : World σ'} {rounds rounds' : List Round}
    (throttled : s.throttle = some t) (lenient : 1 ≤ t.maxFailures)
    (ran : s.Rounds backend w₀ rounds w) (ran' : s.unthrottled.Rounds backend' w₀' rounds' w')
    (alike : List.Forall₂ (Round.Alike s t) rounds rounds') :
    List.Forall₂ (fun r r' => (∃ verdict, r.ending = .value verdict ∧ r'.ending = .value verdict) ∨
      r.Breaks s backend ∨ r'.Breaks s backend') rounds rounds' := by
  induction alike generalizing w w' with
  | nil => exact .nil
  | cons same _ ih =>
      cases ran with
      | @next _ v _ _ _ _ before _ =>
          cases ran' with
          | @next _ v' _ request' token' expected' before' _ =>
              obtain ⟨rfl, rfl, rfl, unread, now, lookup, consults, consults'⟩ := same
              refine .cons ?_ (ih before before')
              rcases decided_or_breaks backend v request' token' expected' with ⟨verdict, ended, decided⟩ | breaks
              · rcases s.unthrottled.decided_or_breaks backend' v' request' token' expected' with
                  ⟨verdict', ended', decided'⟩ | breaks
                · cases decided.verdict (not_countsAgainst throttled lenient unread) consults
                  cases decided'.verdict not_countsAgainst_unthrottled ⟨consults'.clock, consults'.store⟩
                  exact .inl ⟨_, ended, ended'⟩
                · exact .inr (.inr breaks)
              · exact .inr (.inl breaks)

end TokenService

/-! ### A cache without counters -/

namespace Sample

open TokenService

/-- A cache that cannot be asked for counters and never answers when one is to be added to. It holds no
entry. -/
def severed : Cache.Backend Unit where
  name := "severed"
  start request _ c :=
    (c, match request with
      | .get _ => .acts none fun _ c => .ok (.error (.unavailable "connection refused"), c)
      | .increment _ _ => .never
      | .contains _ => .acts none fun _ c => .ok (.ok false, c)
      | .setIfAbsent _ _ _ => .acts none fun _ c => .ok (.ok true, c)
      | .delete _ => .acts none fun _ c => .ok (.ok false, c)
      | .ping => .acts none fun _ c => .ok (.ok (), c))

/-- A service that turns a client away after one failure. -/
def limiting : TokenService := { service with throttle := some { maxFailures := 1 } }

/-- A world with this cache, in which the clock does not move on. -/
def severedWorld : World Unit :=
  ⟨.start, fun _ => 0, world.random, 0, world.breaker, [], ()⟩

def clientRequest : RequestContext := request.withClient "a"

/-- What the verification of a text that is no token leaves. -/
def severedLater (s : TokenService) : World Unit :=
  ((s.verifyFor clientRequest "forged" .access).run severed severedWorld).2

/-- A client presents a text that is no token, and then a good token. -/
def severedRounds (s : TokenService) : List Round :=
  [⟨clientRequest, token, .refresh,
      (s.verifyFor clientRequest token .refresh).history severed (severedLater s),
      ((s.verifyFor clientRequest token .refresh).run severed (severedLater s)).1⟩,
    ⟨clientRequest, "forged", .access,
      (s.verifyFor clientRequest "forged" .access).history severed severedWorld,
      ((s.verifyFor clientRequest "forged" .access).run severed severedWorld).1⟩]

theorem rounds_severed (s : TokenService) : s.Rounds severed severedWorld (severedRounds s)
    ((s.verifyFor clientRequest token .refresh).run severed (severedLater s)).2 :=
  .next _ _ _ (.next _ _ _ (.none _) (Nat.le_refl _)) (Nat.le_refl _)

/-- Whether the event reads no text from the cache, and no time but zero from the clock. -/
def plain : Event → Bool
  | .ended _ (.cache (.get _)) _ (.ok (.ok (some _))) => false
  | .answered _ .clock now => now = 0
  | _ => true

theorem not_counts_plain {h : History} (all : h.all plain = true) (t : Throttle) :
    ∀ e ∈ h, ∀ client, ¬ e.Counts t client := by
  rintro e mem client ⟨time, ds, text, n, rfl, _⟩
  cases List.all_eq_true.mp all _ mem

theorem clock_plain {h : History} (all : h.all plain = true) (time : Instant) (x : Int64)
    (mem : Event.answered time .clock x ∈ h) : x = 0 :=
  of_decide_eq_true (List.all_eq_true.mp all _ mem)

/-- How both verifications go, with the throttle and without it. -/
def GoesWell (s : TokenService) : Prop :=
  ((s.verifyFor clientRequest "forged" .access).history severed severedWorld).all plain = true ∧
    ((s.verifyFor clientRequest "forged" .access).run severed severedWorld).1.value? =
      some (.rejected .malformedToken .received) ∧
    ((s.verifyAs clientRequest credential .refresh).history severed (severedLater s)).all plain = true ∧
    ((s.verifyAs clientRequest credential .refresh).run severed (severedLater s)).1.value? =
      some (.accepted credential)

instance (s : TokenService) : Decidable (GoesWell s) := inferInstanceAs (Decidable (_ ∧ _ ∧ _ ∧ _))

theorem goesWell_limiting : GoesWell limiting := by
  decide +kernel

theorem goesWell_unthrottled : GoesWell limiting.unthrottled := by
  decide +kernel

theorem consults_severed {s : TokenService} (codec : s.codec = service.codec) (keys : s.keys = service.keys)
    (well : GoesWell s) : ∀ r ∈ severedRounds s, s.Consults r.token r.history 0 (.ok (.ok false)) ∧
      (r.history.all plain = true) ∧ ∃ verdict, r.ending = .value verdict := by
  obtain ⟨forgedPlain, forgedEnds, goodPlain, goodEnds⟩ := well
  have decodes : s.codec.decodeIgnoringExpiry s.keys token = .ok credential := by
    rw [codec, keys]
    exact service_decodes
  rw [← verifyFor_eq decodes] at goodPlain goodEnds
  refine List.forall_mem_cons.mpr ⟨⟨?_, goodPlain, _, Ending.eq_of_value? goodEnds⟩,
    List.forall_mem_singleton.mpr ⟨⟨clock_plain forgedPlain, ?_⟩, forgedPlain, _, Ending.eq_of_value? forgedEnds⟩⟩
  · exact consults_of_run (Ending.eq_of_value? goodEnds) (clock_plain goodPlain)
  · intro before time check rest c x _ decoded
    rw [codec, keys] at decoded
    have undecodable : (service.codec.decode service.keys "forged" 0).toOption = none := by decide +kernel
    rw [decoded] at undecodable
    cases undecodable

/-- The client is not turned away, and its good token is accepted with the throttle as it is without it. -/
theorem fails_open_severed : limiting.Rounds severed severedWorld (severedRounds limiting)
      ((limiting.verifyFor clientRequest token .refresh).run severed (severedLater limiting)).2 ∧
    limiting.unthrottled.Rounds severed severedWorld (severedRounds limiting.unthrottled)
      ((limiting.unthrottled.verifyFor clientRequest token .refresh).run severed
        (severedLater limiting.unthrottled)).2 ∧
    List.Forall₂ (fun r r' : Round => ∃ verdict, r.ending = .value verdict ∧ r'.ending = .value verdict)
      (severedRounds limiting) (severedRounds limiting.unthrottled) := by
  have first := consults_severed (s := limiting) rfl rfl goesWell_limiting
  have second := consults_severed (s := limiting.unthrottled) rfl rfl goesWell_unthrottled
  have alike : List.Forall₂ (Round.Alike limiting { maxFailures := 1 }) (severedRounds limiting)
      (severedRounds limiting.unthrottled) := by
    have like {r r' : Round} (mem : r ∈ severedRounds limiting)
        (mem' : r' ∈ severedRounds limiting.unthrottled) (request : r'.request = r.request)
        (token : r'.token = r.token) (expected : r'.expected = r.expected) :
        Round.Alike limiting { maxFailures := 1 } r r' := by
      obtain ⟨consults, plain, _⟩ := first r mem
      obtain ⟨consults', _, _⟩ := second r' mem'
      rw [token] at consults'
      exact ⟨request, token, expected, not_counts_plain plain _, 0, _, consults, consults'.clock, consults'.store⟩
    refine .cons (like List.mem_cons_self List.mem_cons_self rfl rfl rfl) (.cons ?_ .nil)
    exact like (List.mem_cons_of_mem _ List.mem_cons_self) (List.mem_cons_of_mem _ List.mem_cons_self)
      rfl rfl rfl
  have same := fails_open rfl (by decide) (rounds_severed limiting) (rounds_severed limiting.unthrottled) alike
  refine ⟨rounds_severed _, rounds_severed _, List.forall₂_iff_get.mpr ⟨rfl, fun i here here' => ?_⟩⟩
  rcases (List.forall₂_iff_get.mp same).2 i here here' with verdict | ⟨f, faulty, _⟩ | ⟨f, faulty, _⟩
  · exact verdict
  · obtain ⟨_, _, verdict, ended⟩ := first _ (List.get_mem _ ⟨i, here⟩)
    cases ended.symm.trans faulty
  · obtain ⟨_, _, verdict, ended⟩ := second _ (List.get_mem _ ⟨i, here'⟩)
    cases ended.symm.trans faulty

end Sample

end TokenAuthority
