import Mathlib.Data.Prod.Basic
import TokenAuthority.Proofs.Effect.Alone
import TokenAuthority.Proofs.Resilience.Attempts
import TokenAuthority.Proofs.Revocation.Accounts

/-!
# The number of attempts that an error reports

The error of a retried action carries a number of attempts, which the store passes on as the number of its
cache calls. It is that number when the attempts were used up. An error that ends the series for good counts
as one attempt, however many have come before it.

* `Action.exists_retriesFrom` — a retried action that is over has made its attempts, one after the other.
* `Store.Tallies` — an error of the store has the number of attempts and the cause of the cache calls in its
  history.
* `Store.reports_attempts` — the number that is reported beside the number of attempts, for retried actions
  and for operations of the store.
-/

namespace TokenAuthority

variable {σ α β ε : Type}

/-! ### Attempts that were made -/

namespace Action

variable {backend : Cache.Backend σ} {b : Backoff} {isTransient : ε → Bool}
  {call : Nat → Action (Except ε α)} {w w' v : World σ} {more first n : Nat}

open Backoff

/-- Two actions that are over: the first one was over before the second one. -/
theorem exists_run_of_bind {a : Action β} {f : β → Action α} {x : α}
    (ran : (a >>= f).run backend w = (.value x, w')) :
    ∃ y v, a.run backend w = (.value y, v) ∧ (f y).run backend v = (.value x, w') := by
  rw [run_bind] at ran
  rcases first : a.run backend w with ⟨y | e | _, v⟩ <;> rw [first] at ran
  · exact ⟨y, v, rfl, ran⟩
  · cases ran
  · cases ran

/-- A rest without a delay never ends. -/
theorem run_backOff_of_none (none : b.delayAfter? n (b.factorIn v).1 = none) :
    (backOff b n).run backend v = (.fault .spanRange, (b.factorIn v).2) := by
  unfold backOff
  cases jitter : b.jitter with
  | false =>
      have factor : b.factorIn v = (smallestFactor, v) := by simp [factorIn, jitter]
      rw [factor] at none ⊢
      change (orFault .spanRange (b.delayAfter? n smallestFactor) >>= sleep).run backend v = _
      rw [none]
      rfl
  | true =>
      have factor : b.factorIn v = v.answer .factor := by simp [factorIn, jitter]
      rw [factor] at none ⊢
      change (orFault .spanRange (b.delayAfter? n (v.answer .factor).1) >>= sleep).run backend
        (v.answer .factor).2 = _
      rw [none]
      rfl

/-- A retried action that is over has made its attempts, up to the last one, with rests in between. -/
theorem exists_retriesFrom {r : Except (RetryError ε) α}
    (ran : (retryFrom b isTransient call more first).run backend w = (.value r, w')) :
    ∃ outcome, RetriesFrom backend b isTransient call outcome more first w := by
  induction more generalizing first w with
  | zero =>
      rw [retryFrom_zero] at ran
      obtain ⟨x, v, runs, _⟩ := exists_run_of_bind ran
      exact ⟨fun _ => x, .only ⟨runs, rfl⟩⟩
  | succ more ih =>
      rw [retryFrom_succ] at ran
      obtain ⟨x, v, runs, rest⟩ := exists_run_of_bind ran
      have goes : (call first).Goes backend w _ x v := ⟨runs, rfl⟩
      cases on : goesOn isTransient x with
      | false => exact ⟨fun _ => x, .final goes on⟩
      | true =>
          simp only [on, if_true] at rest
          obtain ⟨_, rested, rests, later⟩ := exists_run_of_bind rest
          cases found : b.delayAfter? first (b.factorIn v).1 with
          | none =>
              rw [run_backOff_of_none found] at rests
              cases rests
          | some delay =>
              rw [(goes_backOff found).run] at rests
              cases rests
              obtain ⟨outcome, retries⟩ := ih later
              -- The outcomes of the later attempts, with that of the first one put in front.
              refine ⟨fun n => if n = first then x else outcome n, ?_⟩
              refine .again (by rwa [if_pos rfl]) (by rwa [if_pos rfl]) found (retries.congr ?_)
              exact fun n beyond => (if_neg (by omega)).symm

/-- What an error says that is the verdict on the outcome of an attempt. -/
theorem eq_error_of_verdict {x : Except ε α} {e : RetryError ε}
    (verdict : verdict isTransient n x = .error e) :
    x = .error e.inner ∧ e.attempts = if isTransient e.inner then n else 1 := by
  cases x with
  | ok a => cases verdict
  | error e' =>
      cases transient : isTransient e' <;> simp only [Backoff.verdict, transient] at verdict <;>
        cases verdict
      · exact ⟨rfl, by simp [RetryError.inner, RetryError.attempts, transient]⟩
      · exact ⟨rfl, by simp [RetryError.inner, RetryError.attempts, transient]⟩

theorem lastAttempt_le {outcome : Nat → Except ε α} :
    b.lastAttempt isTransient outcome ≤ b.attempts := by
  unfold lastAttempt
  cases found : (List.range' 1 b.attempts).find? fun n => !goesOn isTransient (outcome n) with
  | none => exact Nat.le_refl _
  | some n =>
      have mem := List.mem_range'_1.mp (List.mem_of_find?_eq_some found)
      rw [Option.getD_some]
      omega

/-- Run over a world, a retried action makes `n` attempts with rests in between, and nothing else, and ends with
an error: the one that the last attempt has ended with. -/
def FailsAfter (backend : Cache.Backend σ) (b : Backoff) (isTransient : ε → Bool)
    (call : Nat → Action (Except ε α)) (w : World σ) (n : Nat) (e : RetryError ε) (w' : World σ) : Prop :=
  ∃ outcome delays h, b.Attempts backend call outcome 1 n w delays h w' ∧ outcome n = .error e.inner ∧
    (retry b isTransient call).Goes backend w h (.error e) w'

/-- The error of a retried action gives how many attempts were made if it is a passing one, and else that there
was one. -/
theorem failsAfter_of_run {e : RetryError ε}
    (ran : (retry b isTransient call).run backend w = (.value (.error e), w')) :
    ∃ n, 1 ≤ n ∧ n ≤ b.attempts ∧ FailsAfter backend b isTransient call w n e w' ∧
      e.attempts = if isTransient e.inner then n else 1 := by
  obtain ⟨outcome, retries⟩ := exists_retriesFrom ran
  obtain ⟨delays, h, v, attempts, counted, goes⟩ := retries.keepsBudget
  obtain ⟨ended, rfl⟩ := Prod.mk.inj (goes.run.symm.trans ran)
  have ended := Ending.value.inj ended
  obtain ⟨last, reported⟩ := eq_error_of_verdict ended
  rw [ended] at goes
  exact ⟨_, by omega, lastAttempt_le, ⟨outcome, delays, h, attempts, last, goes⟩, reported⟩

end Action

/-! ### Cache calls that were made -/

namespace Revocation.Store

open TokenAuthority.Action

variable {s : Store} {operation : Operation} {request : Cache.Request} {ds : List Nat} {h : History}
  {tried : Nat} {cause : String}

/-- After a history an error gives so many attempts and this cause: the cause is an error of the cache, and
the attempts are the cache calls in the history, if it is a passing one, and else one. -/
def Tallies (s : Store) (h : History) (tried : Nat) (cause : String) : Prop :=
  ∃ e : Cache.Error, cause = e.message ∧ 1 ≤ h.account.calls.length ∧
    h.account.calls.length ≤ s.retry.attempts ∧
    tried = if e.isTransient then h.account.calls.length else 1

/-- An operation that was not available gives what its history shows. -/
def TalliesIn {α : Type} (s : Store) (h : History) (r : Except Interruption (Except Error α)) : Prop :=
  ∀ tried cause, r = .ok (.error (.unavailable tried cause)) → s.Tallies h tried cause

/-- The operations of the store on one token. -/
inductive Operates (s : Store) : {α : Type} → Action (Except Error α) → Prop where
  | isRevoked (tokenId : String) : Operates s (s.isRevoked tokenId)
  | revokeEntry (e : Entry) : Operates s (s.revokeEntry e)
  | revoke (tokenId : String) (ttl : Span) : Operates s (s.revoke tokenId ttl)
  | lookup (tokenId : String) : Operates s (s.lookup tokenId)
  | remove (tokenId : String) : Operates s (s.remove tokenId)

theorem Guarded.tallies
    (seen : s.Guarded operation request ds h (.ok (.error (.unavailable tried cause)))) :
    s.Tallies h tried cause := by
  cases seen with
  | @failed asked told counted made e called =>
      obtain ⟨count, some, atMost, account, reported⟩ := account_of_tries called
      have calls : (History.account (.answered asked (.circuit .acquire) true ::
          (made ++ [.answered told (.circuit .failure) (),
            .answered counted (.count (.storeFailure operation.name)) ()]))).calls.length = count := by
        rw [account_of_granted account rfl, List.length_replicate]
      have budget : 1 ≤ s.retry.attempts := Nat.le_max_right _ _
      refine ⟨e.inner, rfl, ?_⟩
      rw [calls, reported e rfl, Nat.add_sub_cancel_left]
      exact ⟨some, by omega, rfl⟩

/-- An operation gives no such error of its own, so it passes that of its cache calls on. -/
theorem OnKey.talliesIn {tokenId : String} {request : String → Cache.Request}
    {next : (k : String) → (request k).Value → Except Error α} {r : Except Interruption (Except Error α)}
    (own : ∀ k v tried cause, next k v ≠ .error (.unavailable tried cause))
    (seen : s.OnKey operation tokenId request next ds h r) : s.TalliesIn h r := by
  intro tried cause same
  cases seen with
  | invalid key =>
      cases key_eq_error key
      cases same
  | answered key guarded => exact absurd (Except.ok.inj same) (own _ _ tried cause)
  | unanswered key guarded =>
      cases same
      exact guarded.tallies
  | abandoned key guarded => cases same

theorem ensures_talliesIn_onKey {tokenId : String} {request : String → Cache.Request}
    {next : (k : String) → (request k).Value → Except Error α}
    (own : ∀ k v tried cause, next k v ≠ .error (.unavailable tried cause)) :
    (s.onKey operation tokenId request next).Ensures Rule.free ds h s.TalliesIn :=
  (ensures_onKey Rule.lenient_free fun _ _ => allows_free).mono fun _ _ seen => seen.talliesIn own

theorem ensures_talliesIn_revokeEntry (e : Entry) :
    (s.revokeEntry e).Ensures Rule.free ds h s.TalliesIn := by
  refine (ensures_revokeEntry Rule.lenient_free fun _ _ => allows_free).mono fun tail r seen => ?_
  cases seen with
  | stored counted seen => exact fun tried cause impossible => by cases impossible
  | other seen _ => exact seen.talliesIn fun k v tried cause impossible => by cases impossible

/-- What the clock reads first does not show in the cache calls. -/
theorem ensures_talliesIn_revoke (tokenId : String) (ttl : Span) :
    (s.revoke tokenId ttl).Ensures Rule.free ds h s.TalliesIn := by
  unfold revoke
  refine Ensures.ask (fun _ _ => trivial) fun read time => ?_
  refine Ensures.bind _ (ensures_talliesIn_revokeEntry _) ?_ ?_
  · intro tail r tallies
    cases r with
    | ok stored =>
        refine Ensures.done fun tried cause impossible => ?_
        cases impossible
    | error e =>
        refine Ensures.done fun tried cause same => ?_
        cases same
        rw [List.append_nil]
        exact tallies tried cause rfl
  · exact fun tail i _ tried cause impossible => by cases impossible

theorem Operates.ensures {a : Action (Except Error α)} (operates : s.Operates a) :
    a.Ensures Rule.free ds h s.TalliesIn := by
  cases operates with
  | isRevoked tokenId => exact ensures_talliesIn_onKey fun k v tried cause impossible => by cases impossible
  | revokeEntry e => exact ensures_talliesIn_revokeEntry e
  | revoke tokenId ttl => exact ensures_talliesIn_revoke tokenId ttl
  | remove tokenId => exact ensures_talliesIn_onKey fun k v tried cause impossible => by cases impossible
  | lookup tokenId =>
      refine ensures_talliesIn_onKey fun k stored tried cause impossible => ?_
      cases stored with
      | none => cases impossible
      | some text =>
          dsimp only at impossible
          split at impossible <;> cases impossible

/-- The error of a retried action reports the attempts that were made exactly if its cause is a passing one or
there was one attempt only, for in all other cases it reports one. So the number in an error of the store is
that of its cache calls exactly if the last of them failed in passing or there was only one, over every cache,
side by side with any other calls. -/
theorem reports_attempts :
    (∀ (backend : Cache.Backend σ) (b : Backoff) (isTransient : ε → Bool)
        (call : Nat → Action (Except ε α)) (w w' : World σ) (e : RetryError ε),
      (Action.retry b isTransient call).run backend w = (.value (.error e), w') →
      ∃ n, 1 ≤ n ∧ n ≤ b.attempts ∧ FailsAfter backend b isTransient call w n e w' ∧
        (e.attempts = if isTransient e.inner then n else 1) ∧
        (e.attempts = n ↔ isTransient e.inner = true ∨ n = 1)) ∧
    ∀ (s : Store) {κ : Type} (backend : Cache.Backend σ) (flow : κ → Flow (Option (Except Error β)))
      {action : Action (Except Error β)} {w : World σ} {S : Scene σ κ (Option (Except Error β))} {i : Nat}
      {strand : Strand σ κ (Option (Except Error β))} {tried : Nat} {cause : String},
      s.Operates action → flow strand.call = action.start → Scene.Steps backend flow ⟨w, []⟩ S →
      S.strands[i]? = some strand →
      strand.place = .ok (.ended (some (.error (.unavailable tried cause)))) →
      s.Tallies strand.seen tried cause := by
  constructor
  · intro backend b isTransient call w w' e ran
    obtain ⟨n, some, atMost, fails, reported⟩ := failsAfter_of_run ran
    refine ⟨n, some, atMost, fails, reported, ?_⟩
    rw [reported]
    cases isTransient e.inner <;> simp [eq_comm]
  · intro s κ backend flow action w S i strand tried cause operates same steps found ended
    have meets : (flow strand.call).Meets Rule.free (Ensures.Over s.TalliesIn) [] := by
      rw [same]
      exact operates.ensures.start
    exact (steps.tracked (Scene.tracked_nil w)).value found ended meets tried cause rfl

end Revocation.Store

/-! ### Two attempts that count as one -/

namespace Sample

open TokenAuthority.Action

/-- The first attempt fails in passing, and any other one for good. -/
def failing (n : Nat) : Action (Except Bool Unit) := return .error (n = 1)

/-- A cache that cannot be reached at first and then answers nonsense. -/
def erratic : World Cache.Scripted :=
  { flaky with
    cache := { flaky.cache with script := [.fail (.unavailable "reset"), .fail (.protocol "nonsense")] } }

/-- The retried action ends with an error that is no passing one. -/
theorem permanent_failing : ∃ w', (retry twice.retry id failing).run Cache.Memory.backend timer =
    (.value (.error (.permanent false)), w') := by
  have ended : ((retry twice.retry id failing).run Cache.Memory.backend timer).1.error? =
      some (.permanent false) := by decide +kernel
  exact ⟨_, Prod.fst_eq_iff.mp (Ending.eq_of_error? ended)⟩

/-- So does a look-up over the cache. -/
theorem unavailable_erratic : ∃ w', (twice.isRevoked "id").run (Cache.Scripted.backend "erratic") erratic =
    (.value (.error (.unavailable 1 "cache protocol error: nonsense")), w') := by
  have ended : ((twice.isRevoked "id").run (Cache.Scripted.backend "erratic") erratic).1.error? =
      some (.unavailable 1 "cache protocol error: nonsense") := by decide +kernel
  exact ⟨_, Prod.fst_eq_iff.mp (Ending.eq_of_error? ended)⟩

/-- An action whose first attempt fails in passing is not over after it. -/
theorem eq_two_of_failing {w' : World Cache.Memory} {n : Nat}
    (fails : FailsAfter Cache.Memory.backend twice.retry id failing timer n (.permanent false) w')
    (atMost : n ≤ twice.retry.attempts) : n = 2 := by
  obtain ⟨outcome, delays, h, attempts, last, _⟩ := fails
  have budget : twice.retry.attempts = 2 := by decide
  have counted := attempts.length
  cases attempts with
  | @again _ _ _ _ _ _ _ delay delays =>
      rw [List.length_cons] at counted
      omega
  | last goes =>
      have first : (failing 1).run Cache.Memory.backend timer = (.value (.error true), timer) := rfl
      have same := Ending.value.inj (Prod.mk.inj (goes.run.symm.trans first)).1
      rw [last] at same
      cases same

/-- Both have made two attempts, and their errors report one. -/
theorem reports_erratic :
    (∃ w', (retry twice.retry id failing).run Cache.Memory.backend timer =
        (.value (.error (.permanent false)), w') ∧
      FailsAfter Cache.Memory.backend twice.retry id failing timer 2 (.permanent false) w' ∧
      (RetryError.permanent false).attempts = 1) ∧
    ∃ w', (twice.isRevoked "id").run (Cache.Scripted.backend "erratic") erratic =
        (.value (.error (.unavailable 1 "cache protocol error: nonsense")), w') ∧
      ((twice.isRevoked "id").history (Cache.Scripted.backend "erratic") erratic).account.calls.length = 2 ∧
      twice.Tallies ((twice.isRevoked "id").history (Cache.Scripted.backend "erratic") erratic) 1
        "cache protocol error: nonsense" := by
  constructor
  · obtain ⟨w', ran⟩ := permanent_failing
    obtain ⟨n, _, atMost, fails, reported, _⟩ :=
      (@Revocation.Store.reports_attempts _ _ Bool _).1 _ _ _ _ _ _ _ ran
    cases eq_two_of_failing fails atMost
    exact ⟨w', ran, fails, reported⟩
  · obtain ⟨w', ran⟩ := unavailable_erratic
    have counted : ((twice.isRevoked "id").history (Cache.Scripted.backend "erratic")
        erratic).account.calls.length = 2 := by
      decide +kernel
    exact ⟨w', ran, counted, (@Revocation.Store.reports_attempts Cache.Scripted Bool _ Bool).2 twice _ _
      (.isRevoked "id") rfl (Scene.steps_action ran) List.getElem?_cons_zero rfl⟩

end Sample

end TokenAuthority
