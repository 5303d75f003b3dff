import TokenAuthority.Cache.Scripted
import TokenAuthority.Proofs.Effect.Replay
import TokenAuthority.Proofs.Revocation.Store

/-!
# The accounts of the store's calls

Each call of the store leaves an account: what the breaker told it, which cache calls it made, what it
reported to the breaker, and which failures it counted. Calls run side by side over any cache, which may
fail, be late, never answer or end in a fault, and each of their callers may go while the call waits.

* `Account`, `History.account` — what a history amounts to.
* `Store.Accounted` — the five ways in which a call and its account can go together.
* `Store.account_of_tries` — attempts make one cache call each, and report nothing.
* `Store.OnKey.accounted` — so every history of a call leaves one of these accounts.
* `Store.accounted_of_steps` — every call that is over, side by side with any others, does.
-/

namespace TokenAuthority

/-! ### Accounts -/

namespace Event

/-- The answer to a call that asked the breaker for a permit. -/
def permit? : Event → Option Bool
  | .answered _ (.circuit .acquire) granted => some granted
  | _ => none

/-- The cache call that is over. -/
def call? : Event → Option Cache.Request
  | .ended _ (.cache request) _ _ => some request
  | _ => none

/-- What the breaker is told about a call. -/
def report? : Event → Option Breaker.Op
  | .answered _ (.circuit .success) _ => some .success
  | .answered _ (.circuit .failure) _ => some .failure
  | _ => none

/-- The operation of the store whose failure is counted. -/
def failure? : Event → Option String
  | .answered _ (.count (.storeFailure operation)) _ => some operation
  | _ => none

end Event

/-- What a call has done to the breaker, to the cache and to the counters of the store. -/
structure Account where
  /-- What it was told when it asked for a permit. -/
  permits : List Bool
  calls : List Cache.Request
  /-- What it reported. -/
  reports : List Breaker.Op
  /-- The operations whose failures it counted. -/
  failures : List String
deriving DecidableEq

/-- The account of a call that has seen a history. -/
def History.account (h : History) : Account where
  permits := h.filterMap Event.permit?
  calls := h.filterMap Event.call?
  reports := h.filterMap Event.report?
  failures := h.filterMap Event.failure?

namespace Account

/-- One account carried on by another. -/
instance : Append Account where
  append a b := ⟨a.permits ++ b.permits, a.calls ++ b.calls, a.reports ++ b.reports, a.failures ++ b.failures⟩

/-- The account of cache calls alone. -/
def called (count : Nat) (request : Cache.Request) : Account := ⟨[], List.replicate count request, [], []⟩

@[simp]
theorem mk_append {permits permits' : List Bool} {calls calls' : List Cache.Request}
    {reports reports' : List Breaker.Op} {failures failures' : List String} :
    (⟨permits, calls, reports, failures⟩ ++ ⟨permits', calls', reports', failures'⟩ : Account) =
      ⟨permits ++ permits', calls ++ calls', reports ++ reports', failures ++ failures'⟩ := rfl

theorem called_append {m n : Nat} {request : Cache.Request} :
    called m request ++ called n request = called (m + n) request := by
  simp [called]

end Account

theorem History.account_append (h h' : History) :
    History.account (h ++ h') = h.account ++ h'.account := by
  simp [History.account]

theorem History.account_cons (e : Event) (h : History) :
    History.account (e :: h) = History.account [e] ++ h.account :=
  History.account_append [e] h

namespace Revocation

/-! ### Calls -/

namespace Store

/-- How a call of the store for a token goes together with what it has seen under the deadlines `ds`, and
with its outcome: none if its caller has gone or if it has ended in a fault. -/
inductive Accounted {α : Type} (s : Store) (operation : Operation) (tokenId : String)
    (request : String → Cache.Request) (next : (k : String) → (request k).Value → Except Error α)
    (ds : List Nat) : History → Option (Except Error α) → Prop where
  /-- The identifier is not valid, and nothing has been done. -/
  | invalid : s.key tokenId = .error .invalidTokenId →
      Accounted s operation tokenId request next ds [] (some (.error .invalidTokenId))
  /-- The breaker has refused the call. -/
  | refused {k : String} {h : History} : s.key tokenId = .ok k →
      h.account = ⟨[false], [], [], [operation.name]⟩ →
      Accounted s operation tokenId request next ds h (some (.error .circuitOpen))
  /-- The last cache call has been answered, and success reported. -/
  | answered {k : String} {h : History} {count : Nat} {v : (request k).Value} : s.key tokenId = .ok k →
      1 ≤ count → count ≤ max 1 s.retry.maxAttempts →
      h.account = ⟨[true], List.replicate count (request k), [.success], []⟩ →
      s.Concludes (request k) ds h v →
      Accounted s operation tokenId request next ds h (some (next k v))
  /-- No cache call has been answered, and failure reported. -/
  | failed {k : String} {h : History} {count tried : Nat} {cause : String} : s.key tokenId = .ok k →
      1 ≤ count → count ≤ max 1 s.retry.maxAttempts →
      h.account = ⟨[true], List.replicate count (request k), [.failure], [operation.name]⟩ →
      (∀ e ∈ h, ¬ e.Answers (request k)) →
      Accounted s operation tokenId request next ds h (some (.error (.unavailable tried cause)))
  /-- Before a cache call was answered the caller has gone, or a fault has come up: the call has been dropped
  where it stood, which is reported as a failure too. -/
  | dropped {k : String} {h : History} {count : Nat} : s.key tokenId = .ok k →
      1 ≤ count → count ≤ max 1 s.retry.maxAttempts →
      h.account = ⟨[true], List.replicate count (request k), [.failure], [operation.name]⟩ →
      (∀ e ∈ h, ¬ e.Answers (request k)) →
      Accounted s operation tokenId request next ds h none

end Store

/-- A call of the store for one token. -/
inductive Store.Call where
  | isRevoked (tokenId : String)
  | revokeEntry (entry : Entry)
  | lookup (tokenId : String)
  | remove (tokenId : String)

/-- What it answers. -/
inductive Store.Reply where
  | flag (value : Bool)
  | entry (found : Option Entry)

namespace Store.Call

def operation : Call → Operation
  | .isRevoked _ => .isRevoked
  | .revokeEntry _ => .revoke
  | .lookup _ => .lookup
  | .remove _ => .remove

def tokenId : Call → String
  | .isRevoked tokenId => tokenId
  | .revokeEntry entry => entry.tokenId
  | .lookup tokenId => tokenId
  | .remove tokenId => tokenId

/-- The cache call that it makes, given the key of its token. -/
def request : Call → String → Cache.Request
  | .isRevoked _, k => .contains k
  | .revokeEntry entry, k => .setIfAbsent k entry.text entry.ttl
  | .lookup _, k => .get k
  | .remove _, k => .delete k

/-- What it makes of the answer of the cache. -/
def reply : (call : Call) → (k : String) → (call.request k).Value → Except Error Reply
  | .isRevoked _, _, found => .ok (.flag found)
  | .revokeEntry _, _, stored => .ok (.flag stored)
  | .lookup _, _, none => .ok (.entry none)
  | .lookup _, _, some text =>
    match Entry.parse? text with
    | some e => .ok (.entry (some e))
    | none => .error (.corrupt "not an entry")
  | .remove _, _, removed => .ok (.flag removed)

def action (s : Store) : Call → Action (Except Error Reply)
  | .isRevoked tokenId => do return (← s.isRevoked tokenId).map .flag
  | .revokeEntry entry => do return (← s.revokeEntry entry).map .flag
  | .lookup tokenId => do return (← s.lookup tokenId).map .entry
  | .remove tokenId => do return (← s.remove tokenId).map .flag

def flow (s : Store) (call : Call) : Flow (Option (Except Error Reply)) := (call.action s).start

end Store.Call

namespace Store

open TokenAuthority.Action

variable {s : Store} {operation : Operation} {request : Cache.Request} {ds : List Nat} {h : History}

/-! ### Attempts -/

theorem key_eq_error {tokenId : String} {e : Error} (invalid : s.key tokenId = .error e) :
    e = .invalidTokenId := by
  unfold key at invalid
  split at invalid
  · cases invalid
    rfl
  · cases invalid

theorem account_of_attempted {limit : Span} {r : Except Interruption (Except Cache.Error request.Value)}
    (seen : Cache.Attempted limit request ds h r) : h.account = .called 1 request := by
  cases seen <;> rfl

theorem account_of_rests {b : Backoff} {attempt : Nat} {x : Except Interruption Unit}
    (seen : b.Rests attempt ds h x) : h.account = .called 0 request := by
  cases seen <;> rfl

/-- Attempts make one cache call each, and there are no more of them than there may be. After a passing error
their number is the one that is reported; after any other that is one. -/
theorem account_of_tries {more attempt : Nat}
    {r : Except Interruption (Except (RetryError Cache.Error) request.Value)}
    (seen : s.retry.Tries Cache.Error.isTransient ds (Cache.Attempted s.opTimeout request ds) more attempt
      h r) : ∃ count, 1 ≤ count ∧ count ≤ more + 1 ∧ h.account = .called count request ∧
        ∀ e, r = .ok (.error e) →
          e.attempts = if e.inner.isTransient then attempt + count - 1 else 1 := by
  induction seen with
  | succeeded attempted =>
      exact ⟨1, Nat.le_refl 1, by omega, account_of_attempted attempted, fun e impossible => by cases impossible⟩
  | permanent attempted final =>
      refine ⟨1, Nat.le_refl 1, by omega, account_of_attempted attempted, fun e same => ?_⟩
      cases same
      simp [RetryError.attempts, RetryError.inner, final]
  | exhausted attempted transient =>
      refine ⟨1, Nat.le_refl 1, by omega, account_of_attempted attempted, fun e same => ?_⟩
      cases same
      simp [RetryError.attempts, RetryError.inner, transient]
  | cut attempted =>
      exact ⟨1, Nat.le_refl 1, by omega, account_of_attempted attempted, fun e impossible => by cases impossible⟩
  | cutResting attempted _ resting =>
      refine ⟨1, Nat.le_refl 1, by omega, ?_, fun e impossible => by cases impossible⟩
      rw [History.account_append, account_of_attempted attempted, account_of_rests resting,
        Account.called_append]
  | @again more attempt _ _ _ _ _ attempted _ resting _ ih =>
      obtain ⟨count, _, _, later, reported⟩ := ih
      refine ⟨1 + (0 + count), by omega, by omega, ?_, fun e same => ?_⟩
      · rw [History.account_append, History.account_append, later, account_of_attempted attempted,
          account_of_rests resting, Account.called_append, Account.called_append]
      · rw [reported e same, show attempt + 1 + count - 1 = attempt + (1 + (0 + count)) - 1 by omega]

/-- All attempts together make at least one cache call and at most as many as the settings allow. -/
theorem account_of_called {r : Except Interruption (Except (RetryError Cache.Error) request.Value)}
    (seen : s.Called request ds h r) :
    ∃ count, 1 ≤ count ∧ count ≤ max 1 s.retry.maxAttempts ∧ h.account = .called count request := by
  obtain ⟨count, some, atMost, account, _⟩ := account_of_tries seen
  refine ⟨count, some, ?_, account⟩
  unfold Backoff.attempts at atMost
  omega

/-! ### Whole calls -/

/-- What a permitted call does with its permit: it makes its cache calls and reports once. -/
theorem account_of_granted {asked : Instant} {reports : History} {count : Nat} {report : Breaker.Op}
    {failures : List String} (calls : h.account = .called count request)
    (reported : reports.account = ⟨[], [], [report], failures⟩) :
    History.account (.answered asked (.circuit .acquire) true :: (h ++ reports)) =
      ⟨[true], List.replicate count request, [report], failures⟩ := by
  have granted : History.account [.answered asked (.circuit .acquire) true] = ⟨[true], [], [], []⟩ := rfl
  rw [History.account_cons, History.account_append, granted, calls, reported]
  simp [Account.called]

section Accounted

variable {α β : Type} {tokenId : String} {request : String → Cache.Request}
  {next : (k : String) → (request k).Value → Except Error α}

/-- Every history of a call leaves one of the accounts. -/
theorem OnKey.accounted {r : Except Interruption (Except Error α)}
    (seen : s.OnKey operation tokenId request next ds h r) :
    s.Accounted operation tokenId request next ds h r.toOption := by
  cases seen with
  | invalid key =>
      cases key_eq_error key
      exact .invalid key
  | answered key guarded =>
      have concludes := guarded.concludes
      cases guarded with
      | answered asked told called =>
          obtain ⟨count, atLeast, atMost, calls⟩ := account_of_called called
          exact .answered key atLeast atMost (account_of_granted calls rfl) concludes
  | unanswered key guarded =>
      have unanswered := guarded.unanswered (fun v impossible => by cases impossible)
      cases guarded with
      | refused asked counted => exact .refused key rfl
      | failed asked told counted called =>
          obtain ⟨count, atLeast, atMost, calls⟩ := account_of_called called
          exact .failed key atLeast atMost (account_of_granted calls rfl) unanswered
  | abandoned key guarded =>
      have unanswered := guarded.unanswered (fun v impossible => by cases impossible)
      cases guarded with
      | abandoned asked told counted called =>
          obtain ⟨count, atLeast, atMost, calls⟩ := account_of_called called
          exact .dropped key atLeast atMost (account_of_granted calls rfl) unanswered

/-- What is made of an answer does not matter to the account. -/
theorem Accounted.map {f : α → β} {next' : (k : String) → (request k).Value → Except Error β}
    (same : ∀ k v, (next k v).map f = next' k v) {r : Option (Except Error α)}
    (accounted : s.Accounted operation tokenId request next ds h r) :
    s.Accounted operation tokenId request next' ds h (r.map fun x => x.map f) := by
  cases accounted with
  | invalid key => exact .invalid key
  | refused key account => exact .refused key account
  | answered key atLeast atMost account concludes =>
      rw [Option.map_some, same]
      exact .answered key atLeast atMost account concludes
  | failed key atLeast atMost account unanswered =>
      exact .failed key atLeast atMost account unanswered
  | dropped key atLeast atMost account unanswered =>
      exact .dropped key atLeast atMost account unanswered

/-- A call whose answer is put into other words. -/
theorem ensures_map {a : Action (Except Error α)} {R : Rule}
    {post : History → Except Interruption (Except Error α) → Prop} {f : α → β}
    {next' : (k : String) → (request k).Value → Except Error β} (same : ∀ k v, (next k v).map f = next' k v)
    (ensures : a.Ensures R ds h post)
    (accounts : ∀ tail r, post tail r → s.Accounted operation tokenId request next ds tail r.toOption) :
    (a >>= fun r => pure (r.map f) : Action (Except Error β)).Ensures R ds h fun tail r =>
      s.Accounted operation tokenId request next' ds tail r.toOption := by
  refine Ensures.bind _ ensures ?_ fun tail i gone => (accounts tail _ gone).map same
  intro tail r ended
  refine Ensures.done ?_
  rw [List.append_nil]
  exact (accounts tail _ ended).map same

end Accounted

/-- Keeping an entry leaves one of them too. That a revocation is counted does not show in it. -/
theorem Keeps.accounted {e : Entry} {r : Except Interruption (Except Error Bool)} (seen : s.Keeps e ds h r) :
    s.Accounted .revoke e.tokenId (.setIfAbsent · e.text e.ttl) (fun _ stored => .ok stored) ds h
      r.toOption := by
  cases seen with
  | other seen _ => exact seen.accounted
  | stored counted seen =>
      -- Only an answer of the cache says that the entry was kept.
      cases seen.accounted with
      | answered key atLeast atMost account concludes =>
          refine .answered key atLeast atMost ?_ (concludes.before (by simp))
          have nothing : History.account
              [.answered counted (.count (.revocation e.reason.name)) ()] = ⟨[], [], [], []⟩ := rfl
          rw [History.account_append, account, nothing]
          simp

/-- So does each call of the store. -/
theorem Call.ensures_accounted (call : Call) :
    (call.action s).Ensures Rule.free ds [] fun h r =>
      s.Accounted call.operation call.tokenId call.request call.reply ds h r.toOption := by
  have lenient := Rule.lenient_free
  cases call with
  | isRevoked tokenId =>
      exact ensures_map (fun _ _ => rfl) (ensures_onKey lenient fun _ _ => allows_free)
        fun _ _ seen => seen.accounted
  | revokeEntry entry =>
      exact ensures_map (fun _ _ => rfl) (ensures_revokeEntry lenient fun _ _ => allows_free)
        fun _ _ seen => seen.accounted
  | lookup tokenId =>
      refine ensures_map ?_ (ensures_onKey lenient fun _ _ => allows_free) fun _ _ seen => seen.accounted
      intro k stored
      cases stored with
      | none => rfl
      | some text => cases parsed : Entry.parse? text <;> simp [Call.reply, parsed, Except.map]
  | remove tokenId =>
      exact ensures_map (fun _ _ => rfl) (ensures_onKey lenient fun _ _ => allows_free)
        fun _ _ seen => seen.accounted

/-- Calls of the store side by side, over any cache and with whatever breaker, and their callers gone
wherever they like: every call that is over, be it in a fault, is accounted for, in one way. -/
theorem accounted_of_steps {σ : Type} {backend : Cache.Backend σ} {w : World σ}
    {S : Scene σ Call (Option (Except Error Reply))} {i : Nat}
    {strand : Strand σ Call (Option (Except Error Reply))}
    {r : Except Fault (Option (Except Error Reply))}
    (steps : Scene.Steps backend (Call.flow s) ⟨w, []⟩ S) (found : S.strands[i]? = some strand)
    (ended : strand.outcome? = some r) :
    s.Accounted strand.call.operation strand.call.tokenId strand.call.request strand.call.reply []
      strand.seen r.toOption.join := by
  have ends := (steps.tracked (Scene.tracked_nil w)).outcome found ended
    (strand.call.ensures_accounted (s := s)).start
  match r with
  | .ok (some x) => exact ends
  | .ok none =>
      obtain ⟨i, ends⟩ := ends
      exact ends
  | .error f => exact ends

end Store

end Revocation

end TokenAuthority

/-! ### Six calls -/

namespace TokenAuthority.Sample

open Revocation

/-- A store that tries each cache call twice. -/
def twice : Store := ⟨"revoked", Span.ofMillis 100, { maxAttempts := 2, jitter := false }⟩

/-- A cache that cannot be reached at first, then does not answer, then answers nonsense, then recovers.
One failure opens the circuit in front of it. -/
def flaky : World Cache.Scripted :=
  ⟨.start, fun _ => 0, ⟨fun _ count => List.replicate count 0, fun _ => Binary64.ofNat 1⟩,
    0, ⟨"revocation", { failureThreshold := 1 }, .initial⟩, [],
    ⟨[.fail (.unavailable "reset"), .hang, .fail (.protocol "nonsense"), .pass], .pass, [], .empty⟩⟩

/-- An entry whose end is no instant. -/
def endlessEntry : Entry := .forSpan "id" 0 (Span.ofSecs (2 ^ 64 - 1)) .logout

/-- Four calls are permitted side by side: one is answered at its second attempt, the caller of one goes, one
fails for good, and one ends in a fault. The fifth comes when the circuit is open, and the last one names no
token. -/
def sixfold : List (Scene.Move Store.Call) :=
  [.enter (.isRevoked "id"), .enter (.lookup "id"), .enter (.remove "id"), .enter (.revokeEntry endlessEntry)] ++
    List.replicate 3 (.go 0) ++ List.replicate 2 (.go 1) ++ List.replicate 2 (.go 2) ++
    List.replicate 5 (.go 3) ++ .pass (Span.ofMillis 100) :: List.replicate 4 (.go 0) ++ .leave 1 ::
    List.replicate 2 (.go 1) ++ List.replicate 3 (.go 2) ++
    .enter (.revokeEntry (.forSpan "id" 0 (Span.ofSecs 60) .logout)) :: List.replicate 2 (.go 4) ++
    [.enter (.isRevoked "")]

def balance : List Account :=
  [⟨[true], [.contains "revoked:id", .contains "revoked:id"], [.success], []⟩,
    ⟨[true], [.get "revoked:id"], [.failure], ["lookup"]⟩,
    ⟨[true], [.delete "revoked:id"], [.failure], ["remove"]⟩,
    ⟨[true], [.setIfAbsent "revoked:id" endlessEntry.text endlessEntry.ttl], [.failure], ["revoke"]⟩,
    ⟨[false], [], [], ["revoke"]⟩, ⟨[], [], [], []⟩]

/-- All of them end, the fourth in a fault, with these accounts. -/
theorem sixfold_ends :
    ((Scene.mk flaky []).replay? (Cache.Scripted.backend "flaky") (Store.Call.flow twice) sixfold).any
      (fun S => S.strands.map (·.outcome?.map fun r => r matches .error _) =
          [some false, some false, some false, some true, some false, some false] &&
        decide (S.strands.map (·.seen.account) = balance)) = true := by
  decide +kernel

/-- So each of them is accounted for. -/
theorem sixfold_accounted :
    ∃ S, Scene.Steps (Cache.Scripted.backend "flaky") (Store.Call.flow twice) ⟨flaky, []⟩ S ∧
      S.strands.map (·.outcome?.map fun r => r matches .error _) =
        [some false, some false, some false, some true, some false, some false] ∧
      S.strands.map (·.seen.account) = balance ∧
      ∀ (i : Nat) (strand : Strand Cache.Scripted Store.Call (Option (Except Error Store.Reply))),
        S.strands[i]? = some strand → ∃ r, strand.outcome? = some r ∧
        twice.Accounted strand.call.operation strand.call.tokenId strand.call.request strand.call.reply []
          strand.seen r.toOption.join := by
  obtain ⟨S, replayed, ends⟩ := (Option.any_eq_true _ _).mp sixfold_ends
  simp only [Bool.and_eq_true, decide_eq_true_eq] at ends
  obtain ⟨faults, accounts⟩ := ends
  have steps := Scene.steps_iff_replay?.mpr ⟨sixfold, replayed⟩
  refine ⟨S, steps, faults, accounts, ?_⟩
  intro i strand found
  have outcome : strand.outcome?.map (fun r => r matches .error _) ∈
      [some false, some false, some false, some true, some false, some false] := by
    rw [← faults]
    exact List.mem_map_of_mem (List.mem_of_getElem? found)
  cases ended : strand.outcome? with
  | none => simp [ended] at outcome
  | some r => exact ⟨r, rfl, Store.accounted_of_steps steps found ended⟩

end TokenAuthority.Sample
