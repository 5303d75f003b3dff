import TokenAuthority.Proofs.Cache.Memory
import TokenAuthority.Proofs.Effect.Prompt
import TokenAuthority.Revocation.Store

/-!
# The store over a cache in memory

Each call of the store is one call of the cache, unless the breaker refuses it. While the breaker is as it was
in the beginning it refuses none, and a call that does not end in a fault leaves it so.

* `World.Leaves`, `World.Retains` — a world with another cache and other counts, and one after a fault.
* `Store.Outcome`, `Store.yields_onKey` — what a call of the store comes to.
* `Store.finds`, `Store.yields_isRevoked` — what a look-up answers.
* `Store.Recorded`, `Store.yields_revokeEntry` — what keeping an entry comes to.
-/

namespace TokenAuthority

open TokenAuthority.Action

/-- The one world is the other one with a cache. How much has been counted and drawn does not matter. A
breaker that was as it was in the beginning still is. -/
structure World.Leaves (w : World Cache.Memory) (c : Cache.Memory) (w' : World Cache.Memory) : Prop where
  now : w'.now = w.now
  clock : w'.clock = w.clock
  closed : w.breaker.state = .initial → w'.breaker.state = .initial
  cache : w'.cache = c

/-- The one world has the time and the cache of the other one. The state of the breaker does not matter. -/
structure World.Retains (w w' : World Cache.Memory) : Prop where
  now : w'.now = w.now
  clock : w'.clock = w.clock
  cache : w'.cache = w.cache

namespace World

variable {w w' w'' : World Cache.Memory} {c : Cache.Memory}

/-- A value is given, and the cache stays as it is. -/
def Gives {α : Type} (w : World Cache.Memory) (x : α) (r : Except Fault α) (w' : World Cache.Memory) :
    Prop :=
  r = .ok x ∧ w.Leaves w.cache w'

/-- Some value is given, and the cache stays as it is. -/
def Idles {α : Type} (w : World Cache.Memory) (r : Except Fault α) (w' : World Cache.Memory) : Prop :=
  ∃ x, w.Gives x r w'

theorem leaves_self (w : World Cache.Memory) : w.Leaves w.cache w := ⟨rfl, rfl, id, rfl⟩

theorem retains_self (w : World Cache.Memory) : w.Retains w := ⟨rfl, rfl, rfl⟩

theorem Leaves.retains (leaves : w.Leaves w.cache w') : w.Retains w' :=
  ⟨leaves.now, leaves.clock, leaves.cache⟩

theorem Retains.trans (first : w.Retains w') (second : w'.Retains w'') : w.Retains w'' where
  now := second.now.trans first.now
  clock := second.clock.trans first.clock
  cache := second.cache.trans first.cache

/-- No question changes the time or the cache. -/
theorem retains_answer (w : World Cache.Memory) (q : Query) : w.Retains (w.answer q).2 :=
  ⟨w.now_answer q, w.clock_answer q, w.cache_answer q⟩

theorem retains_answerAll (w : World Cache.Memory) (queries : List Query) :
    w.Retains (w.answerAll queries) := by
  induction queries generalizing w with
  | nil => exact w.retains_self
  | cons q queries ih => exact (w.retains_answer q).trans (ih _)

/-- Where the breaker is not as it was in the beginning, no more is asked of a world. -/
theorem Retains.leaves (retains : w.Retains w') (opened : w.breaker.state ≠ .initial) :
    w.Leaves w.cache w' :=
  ⟨retains.now, retains.clock, fun closed => absurd closed opened, retains.cache⟩

theorem Leaves.trans {c' : Cache.Memory} (first : w.Leaves c w') (second : w'.Leaves c' w'') :
    w.Leaves c' w'' where
  now := second.now.trans first.now
  clock := second.clock.trans first.clock
  closed := second.closed ∘ first.closed
  cache := second.cache

/-- A world in which the cache stays as it is. -/
theorem Leaves.still (leaves : w.Leaves c w') (still : w'.Leaves w'.cache w'') : w.Leaves c w'' := by
  rw [leaves.cache] at still
  exact leaves.trans still

theorem Leaves.gives {α : Type} {x : α} {r : Except Fault α} (leaves : w.Leaves w.cache w')
    (gives : w'.Gives x r w'') : w.Gives x r w'' :=
  ⟨gives.1, leaves.still gives.2⟩

theorem Leaves.idles {α : Type} {r : Except Fault α} (leaves : w.Leaves w.cache w')
    (idles : w'.Idles r w'') : w.Idles r w'' := by
  obtain ⟨x, gives⟩ := idles
  exact ⟨x, leaves.gives gives⟩

/-- A question to anything but the breaker changes nothing that matters. -/
theorem Leaves.answer {q : Query} (leaves : w.Leaves c w') (other : ∀ op, q ≠ .circuit op) :
    w.Leaves c (w'.answer q).2 := by
  obtain ⟨now, clock, closed, cache⟩ := leaves
  cases q with
  | timer => exact ⟨now, clock, closed, cache⟩
  | clock => exact ⟨now, clock, closed, cache⟩
  | draw n => exact ⟨now, clock, closed, cache⟩
  | factor => exact ⟨now, clock, closed, cache⟩
  | circuit op => exact absurd rfl (other op)
  | count e => exact ⟨now, clock, closed, cache⟩

/-- A breaker as it was in the beginning grants a call. -/
theorem opened_of_refused (refused : (w.answer (.circuit .acquire)).1 = false) :
    w.breaker.state ≠ .initial := by
  obtain ⟨_, _, _, _, ⟨name, config, state⟩, _, _⟩ := w
  rintro ⟨⟩
  cases refused

end World

/-- An action gives a value, and what follows gives another one. -/
theorem Action.Yields.gives {α β : Type} {a : Action α} {f : α → Action β} {w : World Cache.Memory}
    {x : α} {y : β} (first : a.Yields w (w.Gives x))
    (rest : ∀ w', w.Leaves w.cache w' → (f x).Yields w' (w.Gives y)) : (a >>= f).Yields w (w.Gives y) := by
  refine Yields.bind _ first ?_ ?_
  · rintro _ w' ⟨same, leaves⟩
    cases same
    exact rest w' leaves
  · rintro e w' ⟨impossible, _⟩
    cases impossible

/-- An action leaves the cache as it is, and something follows. -/
theorem Action.Yields.idly {α β : Type} {a : Action α} {f : α → Action β} {w : World Cache.Memory}
    {post : Except Fault β → World Cache.Memory → Prop} (first : a.Yields w w.Idles)
    (rest : ∀ x w', w.Leaves w.cache w' → (f x).Yields w' post) : (a >>= f).Yields w post := by
  refine Yields.bind _ first ?_ ?_
  · rintro x w' ⟨x, same, leaves⟩
    cases same
    exact rest x w' leaves
  · rintro e w' ⟨x, impossible, _⟩
    cases impossible

/-- An action under a deadline of its own ends as it does without one. -/
theorem Action.Yields.withTimeoutOr {α ε : Type} {a : Action (Except ε α)} {limit : Span}
    {ofTimeout : TimeoutError → ε} {w : World Cache.Memory}
    {post : Except Fault (Except ε α) → World Cache.Memory → Prop} (yields : a.Yields w post) :
    (Action.withTimeoutOr ofTimeout limit a).Yields w post := by
  unfold Action.withTimeoutOr
  refine Yields.bind (fun r w' => ∃ r', post r' w' ∧ r = r'.map some) ?_ ?_ ?_
  · exact Yields.timeout yields fun r w' held => ⟨r, held, rfl⟩
  · rintro x w' ⟨r, held, same⟩
    cases r with
    | error e => cases same
    | ok x =>
        cases same
        exact Yields.done held
  · rintro e w' ⟨r, held, same⟩
    cases r with
    | error e =>
        cases same
        exact held
    | ok x => cases same

namespace Cache.Memory

/-- A cache in memory answers every call but that of a counter. -/
theorem answers_of_perform {m m' : Memory} {now : Instant} {r : Request} {a : r.Answer}
    (done : m.perform now r = .ok (a, m')) (uncounted : ∀ key window, r ≠ .increment key window) :
    ∃ v, a = .ok v := by
  cases r with
  | get key =>
      cases done
      exact ⟨_, rfl⟩
  | contains key =>
      cases done
      exact ⟨_, rfl⟩
  | delete key =>
      cases done
      exact ⟨_, rfl⟩
  | ping =>
      cases done
      exact ⟨_, rfl⟩
  | increment key window => exact absurd rfl (uncounted key window)
  | setIfAbsent key value ttl =>
      obtain ⟨stored, same, _⟩ := exists_setIfAbsent_of_perform done
      exact ⟨stored, same⟩

end Cache.Memory

namespace Revocation.Store

variable {s : Store} {w : World Cache.Memory} {request : Cache.Request} {operation : Operation}
  {tokenId : String}

theorem eq_of_key {store : Store} {id id' k : String} (keyed : store.key id = .ok k)
    (keyed' : store.key id' = .ok k) : id' = id := by
  unfold key at keyed keyed'
  split at keyed
  · cases keyed
  · split at keyed'
    · cases keyed'
    · exact (String.append_right_inj _).mp (Except.ok.inj (keyed'.trans keyed.symm))

/-- Keys are the same exactly if their identifiers are. -/
theorem key_eq_iff {store : Store} {id id' k k' : String} (keyed : store.key id = .ok k)
    (keyed' : store.key id' = .ok k') : k = k' ↔ id' = id := by
  constructor
  · rintro rfl
    exact eq_of_key keyed keyed'
  · rintro rfl
    exact Except.ok.inj (keyed.symm.trans keyed')

/-- What one attempt at a cache call comes to, with the value that it gives. -/
inductive Performs (w : World Cache.Memory) (request : Cache.Request) {α : Type}
    (value : request.Value → α) : Except Fault α → World Cache.Memory → Prop where
  | done {v : request.Value} {c : Cache.Memory} {w' : World Cache.Memory} :
      w.cache.perform w.now request = .ok (.ok v, c) → w.Leaves c w' →
      Performs w request value (.ok (value v)) w'
  | fault {e : Fault} {w' : World Cache.Memory} :
      w.cache.perform w.now request = .error e → w.Retains w' →
      Performs w request value (.error e) w'

theorem yields_attempt (uncounted : ∀ key window, request ≠ .increment key window) :
    (s.attempt request).Yields w (Performs w request .ok) := by
  refine Yields.withTimeoutOr (Yields.cache ?_ fun e performs => .fault performs w.retains_self)
  intro a c performs
  obtain ⟨v, rfl⟩ := Cache.Memory.answers_of_perform performs uncounted
  exact .done performs ⟨rfl, rfl, id, rfl⟩

/-- What succeeds at the first attempt is not tried again. -/
theorem yields_retry {α ε : Type} {b : Backoff} {transient : ε → Bool}
    {call : Nat → Action (Except ε α)} {value : request.Value → α}
    (first : (call 1).Yields w (Performs w request fun v => .ok (value v))) :
    (Action.retry b transient call).Yields w (Performs w request fun v => .ok (value v)) := by
  have lifts {w' : World Cache.Memory} {e : Fault}
      (fails : Performs w request (fun v => (.ok (value v) : Except ε α)) (.error e) w') :
      Performs w request (fun v => (.ok (value v) : Except (RetryError ε) α)) (.error e) w' := by
    cases fails with
    | fault performs retains => exact .fault performs retains
  unfold Action.retry
  cases b.attempts - 1 with
  | zero =>
      refine Yields.bind _ first ?_ fun e w' => lifts
      rintro _ w' ⟨performs, leaves⟩
      exact Yields.done (.done performs leaves)
  | succ more =>
      refine Yields.bind _ first ?_ fun e w' => lifts
      rintro _ w' ⟨performs, leaves⟩
      exact Yields.done (.done performs leaves)

/-- A cache call was made and answered, and has left the breaker as it was in the beginning. -/
structure Answered (w : World Cache.Memory) (request : Cache.Request) (v : request.Value)
    (w' : World Cache.Memory) : Prop where
  performs : w.cache.perform w.now request = .ok (.ok v, w'.cache)
  now : w'.now = w.now
  clock : w'.clock = w.clock
  closed : w'.breaker.state = .initial

theorem Answered.leaves {v : request.Value} {w' : World Cache.Memory} (answered : Answered w request v w') :
    w.Leaves w'.cache w' :=
  ⟨answered.now, answered.clock, fun _ => answered.closed, rfl⟩

/-- What a call of the store comes to, with what is made of the value that the cache gives: its cache call is
answered or ends in a fault, or the breaker refuses it. -/
inductive Outcome (w : World Cache.Memory) (request : Cache.Request) {α : Type}
    (value : request.Value → Except Error α) : Except Fault (Except Error α) → World Cache.Memory → Prop where
  | answered {v : request.Value} {w' : World Cache.Memory} :
      Answered w request v w' → Outcome w request value (.ok (value v)) w'
  | fault {f : Fault} {w' : World Cache.Memory} :
      w.cache.perform w.now request = .error f → w.Retains w' → Outcome w request value (.error f) w'
  | refused {w' : World Cache.Memory} :
      (w.answer (.circuit .acquire)).1 = false → w.Retains w' →
      Outcome w request value (.ok (.error .circuitOpen)) w'

/-- A call of the store is one cache call, unless the breaker refuses it. -/
theorem yields_guarded (uncounted : ∀ key window, request ≠ .increment key window) :
    (s.guarded operation request).Yields w (Outcome w request .ok) := by
  unfold guarded
  refine Yields.ask ?_
  have asked := w.retains_answer (.circuit .acquire)
  cases granted : (w.answer (.circuit .acquire)).1 with
  | false => exact Yields.ask (Yields.done (.refused granted (asked.trans (World.retains_answer _ _))))
  | true =>
      generalize (w.answer (.circuit .acquire)).2 = w₁ at *
      have same : w₁.cache.perform w₁.now request = w.cache.perform w.now request := by
        rw [asked.cache, asked.now]
      refine Yields.bind (Performs w₁ request .ok)
        (Yields.reporting (yields_retry (yields_attempt uncounted)) (fun _ _ performs => performs) ?_) ?_ ?_
      · rintro f w' (_ | ⟨fails, retains⟩)
        exact .fault fails (retains.trans (w'.retains_answerAll _))
      · rintro _ w' ⟨performs, leaves⟩
        rw [same, ← leaves.cache] at performs
        refine Yields.ask (Yields.done (.answered ⟨performs, ?_, ?_, rfl⟩))
        · exact leaves.now.trans asked.now
        · exact leaves.clock.trans asked.clock
      · rintro f w' (_ | ⟨fails, retains⟩)
        rw [same] at fails
        exact .fault fails (asked.trans retains)

/-- A call on a key is one cache call, if the key is valid and the breaker does not refuse it. -/
theorem yields_onKey_outcome {request : String → Cache.Request} {α : Type}
    {next : (k : String) → (request k).Value → Except Error α} {k : String}
    (keyed : s.key tokenId = .ok k) (uncounted : ∀ key window, request k ≠ .increment key window) :
    (s.onKey operation tokenId request next).Yields w (Outcome w (request k) (next k)) := by
  unfold onKey
  rw [keyed]
  refine Yields.bind _ (yields_guarded uncounted) ?_ ?_
  · intro outcome w' comes
    cases comes with
    | answered answered => exact Yields.done (.answered answered)
    | refused refused retains => exact Yields.done (.refused refused retains)
  · intro f w' comes
    cases comes with
    | fault performs retains => exact .fault performs retains

/-- A breaker that is as it was in the beginning refuses no call. -/
theorem Outcome.performs {α : Type} {value : request.Value → Except Error α}
    {r : Except Fault (Except Error α)} {w' : World Cache.Memory} (comes : Outcome w request value r w')
    (closed : w.breaker.state = .initial) : Performs w request value r w' := by
  cases comes with
  | answered answered => exact .done answered.performs answered.leaves
  | fault performs retains => exact .fault performs retains
  | refused refused _ => exact absurd closed (World.opened_of_refused refused)

/-- While the breaker is as it was in the beginning, a call on a valid key is one cache call. -/
theorem yields_onKey {request : String → Cache.Request} {α : Type}
    {next : (k : String) → (request k).Value → Except Error α} {k : String}
    (closed : w.breaker.state = .initial) (keyed : s.key tokenId = .ok k)
    (uncounted : ∀ key window, request k ≠ .increment key window) :
    (s.onKey operation tokenId request next).Yields w (Performs w (request k) (next k)) :=
  (yields_onKey_outcome keyed uncounted).mono fun _ _ comes => comes.performs closed

/-- A call on an invalid key does nothing. -/
theorem yields_onKey_invalid {request : String → Cache.Request} {α : Type}
    {next : (k : String) → (request k).Value → Except Error α} {e : Error}
    {post : Except Fault (Except Error α) → World Cache.Memory → Prop} (invalid : s.key tokenId = .error e)
    (holds : post (.ok (.error e)) w) : (s.onKey operation tokenId request next).Yields w post := by
  unfold onKey
  rw [invalid]
  exact Yields.done holds

/-- What a look-up of a token answers that the breaker does not refuse. -/
def finds (s : Store) (w : World Cache.Memory) (tokenId : String) : Except Error Bool :=
  (s.key tokenId).map fun k => (w.cache.live? w.now k).isSome

/-- What a look-up of a token may answer. -/
inductive Looks (s : Store) (w : World Cache.Memory) (tokenId : String) : Except Error Bool → Prop where
  | found : Looks s w tokenId (s.finds w tokenId)
  | refused : w.breaker.state ≠ .initial → Looks s w tokenId (.error .circuitOpen)

/-- A look-up answers whether there is a live entry, unless it is refused, and changes no entry. -/
theorem yields_isRevoked_looks : (s.isRevoked tokenId).Yields w fun r w' =>
    ∃ found, s.Looks w tokenId found ∧ w.Gives found r w' := by
  cases keyed : s.key tokenId with
  | error e =>
      have found : s.finds w tokenId = .error e := by rw [finds, keyed]; rfl
      exact yields_onKey_invalid keyed ⟨_, .found, by rw [found], w.leaves_self⟩
  | ok k =>
      have found : s.finds w tokenId = .ok (w.cache.live? w.now k).isSome := by rw [finds, keyed]; rfl
      refine (yields_onKey_outcome keyed fun _ _ impossible => by cases impossible).mono fun r w' comes => ?_
      cases comes with
      | answered answered =>
          refine ⟨_, .found, ?_⟩
          have performs := answered.performs
          have leaves := answered.leaves
          generalize w'.cache = c at performs leaves
          cases performs
          exact ⟨by rw [found], leaves⟩
      | fault fails _ => cases fails
      | refused refused retains =>
          have opened := World.opened_of_refused refused
          exact ⟨_, .refused opened, rfl, retains.leaves opened⟩

/-- While the breaker is as it was in the beginning, a look-up answers whether there is a live entry. -/
theorem yields_isRevoked (closed : w.breaker.state = .initial) :
    (s.isRevoked tokenId).Yields w (w.Gives (s.finds w tokenId)) := by
  refine yields_isRevoked_looks.mono ?_
  rintro r w' ⟨_, _ | opened, gives⟩
  · exact gives
  · exact absurd closed opened

/-- How keeping an entry ends, and what it leaves. -/
inductive Recorded (s : Store) (e : Entry) (w : World Cache.Memory) :
    Except Fault (Except Error Bool) → World Cache.Memory → Prop where
  | invalid {error : Error} {w' : World Cache.Memory} :
      s.key e.tokenId = .error error → w.Leaves w.cache w' → Recorded s e w (.ok (.error error)) w'
  | refused {w' : World Cache.Memory} :
      w.breaker.state ≠ .initial → w.Leaves w.cache w' → Recorded s e w (.ok (.error .circuitOpen)) w'
  | answered {k : String} {stored : Bool} {w' : World Cache.Memory} :
      s.key e.tokenId = .ok k → Answered w (.setIfAbsent k e.text e.ttl) stored w' →
      Recorded s e w (.ok (.ok stored)) w'
  | fault {f : Fault} {w' : World Cache.Memory} : w.Retains w' → Recorded s e w (.error f) w'

theorem yields_revokeEntry {e : Entry} : (s.revokeEntry e).Yields w (s.Recorded e w) := by
  unfold revokeEntry
  have kept : (s.onKey .revoke e.tokenId (.setIfAbsent · e.text e.ttl) fun _ stored => .ok stored).Yields w
      (s.Recorded e w) := by
    cases keyed : s.key e.tokenId with
    | error e' => exact yields_onKey_invalid keyed (.invalid keyed w.leaves_self)
    | ok k =>
        refine (yields_onKey_outcome keyed fun _ _ impossible => by cases impossible).mono fun r w' comes => ?_
        cases comes with
        | answered answered => exact .answered keyed answered
        | fault _ retains => exact .fault retains
        | refused refused retains =>
            have opened := World.opened_of_refused refused
            exact .refused opened (retains.leaves opened)
  refine Yields.bind _ kept ?_ fun f w' recorded => recorded
  intro outcome w' recorded
  split
  · refine Yields.ask (Yields.done ?_)
    cases recorded with
    | answered keyed answered =>
        exact .answered keyed ⟨answered.performs, answered.now, answered.clock, answered.closed⟩
  · exact Yields.done recorded

/-- Removing an entry drops what is under its key. -/
theorem yields_remove {k : String} (closed : w.breaker.state = .initial)
    (keyed : s.key tokenId = .ok k) :
    (s.remove tokenId).Yields w fun r w' =>
      r = .ok (.ok (w.cache.delete w.now k).1) ∧ w.Leaves (w.cache.delete w.now k).2 w' := by
  refine (yields_onKey closed keyed fun _ _ impossible => by cases impossible).mono ?_
  rintro _ w' (⟨performs, leaves⟩ | ⟨performs, _⟩)
  · cases performs
    exact ⟨rfl, leaves⟩
  · cases performs

end Revocation.Store

end TokenAuthority
