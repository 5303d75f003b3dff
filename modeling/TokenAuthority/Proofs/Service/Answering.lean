import TokenAuthority.Proofs.Service.FailClosed
import TokenAuthority.Proofs.Service.Protection

/-!
# While the cache answers

Once a call of the store has been answered, the breaker is as it was in the beginning, and it stays so
as long as no cache call fails.

* `TokenService.Admitted` — what calls see of the breaker then: no refusal after an answer.
* `TokenService.admitted_steps` — this holds of every schedule in which no cache call fails.
* `TokenService.Verified.looked`, `TokenService.Verified.accepted_of_findsNone` — a token is accepted
  exactly if its look-up finds no entry.
-/

namespace TokenAuthority

def Event.IsSuccess (e : Event) : Prop := ∃ time x, e = .answered time (.circuit .success) x

def Event.IsRefusal (e : Event) : Prop := ∃ time, e = .answered time (.circuit .acquire) false

/-- A breaker as it was in the beginning grants every call, and stays so unless a failure is reported. -/
theorem Breaker.step_initial {config : Breaker.Config} {now : Instant} {op : Breaker.Op}
    (other : op ≠ .failure) : (Breaker.step config now .initial op).2 = .initial := by
  cases op with
  | acquire => rfl
  | success => rfl
  | failure => exact absurd rfl other
  | state => rfl

namespace TokenService

variable {σ : Type} {backend : Cache.Backend σ} {s : TokenService} {key : String} {last : Int}
  {S S' : Scene σ Call (Option Reply)} {l : Option (Nat × Event)}

/-- After a success no call is refused, and the breaker is as it was in the beginning. -/
structure Admitted (S : Scene σ Call (Option Reply)) : Prop where
  initial : ∀ i, ∀ e ∈ S.seen i, e.IsSuccess → S.world.breaker.state = .initial
  granted : ∀ i, (S.seen i).Pairwise fun e e' => e.IsSuccess → ¬ e'.IsRefusal

/-- A question other than the report of a failure leaves a breaker that is as it was in the beginning, and
is not refused. -/
theorem answer_initial {w : World σ} {q : Query} (initial : w.breaker.state = .initial)
    (other : q ≠ .circuit .failure) :
    (w.answer q).2.breaker.state = .initial ∧ ¬ (Event.answered w.now q (w.answer q).1).IsRefusal := by
  cases q with
  | circuit op =>
      have kept : (w.answer (.circuit op)).2.breaker.state = .initial := by
        change (Breaker.step w.breaker.config w.now w.breaker.state op).2 = .initial
        rw [initial]
        exact Breaker.step_initial fun same => other (congrArg Query.circuit same)
      refine ⟨kept, ?_⟩
      rintro ⟨time, same⟩
      have granted : (Breaker.step w.breaker.config w.now w.breaker.state .acquire).1 = true := by
        rw [initial]
        rfl
      cases op with
      | acquire =>
          simp only [Event.answered.injEq, heq_eq_eq, true_and] at same
          exact Bool.false_ne_true (same.2.symm.trans granted)
      | success => cases same
      | failure => cases same
      | state => cases same
  | timer => exact ⟨initial, fun ⟨_, impossible⟩ => by cases impossible⟩
  | clock => exact ⟨initial, fun ⟨_, impossible⟩ => by cases impossible⟩
  | draw count => exact ⟨initial, fun ⟨_, impossible⟩ => by cases impossible⟩
  | factor => exact ⟨initial, fun ⟨_, impossible⟩ => by cases impossible⟩
  | count e => exact ⟨initial, fun ⟨_, impossible⟩ => by cases impossible⟩

/-- What happens, other than the report of a failure, leaves such a breaker, and is no refusal. -/
theorem effect_initial {w w' : World σ} {e : Option Event} (effect : Scene.Effect backend w e w')
    (initial : w.breaker.state = .initial)
    (unfailing : ∀ time x, e ≠ some (.answered time (.circuit .failure) x)) :
    w'.breaker.state = .initial ∧ ∀ event, e = some event → ¬ event.IsRefusal := by
  have quiet {w₁ : World σ} (begins : Scene.Begins backend w₁ w') (same : w₁.breaker = w.breaker) :
      w'.breaker.state = .initial := by
    rw [begins.breaker, same]
    exact initial
  cases effect with
  | quiet begins => exact ⟨quiet begins rfl, fun _ impossible => by cases impossible⟩
  | passed span => exact ⟨initial, fun _ impossible => by cases impossible⟩
  | slept span ds begins =>
      refine ⟨quiet begins rfl, ?_⟩
      rintro event same ⟨time, rfl⟩
      cases same
  | cut wait ds i begins =>
      refine ⟨quiet begins rfl, ?_⟩
      rintro event same ⟨time, rfl⟩
      cases same
  | called ds _ _ begins =>
      refine ⟨quiet begins rfl, ?_⟩
      rintro event same ⟨time, rfl⟩
      cases same
  | asked q begins =>
      obtain ⟨kept, granted⟩ := answer_initial initial
        fun (same : q = .circuit .failure) => by
          subst same
          exact unfailing _ _ rfl
      refine ⟨by rw [begins.breaker, kept], ?_⟩
      rintro event same
      cases same
      exact granted

/-- A success leaves a breaker as it was in the beginning. -/
theorem initial_of_success {w w' : World σ} {e : Event} (effect : Scene.Effect backend w (some e) w')
    (success : e.IsSuccess) : w'.breaker.state = .initial := by
  obtain ⟨time, x, rfl⟩ := success
  cases effect with
  | asked _ begins =>
      rw [begins.breaker]
      rfl

/-- No cache call has failed. -/
def Unfailing (S : Scene σ Call (Option Reply)) : Prop := ∀ i, ∀ e ∈ S.seen i, ¬ e.Fails

/-- A step in which no cache call fails keeps the breaker open to all calls after a success. -/
theorem Admitted.step (admitted : Admitted S) (step : Scene.Step backend (Call.flow s) S l S')
    (tracked : S.Tracked backend (Call.flow s)) (unfailing : Unfailing S)
    (meets : ∀ i k, S.call? i = some k → ∃ Q, (Call.flow s k).Meets (s.entryRule key last) Q []) :
    Admitted S' := by
  have effect := step.effect tracked
  have unreported : ∀ time x, l.map Prod.snd ≠ some (.answered time (.circuit .failure) x) := by
    intro time x same
    obtain ⟨⟨i, e⟩, rfl, rfl⟩ := Option.map_eq_some_iff.mp same
    obtain ⟨k, here⟩ := step.caller
    obtain ⟨Q, meets⟩ := meets i k here
    obtain ⟨e, mem, fails⟩ := step.allowed tracked here meets rfl
    exact unfailing i e mem fails
  constructor
  · intro i e mem success
    rcases step.mem_seen mem with before | rfl
    · exact (effect_initial effect (admitted.initial i e before success) unreported).1
    · exact initial_of_success effect success
  · intro i
    rw [step.seen i]
    match l with
    | none => exact admitted.granted i
    | some (j, e) =>
        by_cases same : j = i
        · subst same
          rw [Scene.extend, if_pos rfl]
          refine List.pairwise_append.mpr ⟨admitted.granted j, List.pairwise_singleton _ _, ?_⟩
          intro e' before event here success
          cases List.mem_singleton.mp here
          exact (effect_initial effect (admitted.initial j e' before success) unreported).2 e rfl
        · rw [Scene.extend, if_neg same]
          exact admitted.granted i

theorem admitted_steps (steps : Scene.Steps backend (Call.flow s) S S')
    (tracked : S.Tracked backend (Call.flow s)) (start : S.strands = []) (unfailing : Unfailing S')
    (meets : ∀ i k, S'.call? i = some k → ∃ Q, (Call.flow s k).Meets (s.entryRule key last) Q []) :
    Admitted S' := by
  induction steps with
  | refl =>
      have none (i : Nat) : S.seen i = [] := by
        rw [Scene.seen, start]
        rfl
      constructor
      · intro i e mem
        rw [none i] at mem
        exact (List.not_mem_nil mem).elim
      · intro i
        rw [none i]
        exact List.Pairwise.nil
  | snoc steps step ih =>
      have before : Unfailing _ := fun i e mem => unfailing i e (((Scene.Steps.refl _).snoc step).mem_seen mem)
      have meets' := fun i k here => meets i k (step.call? here)
      exact (ih before meets').step step (steps.tracked tracked) before meets'

/-! ### Look-ups that find no entry -/

section Verified

variable {request : RequestContext} {token : String} {expected : TokenKind} {ds : List Nat}
  {h : History}

/-- An accepted token was looked up, with the answer that there is no entry. -/
theorem Verified.looked {c : Credential}
    (seen : s.Verified request token expected ds h (.ok (.accepted c))) :
    ∃ k lookup ds', s.store.key c.tokenId = .ok k ∧ (∀ e ∈ lookup, e ∈ h) ∧
      s.store.Guarded .isRevoked (.contains k) ds' lookup (.ok (.ok false)) := by
  obtain ⟨_, _, _, lookup, ds', found, _, _, _, looked, inside, same⟩ := seen.answered (.inl rfl)
  cases found with
  | true => cases same
  | false =>
      cases same
      cases looked with
      | answered key guarded => exact ⟨_, lookup, ds', key, inside, guarded⟩

/-- So its history holds that answer. -/
theorem Verified.findsNone {c : Credential}
    (seen : s.Verified request token expected ds h (.ok (.accepted c))) :
    ∃ k, s.store.key c.tokenId = .ok k ∧ ∃ e ∈ h, e.FindsNone k := by
  obtain ⟨k, lookup, ds', key, inside, guarded⟩ := seen.looked
  obtain ⟨time, ds'', mem⟩ := guarded.concludes.mem
  exact ⟨k, key, _, inside _ mem, time, ds'', rfl⟩

/-- A look-up that has seen the answer that there is no entry gives it. -/
theorem outcome_of_findsNone {tokenId : String} {r : Except Interruption (Except Revocation.Error Bool)}
    (seen : s.store.LooksUp tokenId ds h r) {e : Event} (mem : e ∈ h) (finds : e.FindsNone key) :
    r = .ok (.ok false) := by
  obtain ⟨time, ds', rfl⟩ := finds
  obtain ⟨k, valid, of⟩ := seen.events _ mem
  rcases of with same | ⟨span, impossible⟩
  · cases same
    cases seen with
    | invalid failed =>
        rw [failed] at valid
        cases valid
    | answered key' guarded =>
        cases valid.symm.trans key'
        rw [guarded.answers mem]
    | unanswered key' guarded =>
        cases valid.symm.trans key'
        exact absurd ⟨time, ds', false, rfl⟩
          (guarded.unanswered (fun v impossible => by cases impossible) _ mem)
    | abandoned key' guarded =>
        cases valid.symm.trans key'
        exact absurd ⟨time, ds', false, rfl⟩
          (guarded.unanswered (fun v impossible => by cases impossible) _ mem)
  · cases impossible

/-- A look-up of a credential that finds no entry leads to its acceptance. -/
theorem Checked.of_findsNone {c : Credential} {r : Except Interruption Verdict} (seen : s.Checked c ds h r)
    {e : Event} (mem : e ∈ h) (finds : e.FindsNone key) : r = .ok (.accepted c) := by
  have rest {asked opened : Instant} {lookup : History}
      (mem : e ∈ .answered asked .timer opened :: lookup) : e ∈ lookup := by
    rcases List.mem_cons.mp mem with rfl | mem
    · obtain ⟨_, _, impossible⟩ := finds
      cases impossible
    · exact mem
  cases seen with
  | answered asked opened looked =>
      cases outcome_of_findsNone looked (rest mem) finds
      rfl
  | late asked opened looked => cases outcome_of_findsNone looked (rest mem) finds
  | cut asked opened looked => cases outcome_of_findsNone looked (rest mem) finds
  | faulty asked opened looked => cases outcome_of_findsNone looked (rest mem) finds

/-- A verification whose look-up finds no entry accepts the token. -/
theorem Verified.accepted_of_findsNone {verdict : Verdict}
    (seen : s.Verified request token expected ds h (.ok verdict)) {e : Event} (mem : e ∈ h)
    (finds : e.FindsNone key) : ∃ c, verdict = .accepted c := by
  have ends : e.Ends (.contains key) := by
    obtain ⟨time, ds, rfl⟩ := finds
    exact ⟨time, ds, _, rfl⟩
  have untold {time : Instant} {now : Int64} : e ≠ .answered time .clock now := by
    rintro rfl
    exact Event.not_ends_answered ends
  cases seen with
  | judged judged observes =>
      rcases List.mem_append.mp mem with mem | mem
      · cases judged with
        | turnedAway sees => exact absurd ends ((sees e mem).aside.2 key)
        | undecodable time sees _ =>
            rcases List.mem_append.mp mem with mem | mem
            · exact absurd ends ((sees e mem).aside.2 key)
            · exact absurd (List.mem_singleton.mp mem) untold
        | otherKind time sees _ _ =>
            rcases List.mem_append.mp mem with mem | mem
            · exact absurd ends ((sees e mem).aside.2 key)
            · exact absurd (List.mem_singleton.mp mem) untold
        | checked time sees _ _ checked =>
            rcases List.mem_append.mp mem with mem | mem
            · exact absurd ends ((sees e mem).aside.2 key)
            · rcases List.mem_cons.mp mem with same | mem
              · exact absurd same untold
              · cases checked.of_findsNone mem finds
                exact ⟨_, rfl⟩
      · exact absurd ends ((observes e mem).aside.2 key)

end Verified

end TokenService

end TokenAuthority
