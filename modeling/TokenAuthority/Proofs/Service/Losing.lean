import TokenAuthority.Proofs.Effect.Schedule
import TokenAuthority.Proofs.Service.Calls

/-!
# Refreshes that lose

A refresh that is told that the entry for its token was there already has lost: somebody else has used or
revoked the token.

* `TokenService.losingRule` — a call that has lost waits for nothing more, and issues nothing.
* `TokenService.Refreshed.of_lost` — it ends as rejected, since the token is revoked.
* `TokenService.stands_of_lost` — in a schedule, such a refresh only has to be asked on to its end.
-/

namespace TokenAuthority

/-- The event does not answer that an entry was there already, and issues nothing. -/
def Event.IsQuiet (e : Event) : Prop := ¬ e.IsLost ∧ ¬ e.IsIssue

theorem Event.IsHarmless.quiet {e : Event} (harmless : e.IsHarmless) : e.IsQuiet :=
  ⟨harmless.not_lost, harmless.2⟩

/-- An event before the answer to a cache call is quiet. -/
theorem Event.Leads.quiet {r : Cache.Request} {e : Event} (leads : e.Leads r) : e.IsQuiet := by
  obtain ⟨of, unanswered⟩ := leads
  constructor
  · rintro ⟨time, key, value, ttl, ds, rfl⟩
    rcases of with same | ⟨span, impossible⟩
    · cases same
      exact unanswered ⟨time, ds, false, rfl⟩
    · cases impossible
  · rintro ⟨time, kind, x, rfl⟩
    rcases of with ⟨_, plain⟩ | impossible
    · cases plain
    · cases impossible

namespace TokenService

open TokenAuthority.Action

/-- A call that has been told that an entry was there already is only asked on: it waits for nothing more and
issues nothing. Nor has it issued anything before. -/
def losingRule : Rule where
  event h e :=
    ((∃ lost ∈ h, lost.IsLost) → (∃ time q x, e = .answered time q x) ∧ ¬ e.IsIssue) ∧
      (e.IsLost → ∀ issue ∈ h, ¬ issue.IsIssue)
  fault _ _ := True

variable {s : TokenService} {request : RequestContext} {token : String} {ds : List Nat} {h : History}

/-- After quiet events anything may happen. -/
theorem losingRule_of_quiet {e : Event} (quiet : ∀ e ∈ h, e.IsQuiet) : losingRule.event h e :=
  ⟨fun ⟨lost, mem, isLost⟩ => absurd isLost (quiet lost mem).1, fun _ issue mem => (quiet issue mem).2⟩

/-- A question may be asked at any time, unless it issues a token. -/
theorem losingRule_of_asked {time : Instant} {q : Query} {x : q.Answer}
    (other : ∀ kind, q ≠ .count (.issued kind)) : losingRule.event h (.answered time q x) := by
  refine ⟨fun _ => ⟨⟨time, q, x, rfl⟩, ?_⟩, ?_⟩
  · rintro ⟨time, kind, x, same⟩
    cases same
    exact other kind rfl
  · rintro ⟨_, _, _, _, _, impossible⟩
    cases impossible

theorem lenient_losingRule : losingRule.Lenient where
  asks h time q x plain := losingRule_of_asked fun kind same => by
    subst same
    cases plain
  reports h time x _ := losingRule_of_asked fun kind impossible => by cases impossible

/-- After quiet events a call of the store keeps to the rule. -/
theorem allows_losingRule {r : Cache.Request} (quiet : ∀ e ∈ h, e.IsQuiet) :
    s.store.Allows losingRule r h where
  calls _ leads _ _ _ _ := losingRule_of_quiet
    (List.forall_mem_append.mpr ⟨quiet, fun e he => (leads e he).quiet⟩)
  sleeps _ leads _ _ _ _ := losingRule_of_quiet
    (List.forall_mem_append.mpr ⟨quiet, fun e he => (leads e he).quiet⟩)
  faults _ _ _ _ _ := trivial

theorem ensures_losingRule {request : Option RequestContext} :
    (s.refreshWith request token).Ensures losingRule ds []
      (Requested fun request => s.Refreshed request token ds) := by
  refine ensures_refreshWith lenient_losingRule fun request before harmless => ?_
  have quiet {tail : History} (harmless' : ∀ e ∈ tail, e.IsHarmless) :
      ∀ e ∈ [] ++ before ++ tail, e.IsQuiet :=
    List.forall_mem_append.mpr ⟨fun e he => (harmless e he).quiet, fun e he => (harmless' e he).quiet⟩
  refine ⟨⟨fun tail harmless' _ _ _ _ _ _ => losingRule_of_quiet (quiet harmless'),
    fun tail harmless' _ _ _ _ _ _ _ => allows_losingRule (quiet harmless')⟩, ?_, ?_⟩
  · intro tail harmless' time now c _ _
    exact ⟨fun _ _ _ _ => allows_losingRule (quiet harmless'), fun _ => trivial⟩
  · intro tail kept time kind x
    refine ⟨fun ⟨lost, mem, isLost⟩ => ?_, fun ⟨_, _, _, _, _, impossible⟩ => by cases impossible⟩
    rcases List.mem_append.mp mem with mem | mem
    · exact absurd isLost (harmless lost mem).not_lost
    · exact absurd isLost (kept lost mem)

/-! ### How it ends -/

theorem Mints.not_lost {α : Type} {r : Except Interruption (Except AuthError α)} (mints : Mints h r) :
    ∀ e ∈ h, ¬ e.IsLost :=
  fun e mem => not_lost_of_minting (mints.1 e mem)

/-- A rotation that is told that there was an entry already is rejected. -/
theorem Rotated.of_lost {c : Credential} {now : Int64}
    {r : Except Interruption (Except AuthError IssuedToken)}
    (seen : s.Rotated c now ds h r) {e : Event} (mem : e ∈ h) (lost : e.IsLost) :
    r = .ok (.error (.rejected .tokenRevoked)) := by
  cases seen with
  | failed _ kept => cases outcome_of_lost kept mem lost
  | lost _ _ => rfl
  | won _ kept mints =>
      rcases List.mem_append.mp mem with mem | mem
      · exact absurd lost (not_lost_of_stored kept e mem)
      · exact absurd lost (mints.not_lost e mem)
  | abandoned _ kept => cases outcome_of_lost kept mem lost
  | timeless _ => exact absurd mem List.not_mem_nil

/-- So is the exchange of which it is a part. -/
theorem Exchanged.of_lost {c : Credential} {r : Except Interruption (Except AuthError RefreshedTokens)}
    (seen : s.Exchanged c ds h r) {e : Event} (mem : e ∈ h) (lost : e.IsLost) :
    r = .ok (.error (.rejected .tokenRevoked)) := by
  have told {time : Instant} {now : Int64} : ¬ (Event.answered time .clock now).IsLost :=
    fun ⟨_, _, _, _, _, impossible⟩ => by cases impossible
  cases seen with
  | unrotated time _ mints =>
      rcases List.mem_cons.mp mem with rfl | mem
      · exact absurd lost told
      · exact absurd lost (mints.not_lost e mem)
  | refused time _ rotated =>
      rcases List.mem_cons.mp mem with rfl | mem
      · exact absurd lost told
      · cases rotated.of_lost mem lost
        rfl
  | rotated time _ rotated mints =>
      rcases List.mem_cons.mp mem with rfl | mem
      · exact absurd lost told
      · rcases List.mem_append.mp mem with mem | mem
        · exact absurd lost (rotated.not_lost e mem)
        · exact absurd lost (mints.not_lost e mem)
  | abandoned time _ rotated =>
      rcases List.mem_cons.mp mem with rfl | mem
      · exact absurd lost told
      · cases rotated.of_lost mem lost

/-- A refresh that is told that there was an entry already is rejected. -/
theorem Refreshed.of_lost {r : Except Interruption (Except AuthError RefreshedTokens)}
    (seen : s.Refreshed request token ds h r) {e : Event} (mem : e ∈ h) (lost : e.IsLost) :
    r = .ok (.error (.rejected .tokenRevoked)) := by
  cases seen with
  | rejected verified => exact absurd lost (verified.harmless e mem).not_lost
  | abandoned verified => exact absurd lost (verified.harmless e mem).not_lost
  | exchanged verified exchanged =>
      rcases List.mem_append.mp mem with mem | mem
      · exact absurd lost (verified.harmless e mem).not_lost
      · exact exchanged.of_lost mem lost

/-- So is one that generates its request first. -/
theorem Requested.of_lost {r : Except Interruption (Except AuthError RefreshedTokens)}
    (told : Requested (fun request => s.Refreshed request token ds) h r) {e : Event} (mem : e ∈ h)
    (lost : e.IsLost) : r = .ok (.error (.rejected .tokenRevoked)) := by
  obtain ⟨request, drawn, rest, rfl, draws, seen⟩ := told
  rcases List.mem_append.mp mem with mem | mem
  · obtain ⟨time, x, rfl⟩ := draws e mem
    obtain ⟨_, _, _, _, _, impossible⟩ := lost
    cases impossible
  · exact seen.of_lost mem lost

/-! ### In a schedule -/

variable {σ : Type} {backend : Cache.Backend σ} {S : Scene σ Call (Option Reply)}

/-- A history with an answer that there was an entry already holds no issued token. -/
theorem not_issue_of_lost {α : Type} {Q : History → Except Fault α → Prop} {f g : Flow α}
    (meets : f.Meets losingRule Q []) (sees : f.Sees h g) {e : Event} (mem : e ∈ h)
    (lost : e.IsLost) : ∀ issue ∈ h, ¬ issue.IsIssue := by
  obtain ⟨before, after, rfl⟩ := List.append_of_mem mem
  intro issue there
  rcases List.mem_append.mp there with there | there
  · exact (meets.event sees).2 lost issue there
  rcases List.mem_cons.mp there with rfl | there
  · rintro ⟨time, kind, x, rfl⟩
    obtain ⟨_, _, _, _, _, impossible⟩ := lost
    cases impossible
  · obtain ⟨between, rest, rfl⟩ := List.append_of_mem there
    rw [← List.cons_append, ← List.append_assoc] at sees
    exact ((meets.event sees).1 ⟨e, by simp, lost⟩).2

/-- A refresh that is told that there was an entry already issues nothing, and it is about to ask a
question or has ended as rejected, since the token is revoked: it waits for nothing and cannot fail. -/
theorem stands_of_lost {strand : Strand σ Call (Option Reply)} {request : Option RequestContext}
    (tracked : S.Tracked backend (Call.flow s)) {i : Nat} (found : S.strands[i]? = some strand)
    (refreshes : strand.call = .refresh request token) {e : Event} (mem : e ∈ strand.seen)
    (lost : e.IsLost) :
    (∀ issue ∈ strand.seen, ¬ issue.IsIssue) ∧
      ((∃ q next, strand.place = .ok (.asking q next)) ∨
        strand.place = .ok (.ended (some (.refreshed (.error (.rejected .tokenRevoked)))))) := by
  have ensures : ((Call.refresh request token).action s).Ensures losingRule [] [] _ :=
    ensures_reply ensures_losingRule
  have meets := ensures.start
  obtain ⟨g, sees, stands⟩ := tracked i strand found
  rw [refreshes] at sees
  refine ⟨not_issue_of_lost meets sees mem lost, ?_⟩
  have left := meets.sees sees
  rw [List.nil_append] at left
  cases g with
  | fault f =>
      obtain ⟨_, x, told, same⟩ := left
      cases told.of_lost mem lost
      cases same
  | await wait ds next =>
      obtain ⟨_, _, _, impossible⟩ := ((left S.world.now (.error (.deadline 0))).1.1 ⟨e, mem, lost⟩).1
      cases impossible
  | ask q next => exact .inl ⟨q, next, stands.asking⟩
  | done r =>
      refine .inr ?_
      rw [stands.ended]
      cases r with
      | none =>
          obtain ⟨j, x, told, same⟩ := left
          cases told.of_lost mem lost
          cases same
      | some reply =>
          obtain ⟨x, told, same⟩ := left
          cases told.of_lost mem lost
          cases same
          rfl

end TokenService

end TokenAuthority
