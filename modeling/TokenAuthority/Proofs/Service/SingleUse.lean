import TokenAuthority.Proofs.Service.Answering
import TokenAuthority.Proofs.Service.Credentials
import TokenAuthority.Proofs.Service.Losing

/-!
# A refresh token is used once

Where refresh tokens are rotated, any number of calls may present one refresh token side by side, in any
order of their steps.

* `TokenService.Refreshed.stores`, `TokenService.Revoked.sets` — a refresh that succeeds has stored the
  entry of its token; to a revocation that succeeds the cache has answered for one.
* `TokenService.Refreshed.lost_of_not_stored` — a refresh that got past its verification and did not store the
  entry is rejected, as long as the cache answers.
* `TokenService.refresh_singleUse` — in every schedule whose cache calls come before the token has expired
  for good, one refresh at most succeeds, none that stores its entry after a revocation, and those that
  lose are rejected without new tokens.
-/

namespace TokenAuthority

/-- The event ends a step on a key: a look-up, or storing an entry if there is none. -/
def Event.StepsOn (key : String) (e : Event) : Prop :=
  e.Ends (.contains key) ∨ ∃ value ttl, e.Ends (.setIfAbsent key value ttl)

namespace TokenService

variable {s : TokenService} {request : RequestContext} {token key : String} {ds : List Nat} {h : History}

/-! ### What replies tell -/

/-- Keeping an entry sees the answer whether it was stored. -/
theorem sets_of_keeps {e : Revocation.Entry} {stored : Bool}
    (seen : s.store.Keeps e ds h (.ok (.ok stored))) (valid : s.store.key e.tokenId = .ok key) :
    ∃ event ∈ h, event.Sets key stored := by
  obtain ⟨k, valid', concludes⟩ := seen.concludes
  cases valid.symm.trans valid'
  obtain ⟨time, ds', mem⟩ := concludes.mem
  exact ⟨_, mem, time, _, _, ds', rfl⟩

/-- A rotation that gives a successor has stored the entry. -/
theorem Rotated.stores {c : Credential} {now : Int64} {successor : IssuedToken}
    (seen : s.Rotated c now ds h (.ok (.ok successor))) (valid : s.store.key c.tokenId = .ok key) :
    ∃ e ∈ h, e.Sets key true := by
  cases seen with
  | won _ kept _ =>
      obtain ⟨e, mem, sets⟩ := sets_of_keeps kept valid
      exact ⟨e, List.mem_append_left _ mem, sets⟩

/-- A refresh that succeeds has found no entry and stored one. -/
theorem Refreshed.stores {tokens : RefreshedTokens} (rotates : s.policy.rotateRefreshTokens = true)
    (seen : s.Refreshed request token ds h (.ok (.ok tokens))) :
    ∃ c key, s.codec.decodeIgnoringExpiry s.keys token = .ok c ∧ s.store.key c.tokenId = .ok key ∧
      ∃ e ∈ h, e.Sets key true := by
  cases seen with
  | exchanged verified exchanged =>
      obtain ⟨_, _, _, decoded, _⟩ := verified.decoded
      obtain ⟨key, valid, _⟩ := verified.findsNone
      refine ⟨_, key, (Codec.decode_eq_ok_iff.mp decoded).1, valid, ?_⟩
      cases exchanged with
      | unrotated _ unrotated _ =>
          rw [rotates] at unrotated
          cases unrotated
      | rotated _ _ rotated _ =>
          obtain ⟨e, mem, sets⟩ := rotated.stores valid
          exact ⟨e, List.mem_append_right _ (List.mem_cons_of_mem _ (List.mem_append_left _ mem)), sets⟩

/-- The cache has answered a revocation that succeeds that there is an entry. -/
theorem Revoked.sets {reason : Revocation.Reason} (seen : s.Revoked token reason ds h (.ok (.ok ()))) :
    ∃ c, s.codec.decodeIgnoringExpiry s.keys token = .ok c ∧
      ∀ key, s.store.key c.tokenId = .ok key → ∃ stored, ∃ e ∈ h, e.Sets key stored := by
  cases seen with
  | kept time decoded found kept =>
      refine ⟨_, decoded, fun key valid => ?_⟩
      obtain ⟨e, mem, sets⟩ := sets_of_keeps kept valid
      exact ⟨_, e, List.mem_cons_of_mem _ mem, sets⟩

/-! ### Refreshes that got past their verification -/

/-- A call of the store that is answered reports so. -/
theorem success_of_guarded {operation : Revocation.Operation} {request : Cache.Request}
    {v : request.Value} (seen : s.store.Guarded operation request ds h (.ok (.ok v))) :
    ∃ e ∈ h, e.IsSuccess := by
  cases seen with
  | answered asked told _ => exact ⟨_, by simp, told, (), rfl⟩

/-- A call of the store that is not answered was refused, or a cache call has failed. -/
theorem refused_or_fails {operation : Revocation.Operation} {request : Cache.Request}
    {e : Revocation.Error} (seen : s.store.Guarded operation request ds h (.ok (.error e))) :
    (∃ event ∈ h, event.IsRefusal) ∨ ∃ event ∈ h, event.Fails := by
  cases seen with
  | refused asked counted => exact .inl ⟨_, List.mem_cons_self, asked, rfl⟩
  | failed asked told counted called =>
      obtain ⟨event, mem, fails⟩ :=
        Revocation.Store.fails_of_tries called (fun v impossible => by cases impossible)
      exact .inr ⟨event, by simp [mem], fails⟩

/-- Keeping an entry gives an answer if no call is refused and none fails. -/
theorem answered_of_keeps {e : Revocation.Entry} {r : Except Revocation.Error Bool}
    (seen : s.store.Keeps e ds h (.ok r)) (valid : s.store.key e.tokenId = .ok key)
    (granted : ∀ event ∈ h, ¬ event.IsRefusal) (unfailing : ∀ event ∈ h, ¬ event.Fails) :
    ∃ stored, r = .ok stored := by
  cases seen with
  | stored => exact ⟨true, rfl⟩
  | other seen _ =>
      cases seen with
      | invalid failed =>
          rw [valid] at failed
          cases failed
      | answered => exact ⟨_, rfl⟩
      | unanswered _ guarded =>
          rcases refused_or_fails guarded with ⟨event, mem, refusal⟩ | ⟨event, mem, fails⟩
          · exact absurd refusal (granted event mem)
          · exact absurd fails (unfailing event mem)

/-- A rotation that does not store the entry is told that there was one already, as long as the cache
answers. -/
theorem Rotated.lost_of_not_stored {c : Credential} {now : Int64} {x : Except AuthError IssuedToken}
    (seen : s.Rotated c now ds h (.ok x)) (valid : s.store.key c.tokenId = .ok key)
    (granted : ∀ event ∈ h, ¬ event.IsRefusal) (unfailing : ∀ event ∈ h, ¬ event.Fails)
    (other : ∀ event ∈ h, ¬ event.Sets key true) : ∃ e ∈ h, e.IsLost := by
  cases seen with
  | failed _ kept =>
      obtain ⟨stored, impossible⟩ := answered_of_keeps kept valid granted unfailing
      cases impossible
  | lost _ kept =>
      obtain ⟨e, mem, time, value, ttl, ds', rfl⟩ := sets_of_keeps kept valid
      exact ⟨_, mem, time, key, value, ttl, ds', rfl⟩
  | won _ kept _ =>
      obtain ⟨e, mem, sets⟩ := sets_of_keeps kept valid
      exact absurd sets (other e (List.mem_append_left _ mem))

/-- A refresh that found no entry in its verification and does not store one is told that there was one
already, as long as the cache answers. -/
theorem Refreshed.lost_of_not_stored {c : Credential} {x : Except AuthError RefreshedTokens}
    (rotates : s.policy.rotateRefreshTokens = true)
    (decodes : s.codec.decodeIgnoringExpiry s.keys token = .ok c)
    (valid : s.store.key c.tokenId = .ok key) (seen : s.Refreshed request token ds h (.ok x))
    {e : Event} (mem : e ∈ h) (finds : e.FindsNone key)
    (granted : h.Pairwise fun e e' => e.IsSuccess → ¬ e'.IsRefusal)
    (unfailing : ∀ event ∈ h, ¬ event.Fails) (other : ∀ event ∈ h, ¬ event.Sets key true) :
    ∃ e ∈ h, e.IsLost := by
  cases seen with
  | rejected verified =>
      obtain ⟨c', impossible⟩ := verified.accepted_of_findsNone mem finds
      cases impossible
  | @exchanged before exchange c' _ verified exchanged =>
      obtain ⟨_, _, _, decoded, _⟩ := verified.decoded
      cases decodes.symm.trans (Codec.decode_eq_ok_iff.mp decoded).1
      obtain ⟨k, lookup, ds', _, inside, guarded⟩ := verified.looked
      obtain ⟨reported, there, success⟩ := success_of_guarded guarded
      have granted' : ∀ event ∈ exchange, ¬ event.IsRefusal := fun event here =>
        (List.pairwise_append.mp granted).2.2 reported (inside _ there) event here success
      have lost {now : Int64} {rotation : History} {y : Except AuthError IssuedToken}
          (rotated : s.Rotated c now ds rotation (.ok y)) (within : ∀ event ∈ rotation, event ∈ exchange) :
          ∃ e ∈ before ++ exchange, e.IsLost := by
        obtain ⟨e, here, lost⟩ := rotated.lost_of_not_stored valid
          (fun event here => granted' event (within event here))
          (fun event here => unfailing event (List.mem_append_right _ (within event here)))
          (fun event here => other event (List.mem_append_right _ (within event here)))
        exact ⟨e, List.mem_append_right _ (within e here), lost⟩
      cases exchanged with
      | unrotated _ unrotated _ =>
          rw [rotates] at unrotated
          cases unrotated
      | refused time _ rotated => exact lost rotated fun event here => List.mem_cons_of_mem _ here
      | rotated time _ rotated _ =>
          exact lost rotated fun event here => List.mem_cons_of_mem _ (List.mem_append_left _ here)

/-! ### Schedules -/

variable {σ : Type} {backend : Cache.Backend σ} {valid : σ → Prop}
  {S S' : Scene σ Call (Option Reply)}

def place? (S : Scene σ Call (Option Reply)) (i : Nat) :
    Option (Except Fault (Pool.Member σ (Option Reply))) :=
  S.strands[i]?.map Strand.place

def reply? (S : Scene σ Call (Option Reply)) (i : Nat) : Option Reply :=
  match place? S i with
  | some (.ok (.ended reply)) => reply
  | _ => none

theorem place?_of_reply? {i : Nat} {reply : Reply} (replied : reply? S i = some reply) :
    place? S i = some (.ok (.ended (some reply))) := by
  unfold reply? at replied
  split at replied
  · rename_i stands
    cases replied
    exact stands
  · cases replied

/-- The call with a number is a refresh of a token that has succeeded. -/
def HasRefreshed (S : Scene σ Call (Option Reply)) (token : String) (i : Nat) : Prop :=
  ∃ request tokens, S.call? i = some (.refresh request token) ∧
    reply? S i = some (.refreshed (.ok tokens))

/-- The call with a number is a revocation of a token that has succeeded. -/
def HasRevoked (S : Scene σ Call (Option Reply)) (token : String) (i : Nat) : Prop :=
  ∃ reason, S.call? i = some (.revoke token reason) ∧ reply? S i = some (.revoked (.ok ()))

/-- A call of a schedule that has ended has replied after what it has seen. -/
theorem replied_of_reply? {W : Watch σ} {i : Nat} {k : Call} {reply : Reply}
    (tracked : S.Tracked backend (Call.flow s)) (spares : s.Spares W.key)
    (respected : W.Respected s S) (calls : S.call? i = some k) (replied : reply? S i = some reply) :
    k.Replied s (S.seen i) reply := by
  obtain ⟨strand, found, ended⟩ := Option.map_eq_some_iff.mp (place?_of_reply? replied)
  cases (Scene.call?_of_strand found).symm.trans calls
  rw [Scene.seen_of_strand found]
  have ensures := Call.ensures_entryRule spares (respected i _ calls)
  exact tracked.value found ended ensures.start reply rfl

/-- A refresh that has succeeded has stored the entry of its token. -/
theorem sets_of_hasRefreshed {W : Watch σ} {c : Credential} {i : Nat}
    (tracked : S.Tracked backend (Call.flow s)) (spares : s.Spares W.key)
    (respected : W.Respected s S) (rotates : s.policy.rotateRefreshTokens = true)
    (decodes : s.codec.decodeIgnoringExpiry s.keys token = .ok c)
    (keyed : s.store.key c.tokenId = .ok W.key) (refreshed : HasRefreshed S token i) :
    ∃ e ∈ S.seen i, e.Sets W.key true := by
  obtain ⟨request, tokens, calls, replied⟩ := refreshed
  have told := replied_of_reply? tracked spares respected calls replied
  generalize S.seen i = h at told
  cases told with
  | refreshed told =>
      obtain ⟨request, drawn, rest, rfl, _, seen⟩ := told
      obtain ⟨c', key, decodes', keyed', e, mem, sets⟩ := seen.stores rotates
      cases decodes.symm.trans decodes'
      cases keyed.symm.trans keyed'
      exact ⟨e, List.mem_append_right _ mem, sets⟩

/-- To a revocation that has succeeded the cache has answered that there is an entry. -/
theorem sets_of_hasRevoked {W : Watch σ} {c : Credential} {i : Nat}
    (tracked : S.Tracked backend (Call.flow s)) (spares : s.Spares W.key)
    (respected : W.Respected s S) (decodes : s.codec.decodeIgnoringExpiry s.keys token = .ok c)
    (keyed : s.store.key c.tokenId = .ok W.key) (revoked : HasRevoked S token i) :
    ∃ stored, ∃ e ∈ S.seen i, e.Sets W.key stored := by
  obtain ⟨reason, calls, replied⟩ := revoked
  have told := replied_of_reply? tracked spares respected calls replied
  generalize S.seen i = h at told
  cases told with
  | revoked seen =>
      obtain ⟨c', decodes', sets⟩ := seen.sets
      cases decodes.symm.trans decodes'
      exact sets W.key keyed

/-- What single use of a refresh token means in a schedule that began with one scene and has come to
another. -/
structure SingleUse (backend : Cache.Backend σ) (s : TokenService) (token key : String)
    (start S : Scene σ Call (Option Reply)) : Prop where
  /-- One refresh at most succeeds. -/
  unique : ∀ i j, HasRefreshed S token i → HasRefreshed S token j → i = j
  /-- A refresh that succeeds has stored its entry before any revocation had succeeded. -/
  unrevoked : ∀ S₁ i j, Scene.Steps backend (Call.flow s) start S₁ →
    Scene.Steps backend (Call.flow s) S₁ S → HasRevoked S₁ token j → HasRefreshed S token i →
    ∃ e ∈ S₁.seen i, e.Sets key true
  /-- A refresh that is told that there was an entry already issues nothing, waits for nothing more and
  is rejected. -/
  lost : ∀ i request, S.call? i = some (.refresh request token) → (∃ e ∈ S.seen i, e.Sets key false) →
    (∀ e ∈ S.seen i, ¬ e.IsIssue) ∧
      ((∃ q next, place? S i = some (.ok (.asking q next))) ∨
        reply? S i = some (.refreshed (.error (.rejected .tokenRevoked))))
  /-- As long as the cache answers, so is every refresh that has ended after it got past its verification,
  if it has not stored its entry. -/
  rejected : Unfailing S → ∀ i request reply, S.call? i = some (.refresh request token) →
    reply? S i = some reply → (∃ e ∈ S.seen i, e.FindsNone key) →
    (∀ e ∈ S.seen i, ¬ e.Sets key true) →
    reply = .refreshed (.error (.rejected .tokenRevoked)) ∧ ∀ e ∈ S.seen i, ¬ e.IsIssue

/-- A refresh that is told that there was an entry already issues nothing, waits for nothing more and is
rejected. -/
theorem rejected_of_lost {i : Nat} {request : Option RequestContext}
    (tracked : S.Tracked backend (Call.flow s)) (calls : S.call? i = some (.refresh request token))
    (lost : ∃ e ∈ S.seen i, e.IsLost) :
    (∀ e ∈ S.seen i, ¬ e.IsIssue) ∧
      ((∃ q next, place? S i = some (.ok (.asking q next))) ∨
        reply? S i = some (.refreshed (.error (.rejected .tokenRevoked)))) := by
  obtain ⟨strand, found, calls⟩ := Option.map_eq_some_iff.mp calls
  rw [Scene.seen_of_strand found] at lost ⊢
  obtain ⟨e, mem, lost⟩ := lost
  obtain ⟨silent, stands⟩ := stands_of_lost tracked found calls mem lost
  have here : place? S i = some strand.place := by rw [place?, found, Option.map_some]
  refine ⟨silent, ?_⟩
  rw [reply?, here]
  rcases stands with ⟨q, next, asks⟩ | ended
  · exact .inl ⟨q, next, by rw [asks]⟩
  · exact .inr (by rw [ended])

/-- A refresh of which no cache call failed, and which ended after its look-up found no entry without
storing one, is rejected. -/
theorem rejected_of_not_stored {W : Watch σ} {c : Credential} {i : Nat}
    {request : Option RequestContext} {reply : Reply} (tracked : S.Tracked backend (Call.flow s))
    (spares : s.Spares W.key) (respected : W.Respected s S)
    (rotates : s.policy.rotateRefreshTokens = true)
    (decodes : s.codec.decodeIgnoringExpiry s.keys token = .ok c)
    (keyed : s.store.key c.tokenId = .ok W.key) (admitted : Admitted S) (unfailing : Unfailing S)
    (calls : S.call? i = some (.refresh request token)) (replied : reply? S i = some reply)
    (passed : ∃ e ∈ S.seen i, e.FindsNone W.key) (other : ∀ e ∈ S.seen i, ¬ e.Sets W.key true) :
    reply = .refreshed (.error (.rejected .tokenRevoked)) ∧ ∀ e ∈ S.seen i, ¬ e.IsIssue := by
  have told := replied_of_reply? tracked spares respected calls replied
  have granted := admitted.granted i
  have quiet := unfailing i
  have lost : ∃ e ∈ S.seen i, e.IsLost := by
    generalize S.seen i = h at told passed other granted quiet
    cases told with
    | refreshed told =>
        obtain ⟨request, drawn, rest, rfl, draws, seen⟩ := told
        obtain ⟨e, mem, finds⟩ := passed
        have mem' : e ∈ rest := by
          rcases List.mem_append.mp mem with mem | mem
          · obtain ⟨time, x, rfl⟩ := draws e mem
            obtain ⟨_, _, impossible⟩ := finds
            cases impossible
          · exact mem
        obtain ⟨e, mem, lost⟩ := seen.lost_of_not_stored rotates decodes keyed mem' finds
          (List.pairwise_append.mp granted).2.1
          (fun event mem => quiet event (List.mem_append_right _ mem))
          (fun event mem => other event (List.mem_append_right _ mem))
        exact ⟨e, List.mem_append_right _ mem, lost⟩
  obtain ⟨silent, stands⟩ := rejected_of_lost tracked calls lost
  refine ⟨?_, silent⟩
  rcases stands with ⟨q, next, asks⟩ | rejected
  · rw [place?_of_reply? replied] at asks
    cases asks
  · rw [replied] at rejected
    cases rejected
    rfl

/-- A refresh token is used once. Any number of calls of a service that rotates refresh tokens go on side
by side, over a cache that keeps texts for their time, with a clock that reads the seconds of the timer
moved by a constant; in the beginning there is nothing under the key of the token, or an entry that is
kept until the token has expired for good; all steps on that key come before; and no call removes the
entry or presents a token with the same identifier and another expiry. -/
theorem refresh_singleUse {holds : σ → Instant → String → Prop}
    (honours : backend.HonoursTime valid holds) {c : Credential}
    (rotates : s.policy.rotateRefreshTokens = true)
    (decodes : s.codec.decodeIgnoringExpiry s.keys token = .ok c)
    (keyed : s.store.key c.tokenId = .ok key) (spares : s.Spares key) {w : World σ}
    (sound : valid w.cache) (steps : Scene.Steps backend (Call.flow s) ⟨w, []⟩ S) {offset : Int}
    (steady : Steady w.clock offset w.now S.world.now)
    (decided : (s.watch c holds key steady).Decided w.now w.cache)
    (respected : ∀ i k, S.call? i = some k → k.Respects s key (s.lastSecond c))
    (early : ∀ i, ∀ e ∈ S.seen i, e.StepsOn key → (w.clock e.time).toInt < s.lastSecond c) :
    SingleUse backend s token key ⟨w, []⟩ S := by
  let W : Watch σ := s.watch c holds key steady
  have start : W.Invariant backend valid s ⟨w, []⟩ :=
    .nil sound rfl (Nat.le_refl _) decided
  have inTime : S.world.now ≤ W.last := Nat.le_refl _
  have invariant := (start.steps steps honours spares respected inTime).1
  have current {i : Nat} {e : Event} (mem : e ∈ S.seen i) (sets : e.Sets key true) :
      W.IsCurrent e := by
    refine early i e mem (.inr ?_)
    obtain ⟨time, value, ttl, ds, rfl⟩ := sets
    exact ⟨value, ttl, time, ds, _, rfl⟩
  have stored {i : Nat} (refreshed : HasRefreshed S token i) : ∃ e ∈ S.seen i, e.Sets key true :=
    sets_of_hasRefreshed (W := W) invariant.tracked spares respected rotates decodes keyed refreshed
  constructor
  case unique =>
    intro i j refreshed refreshed'
    obtain ⟨e, mem, sets⟩ := stored refreshed
    obtain ⟨e', mem', sets'⟩ := stored refreshed'
    exact (start.sets_unique steps honours spares respected inTime rfl mem mem' sets sets'
      (current mem sets) (current mem' sets')).1
  case unrevoked =>
    intro S₁ i j steps₁ steps₂ revoked refreshed
    obtain ⟨e, mem, sets⟩ := stored refreshed
    have respected₁ : W.Respected s S₁ := fun i k here => respected i k (steps₂.call? here)
    have inTime₁ : S₁.world.now ≤ W.last := steps₂.now (steps₁.tracked start.tracked)
    have invariant₁ := (start.steps steps₁ honours spares respected₁ inTime₁).1
    obtain ⟨_, told, there, sets'⟩ :=
      sets_of_hasRevoked invariant₁.tracked spares respected₁ decodes keyed revoked
    have covers := invariant₁.covered j told there _ sets'
    exact ⟨e, covers.steps invariant₁ steps₂ honours spares respected inTime mem (.inl sets)
      (current mem sets), sets⟩
  case lost =>
    rintro i request calls ⟨e, mem, time, value, ttl, ds, rfl⟩
    exact rejected_of_lost invariant.tracked calls ⟨_, mem, time, key, value, ttl, ds, rfl⟩
  case rejected =>
    intro unfailing i request reply calls replied passed other
    have admitted := admitted_steps steps start.tracked rfl unfailing fun i k here =>
      ⟨_, (Call.ensures_entryRule spares (respected i k here)).start⟩
    exact rejected_of_not_stored (W := W) invariant.tracked spares respected rotates decodes keyed
      admitted unfailing calls replied passed other

end TokenService

/-! ### A race -/

namespace Sample

open TokenService

/-- Whether a refresh has succeeded, or was rejected because its token is revoked. -/
def isDecided : Reply → Bool → Bool
  | .refreshed (.ok _), won => won
  | .refreshed (.error (.rejected .tokenRevoked)), won => !won
  | _, _ => false

theorem succeeded_of_isDecided {reply : Reply} (decided : isDecided reply true = true) :
    ∃ tokens, reply = .refreshed (.ok tokens) := by
  unfold isDecided at decided
  split at decided
  · exact ⟨_, rfl⟩
  · cases decided
  · cases decided

theorem rejected_of_isDecided {reply : Reply} (decided : isDecided reply false = true) :
    reply = .refreshed (.error (.rejected .tokenRevoked)) := by
  unfold isDecided at decided
  split at decided
  · cases decided
  · rfl
  · cases decided

/-- Two refreshes of one token that both get past their verification before one of them goes on, and a
revocation. -/
def race : List (Scene.Move Call) :=
  .enter (.refresh (some request) token) :: .enter (.refresh (some request) token) ::
    .enter (.revoke token .logout) ::
    (List.replicate 7 (.go 0) ++ List.replicate 7 (.go 1) ++ List.replicate 10 (.go 0) ++
      List.replicate 5 (.go 1) ++ List.replicate 5 (.go 2))

/-- The first refresh succeeds and the second one is rejected, at the instant at which they began. -/
theorem race_ends : ((Scene.mk world []).replay? Cache.Memory.backend (Call.flowAs service credential)
    race).any (fun S => (reply? S 0).any (isDecided · true) && (reply? S 1).any (isDecided · false) &&
      decide (S.world.now = .start)) = true := by
  decide +kernel

theorem entered_race : race.filterMap Scene.Move.entered? =
    [.refresh (some request) token, .refresh (some request) token, .revoke token .logout] := rfl

theorem presented_race : Presented race := by
  intro k mem
  rw [entered_race] at mem
  simp only [List.mem_cons, List.not_mem_nil, or_false] at mem
  rcases mem with rfl | rfl | rfl <;> exact ⟨rfl, fun _ impossible => by cases impossible⟩

/-- In the race the token is used once. -/
theorem race_singleUse : ∃ S, Scene.Steps Cache.Memory.backend (Call.flow service) ⟨world, []⟩ S ∧
    HasRefreshed S token 0 ∧ reply? S 1 = some (.refreshed (.error (.rejected .tokenRevoked))) ∧
    SingleUse Cache.Memory.backend service token key ⟨world, []⟩ S := by
  obtain ⟨S, replayed, ends⟩ := (Option.any_eq_true _ _).mp race_ends
  simp only [Bool.and_eq_true, decide_eq_true_eq] at ends
  obtain ⟨⟨won, lost⟩, still⟩ := ends
  obtain ⟨reply, replied, won⟩ := (Option.any_eq_true _ _).mp won
  obtain ⟨reply', replied', lost⟩ := (Option.any_eq_true _ _).mp lost
  obtain ⟨tokens, rfl⟩ := succeeded_of_isDecided won
  cases rejected_of_isDecided lost
  have steps := presented_race.steps replayed
  have respected := presented_race.respects replayed
  have first : S.call? 0 = some (.refresh (some request) token) := by
    rw [Scene.call?_of_replay? replayed, entered_race]
    rfl
  have soon : S.world.now.secs < 2 ^ 63 - 1 := by
    rw [still]
    decide
  let W : Watch Cache.Memory := service.watch credential Cache.Memory.Holds key (steady _ soon)
  have start : W.Invariant Cache.Memory.backend Cache.Memory.Valid service ⟨world, []⟩ :=
    .nil (Cache.Memory.valid_empty _) rfl (Nat.le_refl _) (.inl lacks)
  have invariant := (start.steps steps Cache.Memory.honoursTime spares respected (Nat.le_refl _)).1
  refine ⟨S, steps, ⟨some request, tokens, first, replied⟩, replied', ?_⟩
  refine refresh_singleUse Cache.Memory.honoursTime rfl service_decodes keyed spares
    (Cache.Memory.valid_empty _) steps (steady _ soon) (.inl lacks) respected ?_
  intro i e mem _
  have past : e.time ≤ S.world.now := (invariant.knows i e mem).2.2
  rw [(steady _ soon).reads e.time (Nat.zero_le _) past]
  rw [still] at past
  have early : e.time.secs ≤ 0 := Instant.secs_mono past
  change (e.time.secs : Int) + 0 < 100
  omega

end Sample

end TokenAuthority
