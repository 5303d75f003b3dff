import TokenAuthority.Proofs.Service.SingleUse

/-!
# After a token was used or revoked

A verification looks at the clock first and the revocation of the token later, by which time the entry may
have come to its end together with the token.

* `TokenService.HasAccepted` — a verification or a refresh has accepted its token.
* `TokenService.Verified.observed` — what an accepted token shows of the clock and of its look-up.
* `TokenService.LooksLate` — the token had not expired when the clock was read, and had when the look-up was
  answered.
* `TokenService.accepted_after_revocation` — once a token was revoked or used, a later call that accepts it
  has looked late, and a verification that has looked late accepts it.
-/

namespace TokenAuthority.TokenService

variable {s : TokenService} {request : RequestContext} {token key : String} {ds : List Nat} {h : History}

/-- The history reads the clock while a credential is current, and a look-up then finds no entry. -/
def Observes (s : TokenService) (c : Credential) (key : String) (h : History) : Prop :=
  ∃ time now e, Event.answered time .clock now ∈ h ∧ now.toInt < s.lastSecond c ∧ e ∈ h ∧
    e.FindsNone key

/-- What is observed in a part of a history is observed in the whole. -/
theorem Observes.mono {c : Credential} {h' : History} (observes : s.Observes c key h)
    (inside : ∀ e ∈ h, e ∈ h') : s.Observes c key h' := by
  obtain ⟨time, now, e, told, current, mem, finds⟩ := observes
  exact ⟨time, now, e, inside _ told, current, inside _ mem, finds⟩

/-- What an accepted token shows of the clock and of its look-up. -/
theorem Verified.observed {expected : TokenKind} {c c' : Credential}
    (seen : s.Verified request token expected ds h (.ok (.accepted c')))
    (decodes : s.codec.decodeIgnoringExpiry s.keys token = .ok c)
    (keyed : s.store.key c.tokenId = .ok key) : s.Observes c key h := by
  obtain ⟨time, now, told, decoded, _⟩ := seen.decoded
  obtain ⟨decodes', _, current⟩ := Codec.decode_eq_ok_iff.mp decoded
  cases decodes.symm.trans decodes'
  obtain ⟨k, keyed', e, mem, finds⟩ := seen.findsNone
  cases keyed.symm.trans keyed'
  refine ⟨time, now, e, told, ?_, mem, finds⟩
  exact Int.not_le.mp fun late => current (Int64.le_iff_toInt_le.mpr late)

/-- So does a refresh that does not end in a rejection. -/
theorem Refreshed.observed {c : Credential} {x : Except AuthError RefreshedTokens}
    (seen : s.Refreshed request token ds h (.ok x)) (accepts : ∀ reason, x ≠ .error (.rejected reason))
    (decodes : s.codec.decodeIgnoringExpiry s.keys token = .ok c)
    (keyed : s.store.key c.tokenId = .ok key) : s.Observes c key h := by
  cases seen with
  | rejected _ => exact absurd rfl (accepts _)
  | exchanged verified _ =>
      exact (verified.observed decodes keyed).mono fun e mem => List.mem_append_left _ mem

variable {σ : Type} {backend : Cache.Backend σ} {valid : σ → Prop}
  {S S₁ : Scene σ Call (Option Reply)}

/-- The call with a number is a verification of a token that has accepted it, or a refresh that has not
rejected it. -/
def HasAccepted (S : Scene σ Call (Option Reply)) (token : String) (i : Nat) : Prop :=
  (∃ request expected c, S.call? i = some (.verify request token expected) ∧
      reply? S i = some (.verdict (.accepted c))) ∨
    ∃ request outcome, S.call? i = some (.refresh request token) ∧
      reply? S i = some (.refreshed outcome) ∧ ∀ reason, outcome ≠ .error (.rejected reason)

/-- What a call that has accepted a token shows of the clock and of its look-up. -/
theorem observes_of_hasAccepted {W : Watch σ} {c : Credential} {i : Nat}
    (tracked : S.Tracked backend (Call.flow s)) (spares : s.Spares W.key)
    (respected : W.Respected s S) (decodes : s.codec.decodeIgnoringExpiry s.keys token = .ok c)
    (keyed : s.store.key c.tokenId = .ok W.key) (accepted : HasAccepted S token i) :
    s.Observes c W.key (S.seen i) := by
  rcases accepted with ⟨request, expected, c', calls, replied⟩ | ⟨request, outcome, calls, replied, accepts⟩
  · have told := replied_of_reply? tracked spares respected calls replied
    generalize S.seen i = h at told
    cases told with
    | verified told =>
        obtain ⟨request, drawn, rest, rfl, _, seen⟩ := told
        exact (seen.observed decodes keyed).mono fun e mem => List.mem_append_right _ mem
  · have told := replied_of_reply? tracked spares respected calls replied
    generalize S.seen i = h at told
    cases told with
    | refreshed told =>
        obtain ⟨request, drawn, rest, rfl, _, seen⟩ := told
        exact (seen.observed accepts decodes keyed).mono fun e mem => List.mem_append_right _ mem

/-- The history reads the clock while a credential is current, and a look-up finds no entry once the
credential is never current again. -/
def LooksLate (s : TokenService) (c : Credential) (key : String) (clock : Instant → Int64) (h : History) :
    Prop :=
  ∃ read now e, Event.answered read .clock now ∈ h ∧ now = clock read ∧ now.toInt < s.lastSecond c ∧
    e ∈ h ∧ e.FindsNone key ∧ s.lastSecond c ≤ (clock e.time).toInt

/-- A verification that has looked late, and has answered, has accepted its token. -/
theorem accepted_of_looksLate {W : Watch σ} {c : Credential} {clock : Instant → Int64} {i : Nat}
    {request : Option RequestContext} {expected : TokenKind} {reply : Reply}
    (tracked : S.Tracked backend (Call.flow s)) (spares : s.Spares W.key)
    (respected : W.Respected s S) (calls : S.call? i = some (.verify request token expected))
    (replied : reply? S i = some reply) (late : s.LooksLate c key clock (S.seen i)) :
    ∃ c, reply = .verdict (.accepted c) := by
  have told := replied_of_reply? tracked spares respected calls replied
  obtain ⟨_, _, e, _, _, _, mem, finds, _⟩ := late
  generalize S.seen i = h at told mem
  cases told with
  | verified told =>
      obtain ⟨request, drawn, rest, rfl, draws, seen⟩ := told
      rcases List.mem_append.mp mem with mem | mem
      · obtain ⟨_, _, rfl⟩ := draws e mem
        obtain ⟨_, _, impossible⟩ := finds
        cases impossible
      · obtain ⟨c', rfl⟩ := seen.accepted_of_findsNone mem finds
        exact ⟨c', rfl⟩

/-- Once a token was revoked, or used in a rotating refresh, a call that starts later accepts it only if the
token had not expired when the call read the clock, and had expired for good when the look-up was
answered; and a verification of which this is true does accept it. Calls go on side by side, over a cache
that keeps texts for their time however slow it is, with a clock that reads the seconds of the timer moved
by a constant; in the beginning there is nothing under the key of the token, or an entry that is kept
until the token has expired; and no call removes the entry or presents a token with the same identifier
and another expiry. -/
theorem accepted_after_revocation {holds : σ → Instant → String → Prop}
    (honours : backend.HonoursTime valid holds) {c : Credential}
    (decodes : s.codec.decodeIgnoringExpiry s.keys token = .ok c)
    (keyed : s.store.key c.tokenId = .ok key) (spares : s.Spares key) {w : World σ}
    (sound : valid w.cache) (before : Scene.Steps backend (Call.flow s) ⟨w, []⟩ S₁)
    (after : Scene.Steps backend (Call.flow s) S₁ S) {offset : Int}
    (steady : Steady w.clock offset w.now S.world.now)
    (decided : (s.watch c holds key steady).Decided w.now w.cache)
    (respected : ∀ i k, S.call? i = some k → k.Respects s key (s.lastSecond c)) {i j : Nat}
    (dead : HasRevoked S₁ token j ∨ s.policy.rotateRefreshTokens = true ∧ HasRefreshed S₁ token j)
    (later : S₁.strands.length ≤ i) :
    (HasAccepted S token i → s.LooksLate c key w.clock (S.seen i)) ∧
      ∀ request expected reply, S.call? i = some (.verify request token expected) →
        reply? S i = some reply → s.LooksLate c key w.clock (S.seen i) → HasAccepted S token i := by
  let W : Watch σ := s.watch c holds key steady
  have start : W.Invariant backend valid s ⟨w, []⟩ := .nil sound rfl (Nat.le_refl _) decided
  have inTime : S.world.now ≤ W.last := Nat.le_refl _
  have inTime₁ : S₁.world.now ≤ W.last := after.now (before.tracked start.tracked)
  have respected₁ : W.Respected s S₁ := fun i k here => respected i k (after.call? here)
  have invariant₁ := (start.steps before honours spares respected₁ inTime₁).1
  have invariant := (invariant₁.steps after honours spares respected inTime).1
  constructor
  · intro accepted
    have covers : W.Covers S₁.world.now S₁.world.cache := by
      rcases dead with revoked | ⟨rotates, refreshed⟩
      · obtain ⟨_, told, there, sets⟩ :=
          sets_of_hasRevoked (W := W) invariant₁.tracked spares respected₁ decodes keyed revoked
        exact invariant₁.covered j told there _ sets
      · obtain ⟨told, there, sets⟩ :=
          sets_of_hasRefreshed (W := W) invariant₁.tracked spares respected₁ rotates decodes keyed refreshed
        exact invariant₁.covered j told there _ sets
    obtain ⟨read, now, e, told, current, mem, finds⟩ :=
      observes_of_hasAccepted (W := W) invariant.tracked spares respected decodes keyed accepted
    refine ⟨read, now, e, told, (invariant.knows i _ told).1, current, mem, finds, ?_⟩
    refine Int.not_lt.mp fun early => ?_
    have unseen := covers.steps invariant₁ after honours spares respected inTime mem (.inr finds) early
    rw [Scene.seen, List.getElem?_eq_none later] at unseen
    exact (List.not_mem_nil unseen).elim
  · intro request expected reply calls replied late
    obtain ⟨c', rfl⟩ :=
      accepted_of_looksLate (W := W) invariant.tracked spares respected calls replied late
    exact .inl ⟨request, expected, c', calls, replied⟩

end TokenAuthority.TokenService

/-! ### A slow look-up -/

namespace TokenAuthority.Sample

open TokenService

def revocation : List (Scene.Move Call) := .enter (.revoke token .logout) :: List.replicate 6 (.go 0)

/-- A verification that reads the clock in the last second of the token and looks it up in the next. -/
def lateVerification : List (Scene.Move Call) :=
  .pass (Span.ofMillis 99900) :: .enter (.verify (some request) token .refresh) ::
    (List.replicate 4 (.go 1) ++ .pass (Span.ofMillis 200) :: List.replicate 3 (.go 1))

/-- A revocation that has succeeded. -/
def isRevoked : Reply → Bool
  | .revoked (.ok ()) => true
  | _ => false

theorem revoked_of_isRevoked {reply : Reply} (revoked : isRevoked reply = true) :
    reply = .revoked (.ok ()) := by
  unfold isRevoked at revoked
  split at revoked
  · rfl
  · cases revoked

/-- A verification that has accepted its token. -/
def isAccepted : Reply → Bool
  | .verdict verdict => verdict.isAccepted
  | _ => false

theorem accepted_of_isAccepted {reply : Reply} (accepted : isAccepted reply = true) :
    ∃ c, reply = .verdict (.accepted c) := by
  match reply with
  | .verdict (.accepted c) => exact ⟨c, rfl⟩

/-- The revocation succeeds, and the verification accepts the token. -/
theorem lateVerification_ends : (Scene.replay? Cache.Memory.backend (Call.flowAs service credential)
    ⟨world, []⟩ revocation).any (fun S₁ => (reply? S₁ 0).any isRevoked &&
      (S₁.replay? Cache.Memory.backend (Call.flowAs service credential) lateVerification).any fun S =>
        (reply? S 1).any isAccepted && decide (S.world.now.secs = 100)) = true := by
  decide +kernel

theorem entered_revocation : revocation.filterMap Scene.Move.entered? = [.revoke token .logout] := rfl

theorem entered_lateVerification : lateVerification.filterMap Scene.Move.entered? =
    [.verify (some request) token .refresh] := rfl

theorem presented_revocation : Presented revocation := by
  intro k mem
  rw [entered_revocation] at mem
  cases List.mem_singleton.mp mem
  exact ⟨rfl, fun _ impossible => by cases impossible⟩

theorem presented_lateVerification : Presented lateVerification := by
  intro k mem
  rw [entered_lateVerification] at mem
  cases List.mem_singleton.mp mem
  exact ⟨rfl, fun _ impossible => by cases impossible⟩

/-- A token is accepted after it was revoked, by a verification that looks late. -/
theorem accepted_late : ∃ S₁ S, Scene.Steps Cache.Memory.backend (Call.flow service) ⟨world, []⟩ S₁ ∧
    Scene.Steps Cache.Memory.backend (Call.flow service) S₁ S ∧ HasRevoked S₁ token 0 ∧
    S₁.strands.length ≤ 1 ∧ HasAccepted S token 1 ∧
    service.LooksLate credential key world.clock (S.seen 1) := by
  obtain ⟨S₁, replayed₁, ends⟩ := (Option.any_eq_true _ _).mp lateVerification_ends
  obtain ⟨revoked, ends⟩ := Bool.and_eq_true_iff.mp ends
  obtain ⟨S, replayed₂, ends⟩ := (Option.any_eq_true _ _).mp ends
  simp only [Bool.and_eq_true, decide_eq_true_eq] at ends
  obtain ⟨accepted, last⟩ := ends
  obtain ⟨reply₁, replied₁, revoked⟩ := (Option.any_eq_true _ _).mp revoked
  obtain ⟨reply, replied, accepted⟩ := (Option.any_eq_true _ _).mp accepted
  cases revoked_of_isRevoked revoked
  obtain ⟨c, rfl⟩ := accepted_of_isAccepted accepted
  have calls₁ : S₁.strands.map Strand.call = [.revoke token .logout] :=
    Scene.calls_of_replay? replayed₁
  have calls : S.strands.map Strand.call =
      [.revoke token .logout, .verify (some request) token .refresh] := by
    rw [Scene.calls_of_replay? replayed₂, calls₁, entered_lateVerification]
    rfl
  have called (i : Nat) : S.call? i = (S.strands.map Strand.call)[i]? := by
    rw [Scene.call?, List.getElem?_map]
  have dead : HasRevoked S₁ token 0 := by
    refine ⟨.logout, ?_, replied₁⟩
    rw [Scene.call?, ← List.getElem?_map, calls₁]
    rfl
  have accepts : HasAccepted S token 1 := by
    refine .inl ⟨some request, .refresh, c, ?_, replied⟩
    rw [called, calls]
    rfl
  have alone : S₁.strands.length ≤ 1 := by
    rw [← List.length_map Strand.call, calls₁]
    exact Nat.le_refl _
  have soon : S.world.now.secs < 2 ^ 63 - 1 := by
    rw [last]
    decide
  have presented : Presented (revocation ++ lateVerification) := fun k mem => by
    rw [List.filterMap_append] at mem
    exact (List.mem_append.mp mem).elim (presented_revocation k) (presented_lateVerification k)
  have before := presented_revocation.steps replayed₁
  have after := presented_lateVerification.steps replayed₂
  refine ⟨S₁, S, before, after, dead, alone, accepts, ?_⟩
  exact (accepted_after_revocation Cache.Memory.honoursTime service_decodes keyed spares
    (Cache.Memory.valid_empty _) before after (steady _ soon) (.inl lacks)
    (presented.respects (Scene.replay?_trans replayed₁ replayed₂)) (.inl dead) alone).1 accepts

end TokenAuthority.Sample
