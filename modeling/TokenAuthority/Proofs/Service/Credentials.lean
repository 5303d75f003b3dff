import TokenAuthority.Proofs.Cache.Memory
import TokenAuthority.Proofs.Effect.Replay
import TokenAuthority.Proofs.Service.Calls
import TokenAuthority.Proofs.Token.Encoding

/-!
# A token counts through its credential

What a call does with a token depends on the credential that the token holds and on nothing else of it.

* `TokenService.verifyAs`, `TokenService.refreshAs`, `TokenService.revokeAs` — the calls on a credential.
* `TokenService.Call.flow_eq` — a call on a token is the call on its credential.
-/

namespace TokenAuthority.TokenService

/-- The verdict on a token that holds a credential, stage by stage. -/
def judgeAs (s : TokenService) (request : RequestContext) (c : Credential) (expected : TokenKind) :
    Action Verdict := do
  if ← s.isTurnedAway request then return .rejected .rateLimited .received
  else
    let now ← Action.now
    match s.codec.current now c with
    | .error e => return .ofDecodeError e
    | .ok c =>
      if c.kind = expected then s.checkRevocation c
      else return .rejected .wrongTokenType .expiryChecked

def verifyAs (s : TokenService) (request : RequestContext) (c : Credential) (expected : TokenKind) :
    Action Verdict := do
  let verdict ← s.judgeAs request c expected
  s.observe request expected verdict
  return verdict

def refreshAs (s : TokenService) (request : RequestContext) (c : Credential) :
    Action (Except AuthError RefreshedTokens) := do
  match (← s.verifyAs request c .refresh).toExcept with
  | .error reason => return .error (.rejected reason)
  | .ok c => s.exchange c

def revokeAs (s : TokenService) (c : Credential) (reason : Revocation.Reason) :
    Action (Except AuthError Unit) := do
  let now ← Action.now
  let entry ← s.revocationEntry c now reason
  match ← s.store.revokeEntry entry with
  | .error e => return .error (.revocation e)
  | .ok _ => return .ok ()

variable {s : TokenService} {request : RequestContext} {token : String} {c : Credential}

/-- The verdict on a token is the one on its credential. -/
theorem judge_eq {expected : TokenKind}
    (decodes : s.codec.decodeIgnoringExpiry s.keys token = .ok c) :
    s.judge request token expected = s.judgeAs request c expected := by
  unfold judge judgeAs Codec.decode
  rw [decodes]
  rfl

theorem verifyFor_eq {expected : TokenKind}
    (decodes : s.codec.decodeIgnoringExpiry s.keys token = .ok c) :
    s.verifyFor request token expected = s.verifyAs request c expected := by
  rw [verifyFor, judge_eq decodes, verifyAs]

theorem refreshFor_eq (decodes : s.codec.decodeIgnoringExpiry s.keys token = .ok c) :
    s.refreshFor request token = s.refreshAs request c := by
  rw [refreshFor, verifyFor_eq decodes]
  rfl

theorem revoke_eq {reason : Revocation.Reason}
    (decodes : s.codec.decodeIgnoringExpiry s.keys token = .ok c) :
    s.revoke token reason = s.revokeAs c reason := by
  rw [revoke, decodes]
  rfl

namespace Call

def token? : Call → Option String
  | .verify _ token _ => some token
  | .refresh _ token => some token
  | .revoke token _ => some token
  | _ => none

/-- The flow of a call that presents a token with a credential. -/
def flowAs (s : TokenService) (c : Credential) : Call → Flow (Option Reply)
  | .verify (some request) _ expected =>
    (do return .verdict (← s.verifyAs request c expected) : Action Reply).start
  | .refresh (some request) _ => (do return .refreshed (← s.refreshAs request c) : Action Reply).start
  | .revoke _ reason => (do return .revoked (← s.revokeAs c reason) : Action Reply).start
  | k => k.flow s

/-- A call on a token is the call on its credential. -/
theorem flow_eq {k : Call}
    (decodes : ∀ token, k.token? = some token → s.codec.decodeIgnoringExpiry s.keys token = .ok c) :
    k.flow s = k.flowAs s c := by
  cases k with
  | verify request token expected =>
      cases request with
      | none => rfl
      | some request => rw [Call.flow, Call.action, verifyWith, verifyFor_eq (decodes _ rfl), flowAs]
  | refresh request token =>
      cases request with
      | none => rfl
      | some request => rw [Call.flow, Call.action, refreshWith, refreshFor_eq (decodes _ rfl), flowAs]
  | revoke token reason => rw [Call.flow, Call.action, revoke_eq (decodes _ rfl), flowAs]
  | issue subject => rfl
  | issueAccess subject => rfl
  | issueRefresh subject => rfl
  | issueReset userId email => rfl
  | remove tokenId => rfl

/-- What can be replayed with calls on a credential is a schedule of the calls on its tokens. -/
theorem steps_of_replay? {σ : Type} {backend : Cache.Backend σ} {S S' : Scene σ Call (Option Reply)}
    {moves : List (Scene.Move Call)}
    (decodes : ∀ k ∈ moves.filterMap Scene.Move.entered?, ∀ token, k.token? = some token →
      s.codec.decodeIgnoringExpiry s.keys token = .ok c)
    (replayed : S.replay? backend (flowAs s c) moves = some S') :
    Scene.Steps backend (Call.flow s) S S' := by
  refine Scene.steps_iff_replay?.mpr ⟨moves, ?_⟩
  rw [Scene.replay?_congr fun k mem => flow_eq (decodes k mem), replayed]

/-- A call that presents no token but those of a credential, and removes no entry, respects the key of
that credential. -/
theorem respects_of_decodes {k : Call} {key : String}
    (decodes : ∀ token, k.token? = some token → s.codec.decodeIgnoringExpiry s.keys token = .ok c)
    (keeps : ∀ tokenId, k ≠ .remove tokenId) : k.Respects s key (s.lastSecond c) := by
  cases k with
  | refresh request token =>
      intro c' decodes' _
      cases (decodes token rfl).symm.trans decodes'
      rfl
  | revoke token reason =>
      intro c' decodes' _
      cases (decodes token rfl).symm.trans decodes'
      rfl
  | remove tokenId => exact absurd rfl (keeps tokenId)
  | verify request token expected => trivial
  | issue subject => trivial
  | issueAccess subject => trivial
  | issueRefresh subject => trivial
  | issueReset userId email => trivial

end Call

end TokenAuthority.TokenService

/-! ### A service -/

namespace TokenAuthority.Sample

/-- A service that rotates refresh tokens. -/
def service : TokenService :=
  ⟨keys, {}, ⟨"auth:revoked", Span.ofMillis 500, {}⟩, none, { rotateRefreshTokens := true }, "memory"⟩

def key : String := "auth:revoked:id"

/-- A world in which the clock reads the seconds of the timer. -/
def world : World Cache.Memory :=
  ⟨.start, fun t => Int64.ofInt t.secs,
    ⟨fun draw count => List.replicate count (UInt8.ofNat draw), fun _ => Binary64.ofNat 1⟩,
    0, ⟨"revocation", {}, .initial⟩, [], .empty⟩

def request : RequestContext := ⟨"request", none⟩

theorem service_decodes :
    service.codec.decodeIgnoringExpiry service.keys token = .ok credential := decodes

theorem keyed : service.store.key credential.tokenId = .ok key := if_neg (by decide)

theorem spares : service.Spares key := fun _ impossible => by cases impossible

theorem lacks : ∀ t, world.now ≤ t → ¬ Cache.Memory.Holds world.cache t key :=
  fun t _ => Cache.Memory.not_holds_empty _ t key

theorem steady (last : Instant) (early : last.secs < 2 ^ 63 - 1) :
    Steady world.clock 0 world.now last where
  reads t _ before := by
    have le : t.secs ≤ last.secs := Instant.secs_mono before
    change (Int64.ofInt t.secs).toInt = t.secs + 0
    rw [Int64.toInt_ofInt_of_le (by omega) (by omega), Int.add_zero]
  inRange := early

/-- The calls that enter present the token, and none removes an entry. -/
def Presented (moves : List (Scene.Move TokenService.Call)) : Prop :=
  ∀ k ∈ moves.filterMap Scene.Move.entered?, k.token? = some token ∧ ∀ tokenId, k ≠ .remove tokenId

variable {moves : List (Scene.Move TokenService.Call)}
  {S S' : Scene Cache.Memory TokenService.Call (Option TokenService.Reply)}

/-- What they present holds the credential. -/
theorem Presented.decodes (presented : Presented moves) {k : TokenService.Call}
    (mem : k ∈ moves.filterMap Scene.Move.entered?) (text : String) (presents : k.token? = some text) :
    service.codec.decodeIgnoringExpiry service.keys text = .ok credential := by
  rw [(presented k mem).1] at presents
  rw [← Option.some.inj presents]
  exact service_decodes

/-- What can be replayed with calls on the credential is a schedule. -/
theorem Presented.steps (presented : Presented moves)
    (replayed : S.replay? Cache.Memory.backend (TokenService.Call.flowAs service credential) moves =
      some S') :
    Scene.Steps Cache.Memory.backend (TokenService.Call.flow service) S S' :=
  TokenService.Call.steps_of_replay? (fun _ mem => presented.decodes mem) replayed

/-- All its calls respect the key. -/
theorem Presented.respects (presented : Presented moves)
    (replayed : Scene.replay? Cache.Memory.backend (TokenService.Call.flowAs service credential)
      ⟨world, []⟩ moves = some S) (i : Nat) (k : TokenService.Call) (here : S.call? i = some k) :
    k.Respects service key (service.lastSecond credential) := by
  rw [Scene.call?_of_replay? replayed] at here
  have mem := List.mem_of_getElem? here
  exact TokenService.Call.respects_of_decodes (presented.decodes mem) (presented k mem).2

end TokenAuthority.Sample
