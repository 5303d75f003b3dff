import Mathlib.Data.List.Forall2
import TokenAuthority.Proofs.Service.MadeTokens

/-!
# The tokens of a session

A user is issued the first tokens of a session, over a cache in memory, and their refresh tokens are
exchanged again and again, by services that rotate them and services that do not.

* `TokenService.Lineage` — all tokens that have come from the first ones, and the world that is left.
* `TokenService.Kinship` — what is known of the tokens of a lineage: one call keeps it.
* `TokenService.identity_of_lineage` — they are all tokens of one user and one session, no two with the same
  identifier, and each is good for its own purpose only.
-/

namespace TokenAuthority

open Cache (Memory)

/-- Time passes between two calls: the clock may be set, and something may have been counted or drawn. -/
structure World.Rests (w v : World Memory) : Prop extends w.Draws v where
  later : w.now ≤ v.now
  breaker : v.breaker = w.breaker
  cache : v.cache = w.cache

namespace TokenService

open TokenAuthority.Action

/-! ### Lineages -/

/-- A token that was made, with its kind and what the clock read then. -/
structure Relative where
  token : String
  kind : TokenKind
  reading : Int64
  /-- Whether it was exchanged for its successor. -/
  spent : Bool

namespace Relative

def new (token : String) (kind : TokenKind) (reading : Int64) : Relative := ⟨token, kind, reading, false⟩

def exchanged (reading : Int64) (tokens : RefreshedTokens) : List Relative :=
  new tokens.accessToken .access reading ::
    (tokens.refreshToken.map fun token => new token .refresh reading).toList

/-- A token is spent where another one is given for it. -/
def spend (rotates : Bool) (token : String) (r : Relative) : Relative :=
  { r with spent := r.spent || (rotates && r.token = token) }

/-- What the token is to say. -/
def credential (s : TokenService) (subject : Subject) (sessionId tokenId : String) (r : Relative) :
    Credential where
  tokenId := tokenId
  userId := subject.userId
  email := subject.email
  roles := subject.roles
  sessionId := some sessionId
  issuedAt := r.reading
  expiresAt := Seconds.nearest (r.reading.toInt + (s.policy.ttl r.kind).secs)
  kind := r.kind

end Relative

/-- The service, where refresh tokens are rotated or are not. -/
def rotating (s : TokenService) (rotates : Bool) : TokenService :=
  { s with policy := { s.policy with rotateRefreshTokens := rotates } }

/-- The tokens that have come from the first ones of a session, and the world that is left. The clock is never
negative when a call is made. -/
inductive Lineage (s : TokenService) (subject : Subject) (w₀ : World Memory) :
    List Relative → World Memory → Prop where
  | issue {w : World Memory} {pair : TokenPair} :
      0 ≤ (w₀.clock w₀.now).toInt →
      (s.issue subject).run Memory.backend w₀ = (.value (.ok pair), w) →
      Lineage s subject w₀
        [.new pair.refreshToken .refresh (w₀.clock w₀.now), .new pair.accessToken .access (w₀.clock w₀.now)] w
  | issueRefreshToken {w : World Memory} {issued : IssuedToken} :
      0 ≤ (w₀.clock w₀.now).toInt →
      (s.issueRefreshToken subject).run Memory.backend w₀ = (.value (.ok issued), w) →
      Lineage s subject w₀ [.new issued.token .refresh (w₀.clock w₀.now)] w
  | refresh {family : List Relative} {w v w' : World Memory} {r : Relative} {rotates : Bool}
      {request : Option RequestContext} {tokens : RefreshedTokens} :
      Lineage s subject w₀ family w → w.Rests v → 0 ≤ (v.clock v.now).toInt → r ∈ family →
      ((s.rotating rotates).refreshWith request r.token).run Memory.backend v = (.value (.ok tokens), w') →
      Lineage s subject w₀
        (Relative.exchanged (v.clock v.now) tokens ++ family.map (Relative.spend rotates r.token)) w'

/-- In a world a token of a session holds a credential of its own. At the reading of the clock at which it was
made it is accepted for its own purpose, unless it is spent, and refused for every other one. -/
structure Relative.Genuine (s : TokenService) (subject : Subject) (sessionId : String) (w : World Memory)
    (r : Relative) (tokenId : String) : Prop where
  decodes : s.codec.decodeIgnoringExpiry s.keys r.token = .ok (r.credential s subject sessionId tokenId)
  accepted : r.spent = false → ∀ v, w.Rests v → v.clock v.now = r.reading →
    ((s.verify r.token r.kind).run Memory.backend v).1 =
      .value (.accepted (r.credential s subject sessionId tokenId))
  refused : ∀ v kind, w.Rests v → v.clock v.now = r.reading → kind ≠ r.kind →
    ((s.verify r.token kind).run Memory.backend v).1 = .value (.rejected .wrongTokenType .expiryChecked)

/-! ### What the tokens of a lineage have in common -/

variable {s : TokenService} {subject : Subject} {sessionId token : String} {expected : TokenKind}
  {w w' : World Memory} {family : List Relative} {kin : List (Relative × Nat)}

/-- A token of a session, as one that was made. -/
def Relative.minted (subject : Subject) (sessionId : String) (r : Relative) : MadeToken :=
  ⟨r.token, r.kind, subject, some sessionId, r.reading⟩

/-- Tokens of a session, each with a draw, as tokens that were made. -/
def madeOf (subject : Subject) (sessionId : String) (kin : List (Relative × Nat)) : List (MadeToken × Nat) :=
  kin.map fun p => (p.1.minted subject sessionId, p.2)

/-- The draws of tokens that were made are draws of the tokens of a session. -/
theorem exists_kin {made : List (MadeToken × Nat)}
    (same : made.map Prod.fst = family.map (Relative.minted subject sessionId)) :
    ∃ kin : List (Relative × Nat), kin.map Prod.fst = family ∧ madeOf subject sessionId kin = made := by
  induction family generalizing made with
  | nil =>
      cases List.map_eq_nil_iff.mp same
      exact ⟨[], rfl, rfl⟩
  | cons r family ih =>
      obtain ⟨p, rest, rfl, head, tail⟩ := List.map_eq_cons_iff.mp same
      obtain ⟨kin, rfl, rfl⟩ := ih tail
      exact ⟨(r, p.2) :: kin, rfl, by rw [madeOf, List.map_cons, ← head]; rfl⟩

/-- Whether refresh tokens are rotated makes no difference to a token that is made. -/
theorem Makes.of_rotating {rotates : Bool} {minted : List MadeToken}
    (makes : (s.rotating rotates).Makes w w' minted) : s.Makes w w' minted := by
  obtain ⟨made, same, born⟩ := makes.born
  exact ⟨makes.toDraws, made, same, born.drawn, born.encoded, born.apart⟩

/-- The tokens of a session in a world, each with the draw that gave its identifier. Nothing is stored under
the key of a draw from the first one on to the last one, unless its identifier is that of a token that was
spent. -/
structure Kinship (s : TokenService) (subject : Subject) (sessionId : String) (source : Randomness)
    (first last : Nat) (kin : List (Relative × Nat)) (w : World Memory) : Prop where
  valid : w.cache.Valid
  closed : w.breaker.state = .initial
  random : w.random = source
  begun : first ≤ w.draws
  born : s.Born source first w.draws (madeOf subject sessionId kin)
  reads : ∀ p ∈ kin, 0 ≤ p.1.reading.toInt
  free : ∀ draw, first ≤ draw → draw < last → (∀ p ∈ kin, p.2 = draw → p.1.spent = false) →
    ∀ k t, s.store.key (idOf source draw) = .ok k → w.now ≤ t → ¬ w.cache.Holds t k

namespace Kinship

variable {source : Randomness} {first last : Nat}

theorem drawn (kinship : s.Kinship subject sessionId source first last kin w) {p : Relative × Nat}
    (mem : p ∈ kin) : first ≤ p.2 ∧ p.2 < w.draws :=
  kinship.born.drawn _ (List.mem_map_of_mem mem)

theorem encoded (kinship : s.Kinship subject sessionId source first last kin w) {p : Relative × Nat}
    (mem : p ∈ kin) : s.codec.encode s.keys (p.1.credential s subject sessionId (idOf source p.2)) =
      .ok p.1.token :=
  kinship.born.encoded _ (List.mem_map_of_mem mem)

theorem apart (kinship : s.Kinship subject sessionId source first last kin w) :
    (kin.map Prod.snd).Nodup := by
  have apart := kinship.born.apart
  rwa [madeOf, List.map_map] at apart

theorem rests (kinship : s.Kinship subject sessionId source first last kin w) (rests : w.Rests w') :
    s.Kinship subject sessionId source first last kin w' where
  valid := by
    rw [rests.cache]
    exact kinship.valid
  closed := by
    rw [rests.breaker]
    exact kinship.closed
  random := rests.random.trans kinship.random
  begun := Nat.le_trans kinship.begun rests.draws
  born := kinship.born.widen (Nat.le_refl _) rests.draws
  reads := kinship.reads
  free draw from' below unspent k t keyed later := by
    rw [rests.cache]
    exact kinship.free draw from' below unspent k t keyed (Nat.le_trans rests.later later)

/-- A call makes more tokens of the session, and may spend one. -/
theorem grows {new : List Relative} (spend : Relative → Relative)
    (kinship : s.Kinship subject sessionId source first last kin w)
    (makes : s.Makes w w' (new.map (Relative.minted subject sessionId)))
    (reads : ∀ r ∈ new, 0 ≤ r.reading.toInt) (keeps : ∀ r, spend r = { r with spent := (spend r).spent })
    (valid : w'.cache.Valid) (closed : w'.breaker.state = .initial)
    (free : ∀ draw, first ≤ draw → draw < last → (∀ p ∈ kin, p.2 = draw → (spend p.1).spent = false) →
      ∀ k t, s.store.key (idOf source draw) = .ok k → w'.now ≤ t → ¬ w'.cache.Holds t k) :
    ∃ kin' : List (Relative × Nat), kin'.map Prod.fst = new ∧
      s.Kinship subject sessionId source first last (kin' ++ kin.map fun p => (spend p.1, p.2)) w' := by
  obtain ⟨made, same, late⟩ := makes.born
  obtain ⟨kin', rfl, rfl⟩ := exists_kin same
  refine ⟨kin', rfl, ?_⟩
  have still : madeOf subject sessionId (kin.map fun p => (spend p.1, p.2)) = madeOf subject sessionId kin := by
    unfold madeOf
    rw [List.map_map]
    refine List.map_congr_left fun p _ => ?_
    rw [Function.comp_apply, keeps]
    rfl
  refine ⟨valid, closed, makes.random.trans kinship.random, ?_, ?_, ?_, ?_⟩
  · exact Nat.le_trans kinship.begun makes.draws
  · rw [kinship.random] at late
    have both := kinship.born.append late kinship.begun makes.draws
    rwa [← still, madeOf, madeOf, ← List.map_append] at both
  · intro p mem
    rcases List.mem_append.mp mem with new | old
    · exact reads p.1 (List.mem_map_of_mem new)
    · obtain ⟨q, there, rfl⟩ := List.mem_map.mp old
      rw [keeps]
      exact kinship.reads q there
  · intro draw from' below unspent
    refine free draw from' below fun p mem same => ?_
    exact unspent _ (List.mem_append_right _ (List.mem_map.mpr ⟨p, mem, rfl⟩)) same

/-- Where the presented token is not rotated nothing is spent; where it is, its identifier is stored, and no
other one. -/
theorem free_of_spends {rotates : Bool} {p : Relative × Nat}
    (kinship : s.Kinship subject sessionId source first last kin w) (mem : p ∈ kin) (inside : w.draws ≤ last)
    (distinct : Distinct source first last)
    (spends : (s.rotating rotates).Spends (p.1.credential s subject sessionId (idOf source p.2)) w w') :
    w'.cache.Valid ∧ w'.breaker.state = .initial ∧
      ∀ draw, first ≤ draw → draw < last →
        (∀ q ∈ kin, q.2 = draw → (q.1.spend rotates p.1.token).spent = false) →
        ∀ k t, s.store.key (idOf source draw) = .ok k → w'.now ≤ t → ¬ w'.cache.Holds t k := by
  -- A token that is not spent now was not spent before.
  have before {draw : Nat} (unspent : ∀ q ∈ kin, q.2 = draw → (q.1.spend rotates p.1.token).spent = false) :
      ∀ q ∈ kin, q.2 = draw → q.1.spent = false := fun q mem same =>
    (Bool.or_eq_false_iff.mp (unspent q mem same)).1
  cases rotates with
  | false =>
      have leaves : w.Leaves w.cache w' := spends
      rw [leaves.cache, leaves.now]
      refine ⟨kinship.valid, leaves.closed kinship.closed, ?_⟩
      exact fun draw from' below unspent => kinship.free draw from' below (before unspent)
  | true =>
      obtain ⟨k', ttl, reason, m, keyed', _, performs, leaves⟩ :
        s.Stores (p.1.credential s subject sessionId (idOf source p.2)) w true w' := spends
      have stores := Cache.Memory.setIfAbsent_of_perform performs
      have absent : ¬ w.cache.Holds w.now k' := by
        intro present
        rw [Cache.Memory.setIfAbsent_of_holds kinship.valid present] at stores
        cases stores
      obtain ⟨_, valid, held⟩ := Cache.Memory.setIfAbsent_of_not_holds kinship.valid absent stores
      rw [leaves.cache, leaves.now]
      refine ⟨valid, leaves.closed kinship.closed, fun draw from' below unspent k t keyed later => ?_⟩
      have other : k ≠ k' := by
        rintro rfl
        have drawn := kinship.drawn mem
        have same := distinct p.2 draw drawn.1 (by omega) from' below
          (Revocation.Store.eq_of_key keyed keyed')
        have spent := unspent p mem same
        simp [Relative.spend] at spent
      rw [held k t later, if_neg other]
      exact kinship.free draw from' below (before unspent) k t keyed later

end Kinship

section

variable {w₀ : World Memory} {last : Nat} (valid : w₀.cache.Valid) (closed : w₀.breaker.state = .initial)
  (distinct : Distinct w₀.random w₀.draws last)
  (unknown : ∀ draw, w₀.draws ≤ draw → draw < last →
    ∀ k t, s.store.key (idOf w₀.random draw) = .ok k → w₀.now ≤ t → ¬ w₀.cache.Holds t k)

include valid closed unknown in
/-- The first tokens of a session. -/
theorem kinship_of_makes (sessionId : String) (reads : ∀ r ∈ family, 0 ≤ r.reading.toInt)
    (leaves : w₀.Leaves w₀.cache w)
    (makes : s.Makes w₀ w (family.map (Relative.minted subject sessionId))) :
    ∃ sessionId kin, kin.map Prod.fst = family ∧
      s.Kinship subject sessionId w₀.random w₀.draws last kin w := by
  have none : s.Kinship subject sessionId w₀.random w₀.draws last [] w₀ :=
    { valid := valid
      closed := closed
      random := rfl
      begun := Nat.le_refl _
      born := .none
      reads := fun _ impossible => (List.not_mem_nil impossible).elim
      free := fun draw from' below _ => unknown draw from' below }
  obtain ⟨kin, same, kinship⟩ := none.grows id makes reads (fun _ => rfl) (by rwa [leaves.cache])
    (leaves.closed closed) (by
      rw [leaves.cache, leaves.now]
      exact fun draw from' below _ => unknown draw from' below)
  rw [List.map_nil, List.append_nil] at kinship
  exact ⟨sessionId, kin, same, kinship⟩

include valid closed distinct unknown in
theorem kinship_of_lineage (lineage : s.Lineage subject w₀ family w) (inside : w.draws ≤ last) :
    ∃ sessionId kin, kin.map Prod.fst = family ∧
      s.Kinship subject sessionId w₀.random w₀.draws last kin w := by
  induction lineage with
  | @issue _ pair nonneg runs =>
      obtain ⟨leaves, makes⟩ := yields_issue_makes.of_run runs _ rfl
      refine kinship_of_makes valid closed unknown pair.sessionId ?_ leaves makes
      simpa [Relative.new] using nonneg
  | issueRefreshToken nonneg runs =>
      obtain ⟨leaves, sessionId, makes⟩ := yields_issueRefreshToken_makes.of_run runs _ rfl
      refine kinship_of_makes valid closed unknown sessionId ?_ leaves makes
      simpa [Relative.new] using nonneg
  | @refresh family w v w' r rotates request tokens _ rests nonneg mem runs ih =>
      have drawn := ((s.rotating rotates).refreshWith request r.token).draws_run Memory.backend v
      rw [runs] at drawn
      have inside' : v.draws ≤ last := Nat.le_trans drawn.draws inside
      obtain ⟨sessionId, kin, rfl, kinship⟩ := ih (Nat.le_trans rests.draws inside')
      have kinship := kinship.rests rests
      obtain ⟨p, here, rfl⟩ := List.mem_map.mp mem
      obtain ⟨c, decodes, spends, makes⟩ := yields_refreshWith_makes.of_run runs tokens rfl
      cases Codec.eq_of_encode (kinship.encoded here) decodes
      have given : MadeToken.exchanged (p.1.credential s subject sessionId (idOf w₀.random p.2)) (v.clock v.now)
          tokens = (Relative.exchanged (v.clock v.now) tokens).map (Relative.minted subject sessionId) := by
        unfold MadeToken.exchanged Relative.exchanged
        cases tokens.refreshToken <;> rfl
      rw [given] at makes
      have reads : ∀ r ∈ Relative.exchanged (v.clock v.now) tokens, 0 ≤ r.reading.toInt := by
        unfold Relative.exchanged
        cases tokens.refreshToken <;> simpa [Relative.new] using nonneg
      obtain ⟨valid', closed', free⟩ := kinship.free_of_spends here inside' distinct spends
      obtain ⟨kin', same, kinship⟩ :=
        kinship.grows _ makes.of_rotating reads (fun _ => rfl) valid' closed' free
      exact ⟨sessionId, _, by simp [same], kinship⟩

end

/-- A verification ends with the verdict. -/
theorem run_verify (closed : w.breaker.state = .initial) :
    ((s.verify token expected).run Memory.backend w).1 = .value (s.verdictOn w token expected) := by
  have verifies : (s.verify token expected).Yields w _ := yields_verify closed
  obtain ⟨_, w', ⟨rfl, _⟩, runs⟩ := run_of_yields verifies
  rw [runs]
  rfl

/-- A token of a session is genuine. -/
theorem Kinship.genuine {source : Randomness} {first last : Nat} {p : Relative × Nat}
    (kinship : s.Kinship subject sessionId source first last kin w) (matching : s.keys.Matches)
    (leeway : 0 ≤ s.codec.leeway.toInt) (inside : w.draws ≤ last) (mem : p ∈ kin) :
    p.1.Genuine s subject sessionId w (idOf source p.2) := by
  obtain ⟨named, decodes, current⟩ := decode_made matching.agrees (kinship.encoded mem) (kinship.reads p mem)
  refine ⟨decodes, ?_, ?_⟩
  · intro unspent v rests reads
    obtain ⟨k, keyed⟩ := key_idOf s.store named
    have drawn := kinship.drawn mem
    have kinship := kinship.rests rests
    have absent : ¬ v.cache.Holds v.now k := by
      refine kinship.free p.2 drawn.1 (by omega) ?_ k v.now keyed (Nat.le_refl _)
      intro q here same
      rwa [List.inj_on_of_nodup_map kinship.apart here mem same]
    have dead : (v.cache.live? v.now k).isSome = false :=
      Bool.eq_false_iff.mpr fun found => absent ((Cache.Memory.live?_isSome_iff kinship.valid).mp found)
    have decoded : s.codec.decode s.keys p.1.token (v.clock v.now) =
        .ok (p.1.credential s subject sessionId (idOf source p.2)) := by
      rw [reads]
      exact current leeway
    have verdict : s.verdictOn v p.1.token p.1.kind = _ := verdictOn_eq decoded rfl keyed
    rw [run_verify kinship.closed, verdict, dead]
    rfl
  · intro v kind rests reads other
    have decoded : s.codec.decode s.keys p.1.token (v.clock v.now) =
        .ok (p.1.credential s subject sessionId (idOf source p.2)) := by
      rw [reads]
      exact current leeway
    rw [run_verify (kinship.rests rests).closed, verdictOn_of_other decoded (Ne.symm other)]

/-- All tokens that come from the first ones of a session, by services that rotate refresh tokens or do not
and at whatever readings of the clock, are of one user and one session. Each has an identifier of its own, if
the draws from which they come differ and none of them was revoked before; it lasts from the reading at which
it was made, for the time of its kind; and it is good for its own purpose only. A leeway is set as a number
of seconds, which is not negative. -/
theorem identity_of_lineage {w₀ : World Memory} (matching : s.keys.Matches)
    (leeway : 0 ≤ s.codec.leeway.toInt) (valid : w₀.cache.Valid) (closed : w₀.breaker.state = .initial)
    (distinct : Distinct w₀.random w₀.draws w.draws)
    (unknown : ∀ draw, w₀.draws ≤ draw → draw < w.draws →
      ∀ k t, s.store.key (idOf w₀.random draw) = .ok k → w₀.now ≤ t → ¬ w₀.cache.Holds t k)
    (lineage : s.Lineage subject w₀ family w) : ∃ sessionId ids, ids.Nodup ∧
      List.Forall₂ (Relative.Genuine s subject sessionId w) family ids := by
  obtain ⟨sessionId, kin, rfl, kinship⟩ :=
    kinship_of_lineage valid closed distinct unknown lineage (Nat.le_refl _)
  refine ⟨sessionId, kin.map fun p => idOf w₀.random p.2, ?_, ?_⟩
  · have ids : (kin.map fun p => idOf w₀.random p.2) = (kin.map Prod.snd).map (idOf w₀.random) := by simp
    rw [ids]
    refine List.Nodup.map_on ?_ kinship.apart
    intro draw here draw' there
    obtain ⟨p, mem, rfl⟩ := List.mem_map.mp here
    obtain ⟨q, mem', rfl⟩ := List.mem_map.mp there
    have drawn := kinship.drawn mem
    have drawn' := kinship.drawn mem'
    exact distinct _ _ drawn.1 drawn.2 drawn'.1 drawn'.2
  · rw [List.forall₂_map_left_iff, List.forall₂_map_right_iff, List.forall₂_same]
    exact fun p mem => kinship.genuine matching leeway (Nat.le_refl _) mem

end TokenService

/-! ### A session of three tokens -/

namespace Sample

open TokenService TokenAuthority.Action

theorem firstToken_issued : (service.issueRefreshToken someone).run Memory.backend dealt =
    (.value (.ok firstIssued), begun) :=
  run_of_answers Memory.backend answers_firstToken

def tenSecondsOn : World Memory := begun.advance (Span.ofSecs 10)

/-- The first token is exchanged for two tokens ten seconds later. -/
theorem firstToken_refreshed : ∃ tokens w,
    ((service.rotating true).refreshWith (some request) firstToken).run Memory.backend tenSecondsOn =
      (.value (.ok tokens), w) ∧ tokens.refreshToken.isSome = true ∧ w.draws = 4 := by
  let ran := ((service.rotating true).refreshAs request firstCredential).run Memory.backend tenSecondsOn
  have exchanges : (ran.1.value?.bind Except.toOption).any (fun tokens => tokens.refreshToken.isSome) = true ∧
      ran.2.draws = 4 := by
    decide +kernel
  have runs : ((service.rotating true).refreshWith (some request) firstToken).run Memory.backend
      tenSecondsOn = ran := by
    rw [refreshWith, refreshFor_eq (s := service.rotating true) firstToken_decodes]
  obtain ⟨given, draws⟩ := exchanges
  cases gives : ran.1.value?.bind Except.toOption with
  | none =>
      rw [gives] at given
      cases given
  | some tokens =>
      rw [gives] at given
      exact ⟨tokens, ran.2, runs.trans (Prod.ext (Ending.eq_of_toOption gives) rfl), given, draws⟩

/-- So there are three tokens of one session, of which two are still good. -/
theorem identity_ofThree : ∃ family w, service.Lineage someone dealt family w ∧ family.map Relative.kind =
    [.access, .refresh, .refresh] ∧ family.map Relative.spent = [false, false, true] ∧
    ∃ sessionId ids, ids.Nodup ∧ List.Forall₂ (Relative.Genuine service someone sessionId w) family ids := by
  obtain ⟨tokens, w, ran, successor, draws⟩ := firstToken_refreshed
  obtain ⟨second, refreshed⟩ := Option.isSome_iff_exists.mp successor
  have rests : begun.Rests tenSecondsOn := ⟨⟨rfl, Nat.le_refl _⟩, by decide, rfl, rfl⟩
  have first : service.Lineage someone dealt _ begun :=
    .issueRefreshToken (by decide) firstToken_issued
  have lineage := first.refresh rests (by decide) (List.mem_singleton.mpr rfl) ran
  have distinct : Distinct dealt.random dealt.draws w.draws := distinct_dealt (Nat.le_of_eq draws)
  refine ⟨_, w, lineage, ?_, ?_, identity_of_lineage matches_keys (by decide) (Cache.Memory.valid_empty _) rfl
    distinct (fun _ _ _ k t _ _ => Cache.Memory.not_holds_empty _ t k) lineage⟩
  · rw [Relative.exchanged, refreshed]
    rfl
  · rw [Relative.exchanged, refreshed]
    simp [Relative.new, Relative.spend]

end Sample

end TokenAuthority
