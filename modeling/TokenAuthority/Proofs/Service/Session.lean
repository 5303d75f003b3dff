import TokenAuthority.Proofs.Effect.Elapsed
import TokenAuthority.Proofs.Service.MadeTokens
import TokenAuthority.Proofs.Service.Protection

/-!
# Revocation over calls one after the other

A service without a throttle, over a new cache in memory, carries out one call after the other, and time
passes between them.

* `Call.mark?`, `TokenService.isMarked` — whether the last call that recorded or removed the entry of an
  identifier recorded one.
* `TokenService.Watch.Ledger` — there is an entry under the key of a token, for as long as it matters, exactly
  if its identifier is marked.
* `TokenService.run_verify_of_visits` — a token that is current is refused as revoked if its identifier is
  marked, and accepted otherwise, where no other token with this identifier ends at another time.
* `TokenService.verify_session` — no other one does among those that the service has issued.
-/

namespace TokenAuthority

namespace TokenService

variable {s : TokenService} {w₀ w w' : World Cache.Memory} {id token key : String} {log : List Visit}

/-! ### Calls that record or remove an entry -/

/-- Whether a token holds a credential with an identifier. -/
def identifies (s : TokenService) (id token : String) : Bool :=
  (s.codec.decodeIgnoringExpiry s.keys token).toOption.any (·.tokenId == id)

def hasAccepted : Except AuthError RefreshedTokens → Bool
  | .error (.rejected _) => false
  | _ => true

/-- Whether a call has recorded or removed the entry of an identifier, given its reply: a revocation that
succeeded and a rotating refresh that accepted its token have recorded one. -/
def Call.mark? (s : TokenService) (id : String) : Call → Reply → Option Bool
  | .revoke token _, .revoked (.ok ()) => if s.identifies id token then some true else none
  | .refresh _ token, .refreshed outcome =>
    if s.policy.rotateRefreshTokens && s.identifies id token && hasAccepted outcome then some true
    else none
  | .remove tokenId, .removed _ => if tokenId = id then some false else none
  | _, _ => none

/-- Whether the last call that recorded or removed the entry of an identifier recorded one. -/
def isMarked (s : TokenService) (id : String) (log : List Visit) : Bool :=
  (log.findSome? fun v => v.reply.bind (v.call.mark? s id)).getD false

theorem hasAccepted_of_not_rejected {x : Except AuthError RefreshedTokens}
    (accepts : ∀ reason, x ≠ .error (.rejected reason)) : hasAccepted x = true := by
  unfold hasAccepted
  split
  · exact absurd rfl (accepts _)
  · rfl

/-- The mark of the last call counts, and before it the marks of the others. -/
theorem isMarked_cons {time : Instant} {k : Call} {reply : Reply} :
    s.isMarked id (⟨time, k, some reply⟩ :: log) = (k.mark? s id reply).getD (s.isMarked id log) := by
  unfold isMarked
  rw [List.findSome?_cons, Option.bind_some]
  cases k.mark? s id reply <;> rfl

/-- A refresh that rejects its token has recorded nothing. -/
theorem mark?_of_rejected {request : Option RequestContext} {reason : FailureReason} :
    Call.mark? s id (.refresh request token) (.refreshed (.error (.rejected reason))) = none := by
  rw [Call.mark?, hasAccepted, Bool.and_false, if_neg Bool.false_ne_true]

/-- A rotating refresh that accepts its token has recorded its entry. -/
theorem mark?_of_accepted {request : Option RequestContext} {x : Except AuthError RefreshedTokens}
    (rotates : s.policy.rotateRefreshTokens = true) (accepts : ∀ reason, x ≠ .error (.rejected reason)) :
    Call.mark? s id (.refresh request token) (.refreshed x) =
      if s.identifies id token then some true else none := by
  rw [Call.mark?, rotates, hasAccepted_of_not_rejected accepts, Bool.true_and, Bool.and_true]

/-- If a token has the identifier of a credential, it expires with it. -/
def ExpiresWith (s : TokenService) (c : Credential) (token : String) : Prop :=
  ∀ c', s.codec.decodeIgnoringExpiry s.keys token = .ok c' → c'.tokenId = c.tokenId →
    c'.expiresAt = c.expiresAt

theorem lastSecond_eq {c c' : Credential} (same : c'.expiresAt = c.expiresAt) :
    s.lastSecond c' = s.lastSecond c := by
  rw [lastSecond, same, lastSecond]

theorem identifies_iff {c : Credential} (decodes : s.codec.decodeIgnoringExpiry s.keys token = .ok c) :
    s.identifies id token = true ↔ c.tokenId = id := by
  unfold identifies
  rw [decodes]
  exact beq_iff_eq

/-! ### Entries -/

namespace Watch

variable {W : Watch Cache.Memory} {c : Credential} {stored : Bool}

/-- Storing an entry keeps the cache well-formed, and acts as a cache call does. -/
theorem acts_of_stores (stores : s.Stores c w stored w') (valid : w.cache.Valid) :
    w'.cache.Valid ∧ ∃ k ttl reason, s.store.key c.tokenId = .ok k ∧
      s.revocationTtl? c (w.clock w.now) = some ttl ∧
      Cache.Acts Cache.Memory.Holds w.now w.cache
        (.setIfAbsent k (entryFor c (w.clock w.now) ttl reason).text
          (entryFor c (w.clock w.now) ttl reason).ttl) (.ok stored) w'.cache := by
  obtain ⟨k, ttl, reason, m, keyed, found, performs, leaves⟩ := stores
  obtain ⟨valid', acts⟩ := Cache.Memory.perform_acts valid performs
  rw [leaves.cache]
  exact ⟨valid', k, ttl, reason, keyed, found, acts⟩

/-- Storing an entry under another key changes nothing under this one. -/
theorem alike_of_stores {k : String} (stores : s.Stores c w stored w') (valid : w.cache.Valid)
    (keyed : s.store.key c.tokenId = .ok k) (other : k ≠ W.key) :
    Cache.Alike Cache.Memory.Holds w.now W.key w.cache w'.cache := by
  obtain ⟨_, k', ttl, reason, keyed', _, acts⟩ := acts_of_stores stores valid
  cases keyed.symm.trans keyed'
  exact acts.alike other

/-- Finding an entry that was there already changes nothing. -/
theorem alike_of_not_stored (stores : s.Stores c w false w') (valid : w.cache.Valid) :
    Cache.Alike Cache.Memory.Holds w.now W.key w.cache w'.cache := by
  obtain ⟨_, k', ttl, reason, _, _, acts⟩ := acts_of_stores stores valid
  cases acts with
  | kept alike _ _ => exact alike W.key
  | stored _ _ notFalse _ => exact absurd rfl notFalse

/-- After the watch an entry need not be there. -/
theorem covers_of_inTime {now : Instant} {m : Cache.Memory} (covers : now ≤ W.last → W.Covers now m) :
    W.Covers now m :=
  fun t later early => covers (Nat.le_trans later early) t later early

/-- Once the entry of the credential is stored, or was there already, it is there for as long as it
matters. -/
theorem covers_of_stores (held : W.holds = Cache.Memory.Holds) (stores : s.Stores c w stored w')
    (valid : w.cache.Valid) (clock : w.clock = W.clock) (started : W.first ≤ w.now)
    (decided : W.Decided w.now w.cache) (keyed : s.store.key c.tokenId = .ok W.key)
    (ends : s.lastSecond c = W.ends) (nonneg : ¬ c.expiresAt < 0) : W.Covers w.now w'.cache := by
  refine covers_of_inTime fun inTime => ?_
  obtain ⟨_, k, ttl, reason, keyed', found, acts⟩ := acts_of_stores stores valid
  cases keyed.symm.trans keyed'
  have knows : W.Knows w.now [.answered w.now .clock (w.clock w.now)] := by
    refine List.forall_mem_singleton.mpr ⟨?_, started, Nat.le_refl _⟩
    rw [← clock]
    rfl
  have entry : s.StoresEntry W.key W.ends [.answered w.now .clock (w.clock w.now)]
      (.setIfAbsent W.key (entryFor c (w.clock w.now) ttl reason).text
        (entryFor c (w.clock w.now) ttl reason).ttl) :=
    ⟨w.now, w.clock w.now, c, ttl, reason, List.mem_singleton_self _, ends, nonneg, found, rfl⟩
  rw [← held] at acts
  rcases alike_or_covers inTime knows (fun _ => entry) acts with ⟨alike, told⟩ | covers
  · exact (decided.covers (told rfl _ rfl)).alike alike
  · exact covers

/-! ### Calls -/

/-- There is an entry under the key for as long as it matters, or there is nothing. -/
def Shows (W : Watch Cache.Memory) : Bool → Instant → Cache.Memory → Prop
  | true => W.Covers
  | false => W.Lacks

/-- What a call does under the key, if its reply marks the identifier so. -/
def Turns (W : Watch Cache.Memory) (w w' : World Cache.Memory) : Option Bool → Prop
  | none => Cache.Alike Cache.Memory.Holds w.now W.key w.cache w'.cache
  | some mark => W.Shows mark w.now w'.cache

/-- A world in which the next call may be carried out. -/
structure Ready (W : Watch Cache.Memory) (w : World Cache.Memory) : Prop where
  valid : w.cache.Valid
  closed : w.breaker.state = .initial
  clock : w.clock = W.clock
  started : W.first ≤ w.now
  decided : W.Decided w.now w.cache

/-- What a call that has replied leaves. -/
structure Carried (W : Watch Cache.Memory) (s : TokenService) (id : String) (k : Call)
    (w : World Cache.Memory) (reply : Reply) (w' : World Cache.Memory) : Prop where
  now : w'.now = w.now
  clock : w'.clock = w.clock
  closed : w'.breaker.state = .initial
  valid : w'.cache.Valid
  turns : W.Turns w w' (k.mark? s id reply)

/-- A call that leaves the cache as it is, and marks nothing. -/
theorem carried_of_leaves {k : Call} {reply : Reply} (ready : W.Ready w) (leaves : w.Leaves w.cache w')
    (unmarked : k.mark? s id reply = none) : W.Carried s id k w reply w' := by
  refine ⟨leaves.now, leaves.clock, leaves.closed ready.closed, ?_, ?_⟩
  · rw [leaves.cache]
    exact ready.valid
  · rw [unmarked, Turns, leaves.cache]
    exact fun t _ => Iff.rfl

/-- What is kept of a world in which an entry was stored. -/
theorem carried_of_stores {k : Call} {reply : Reply} (ready : W.Ready w) (stores : s.Stores c w stored w')
    (turns : W.Turns w w' (k.mark? s id reply)) : W.Carried s id k w reply w' := by
  have valid := (acts_of_stores stores ready.valid).1
  obtain ⟨_, _, _, _, _, _, _, leaves⟩ := stores
  exact ⟨leaves.now, leaves.clock, leaves.closed ready.closed, valid, turns⟩

/-- A call that leaves the cache as it is, whatever it replies. -/
theorem yields_idle {α : Type} {a : Action α} {reply : α → Reply} {k : Call} (ready : W.Ready w)
    (idles : a.Yields w w.Idles) (unmarked : ∀ x, k.mark? s id (reply x) = none) :
    (do return reply (← a) : Action Reply).Yields w fun r w' =>
      ∀ given, r = .ok given → W.Carried s id k w given w' := by
  refine yields_reply (idles.mono ?_)
  rintro r w' ⟨x, rfl, leaves⟩ _ ⟨⟩
  exact carried_of_leaves ready leaves (unmarked x)

/-- What storing an entry does under the key, for a call whose reply marks the identifier if that is the one
of the entry. -/
theorem turns_of_stores {c' : Credential} (ready : W.Ready w) (held : W.holds = Cache.Memory.Holds)
    (keyed : s.store.key c.tokenId = .ok W.key) (ends : s.lastSecond c = W.ends)
    (decodes : s.codec.decodeIgnoringExpiry s.keys token = .ok c')
    (agrees : c'.tokenId = c.tokenId → c'.expiresAt = c.expiresAt) (stores : s.Stores c' w stored w') :
    W.Turns w w' (if s.identifies c.tokenId token then some true else none) := by
  by_cases same : c'.tokenId = c.tokenId
  · rw [if_pos ((identifies_iff decodes).mpr same)]
    refine covers_of_stores held stores ready.valid ready.clock ready.started ready.decided ?_ ?_ ?_
    · rwa [same]
    · rw [lastSecond_eq (agrees same), ends]
    · exact (Codec.decodeIgnoringExpiry_eq_ok decodes).1
  · rw [if_neg fun identified => same ((identifies_iff decodes).mp identified)]
    obtain ⟨_, k, _, _, keyed', _⟩ := acts_of_stores stores ready.valid
    refine alike_of_stores stores ready.valid keyed' fun equal => same ?_
    exact (Revocation.Store.key_eq_iff keyed keyed').mp equal.symm

/-- A refresh that has replied is carried out. -/
theorem carried_of_refreshed {request : Option RequestContext} {x : Except AuthError RefreshedTokens}
    (ready : W.Ready w) (held : W.holds = Cache.Memory.Holds) (keyed : s.store.key c.tokenId = .ok W.key)
    (ends : s.lastSecond c = W.ends) (expires : s.ExpiresWith c token)
    (refreshed : s.RefreshedAs token w (.ok x) w') :
    W.Carried s c.tokenId (.refresh request token) w (.refreshed x) w' := by
  cases refreshed with
  | rejected leaves => exact carried_of_leaves ready leaves mark?_of_rejected
  | unrotated unrotated leaves => exact carried_of_leaves ready leaves (if_neg (by simp [unrotated]))
  | @lost c' _ decodes stores =>
      refine carried_of_stores ready stores ?_
      rw [mark?_of_rejected]
      exact alike_of_not_stored stores ready.valid
  | @rotated c' _ _ rotates decodes stores accepts =>
      refine carried_of_stores ready stores ?_
      rw [mark?_of_accepted rotates accepts]
      exact turns_of_stores ready held keyed ends decodes (expires c' decodes) stores

/-- What removing an entry does under the key: there is nothing left if the entry is that of the credential,
and otherwise it has another key. -/
theorem turns_of_delete {tokenId k : String} (valid : w.cache.Valid) (held : W.holds = Cache.Memory.Holds)
    (keyed : s.store.key c.tokenId = .ok W.key) (keyed' : s.store.key tokenId = .ok k)
    (leaves : w.Leaves (w.cache.delete w.now k).2 w') :
    w'.cache.Valid ∧ W.Turns w w' (if tokenId = c.tokenId then some false else none) := by
  obtain ⟨_, valid', held'⟩ := Cache.Memory.delete_spec valid w.now k
  rw [← leaves.cache] at valid' held'
  refine ⟨valid', ?_⟩
  by_cases same : tokenId = c.tokenId
  · rw [if_pos same]
    rw [same] at keyed'
    cases keyed.symm.trans keyed'
    intro t _ there
    rw [held] at there
    exact ((held' _ t).mp there).1 rfl
  · rw [if_neg same]
    have other : W.key ≠ k := mt (Revocation.Store.key_eq_iff keyed keyed').mp same
    exact fun t _ => (held' W.key t).trans ⟨fun both => both.2, fun there => ⟨other, there⟩⟩

/-- Every call that replies is carried out. -/
theorem yields_call {k : Call} (unthrottled : s.throttle = none) (ready : W.Ready w)
    (held : W.holds = Cache.Memory.Holds) (keyed : s.store.key c.tokenId = .ok W.key)
    (ends : s.lastSecond c = W.ends) (expire : ∀ text, k.token? = some text → s.ExpiresWith c text) :
    (k.action s).Yields w fun r w' => ∀ reply, r = .ok reply → W.Carried s c.tokenId k w reply w' := by
  cases k with
  | issue subject => exact yields_idle ready yields_issue fun _ => rfl
  | issueAccess subject => exact yields_idle ready yields_issueNow fun _ => rfl
  | issueRefresh subject => exact yields_idle ready yields_issueRefreshToken fun _ => rfl
  | issueReset userId email => exact yields_idle ready yields_issueNow fun _ => rfl
  | verify request token expected =>
      refine yields_idle ready ((yields_verifyWith unthrottled ready.closed).mono fun r w' gives => ?_)
        fun _ => rfl
      exact ⟨_, gives⟩
  | refresh request token =>
      refine yields_reply ((yields_refreshWith unthrottled ready.closed).mono ?_)
      rintro (f | x) w' refreshed _ ⟨⟩
      exact carried_of_refreshed ready held keyed ends (expire token rfl) refreshed
  | revoke token reason =>
      refine yields_reply (yields_revoke.mono ?_)
      rintro (f | x) w' revoked _ ⟨⟩
      cases revoked with
      | failed leaves => exact carried_of_leaves ready leaves rfl
      | @revoked c' _ _ decodes stores =>
          refine carried_of_stores ready stores ?_
          exact turns_of_stores ready held keyed ends decodes (expire token rfl c' decodes) stores
  | remove tokenId =>
      refine yields_reply ?_
      cases keyed' : s.store.key tokenId with
      | error e =>
          refine Revocation.Store.yields_onKey_invalid keyed' ?_
          rintro _ ⟨⟩
          refine carried_of_leaves ready w.leaves_self (if_neg fun same => ?_)
          rw [same, keyed] at keyed'
          cases keyed'
      | ok k =>
          refine (Revocation.Store.yields_remove ready.closed keyed').mono ?_
          rintro r w' ⟨rfl, leaves⟩ _ ⟨⟩
          obtain ⟨valid, turns⟩ := turns_of_delete ready.valid held keyed keyed' leaves
          exact ⟨leaves.now, leaves.clock, leaves.closed ready.closed, valid, turns⟩

/-! ### One call after the other -/

/-- What holds all along: there is an entry under the key if the identifier is marked, and nothing
otherwise. -/
structure Ledger (W : Watch Cache.Memory) (s : TokenService) (id : String) (log : List Visit)
    (w : World Cache.Memory) : Prop where
  valid : w.cache.Valid
  closed : w.breaker.state = .initial
  clock : w.clock = W.clock
  started : W.first ≤ w.now
  shows : W.Shows (s.isMarked id log) w.now w.cache

theorem Shows.decided {mark : Bool} {now : Instant} {m : Cache.Memory} (shows : W.Shows mark now m) :
    W.Decided now m := by
  cases mark with
  | true => exact .inr shows
  | false => exact .inl shows

theorem Shows.alike {mark : Bool} {now : Instant} {m m' : Cache.Memory} (shows : W.Shows mark now m)
    (alike : Cache.Alike W.holds now W.key m m') : W.Shows mark now m' := by
  cases mark with
  | true => exact Covers.alike shows alike
  | false => exact Lacks.alike shows alike

theorem Shows.later {mark : Bool} {now now' : Instant} {m : Cache.Memory} (shows : W.Shows mark now m)
    (le : now ≤ now') : W.Shows mark now' m := by
  cases mark with
  | true => exact Covers.later shows le
  | false => exact Lacks.later shows le

theorem Ledger.ready (ledger : W.Ledger s id log w) : W.Ready w :=
  ⟨ledger.valid, ledger.closed, ledger.clock, ledger.started, ledger.shows.decided⟩

/-- A call keeps the ledger, with its reply in the log. -/
theorem Ledger.call {k : Call} {time : Instant} {reply : Reply} (ledger : W.Ledger s id log w)
    (held : W.holds = Cache.Memory.Holds) (carried : W.Carried s id k w reply w') :
    W.Ledger s id (⟨time, k, some reply⟩ :: log) w' := by
  obtain ⟨now, clock, closed, valid, turns⟩ := carried
  refine ⟨valid, closed, clock.trans ledger.clock, ?_, ?_⟩
  · rw [now]
    exact ledger.started
  · rw [isMarked_cons, now]
    cases marks : k.mark? s id reply with
    | none =>
        rw [marks, Turns, ← held] at turns
        exact ledger.shows.alike turns
    | some mark =>
        rw [marks] at turns
        exact turns

theorem Ledger.pause (span : Span) (ledger : W.Ledger s id log w) : W.Ledger s id log (w.advance span) := by
  obtain ⟨valid, closed, clock, started, shows⟩ := ledger
  exact ⟨valid, closed, clock, Nat.le_trans started (Nat.le_add_right _ _),
    shows.later (Nat.le_add_right _ _)⟩

/-- Calls that have all replied keep the ledger. -/
theorem ledger_of_visits (visits : s.Visits w₀ log w) (replied : ∀ v ∈ log, v.reply.isSome)
    (unthrottled : s.throttle = none) (held : W.holds = Cache.Memory.Holds)
    (keyed : s.store.key c.tokenId = .ok W.key) (ends : s.lastSecond c = W.ends)
    (start : W.Ledger s c.tokenId [] w₀)
    (expire : ∀ v ∈ log, ∀ text, v.call.token? = some text → s.ExpiresWith c text) :
    W.Ledger s c.tokenId log w := by
  refine visits.keeps (P := fun log w =>
    (∀ v ∈ log, ∀ text, v.call.token? = some text → s.ExpiresWith c text) → W.Ledger s c.tokenId log w)
    replied (fun _ => start) ?_ (fun span ih expire => (ih expire).pause span) expire
  intro log w k reply w' ih runs expire
  obtain ⟨expire, before⟩ := List.forall_mem_cons.mp expire
  have ledger := ih before
  have carried := yields_call unthrottled ledger.ready held keyed ends expire
  exact ledger.call held (carried.of_run runs reply rfl)

end Watch

/-- A token that is current is refused as revoked if the last call that recorded or removed the entry of its
identifier recorded one, and is accepted otherwise, if this identifier has a key and every token with it that
was presented expires with this one. -/
theorem run_verify_of_visits {c : Credential} {offset : Int} {sweepEvery : Nat}
    (request : Option RequestContext) (visits : s.Visits w₀ log w) (replied : ∀ v ∈ log, v.reply.isSome)
    (unthrottled : s.throttle = none) (new : w₀.cache = .empty sweepEvery)
    (closed : w₀.breaker.state = .initial) (steady : Steady w₀.clock offset w₀.now w.now)
    (keyed : s.store.key c.tokenId = .ok key)
    (expire : ∀ v ∈ log, ∀ text, v.call.token? = some text → s.ExpiresWith c text)
    (decodes : s.codec.decode s.keys token (w.clock w.now) = .ok c) :
    ∃ w', ((Call.verify request token c.kind).action s).run Cache.Memory.backend w =
      (.value (.verdict (if s.isMarked c.tokenId log then .rejected .tokenRevoked .revocationChecked
        else .accepted c)), w') := by
  let W : Watch Cache.Memory := s.watch c Cache.Memory.Holds key steady
  have start : W.Ledger s c.tokenId [] w₀ := by
    refine ⟨?_, closed, rfl, Nat.le_refl _, ?_⟩
    · rw [new]
      exact Cache.Memory.valid_empty sweepEvery
    · rw [new]
      exact fun t _ => Cache.Memory.not_holds_empty sweepEvery t key
  have ledger := Watch.ledger_of_visits visits replied unthrottled rfl keyed rfl start expire
  have inTime : w.now ≤ W.last := Nat.le_refl _
  have current : (W.clock w.now).toInt < W.ends := by
    rw [← ledger.clock]
    exact Int.not_le.mp fun late => (Codec.decode_eq_ok_iff.mp decodes).2.2 (Int64.le_iff_toInt_le.mpr late)
  have found : (w.cache.live? w.now key).isSome = s.isMarked c.tokenId log := by
    have shows := ledger.shows
    cases marked : s.isMarked c.tokenId log with
    | true =>
        rw [marked] at shows
        exact (Cache.Memory.live?_isSome_iff ledger.valid).mpr (shows w.now (Nat.le_refl _) inTime current)
    | false =>
        rw [marked] at shows
        refine Bool.eq_false_iff.mpr fun there => ?_
        exact shows w.now (Nat.le_refl _) ((Cache.Memory.live?_isSome_iff ledger.valid).mp there)
  have replies : ((Call.verify request token c.kind).action s).Yields w fun r _ =>
      r = .ok (.verdict (s.verdictOn w token c.kind)) := by
    refine yields_reply ((yields_verifyWith unthrottled ledger.closed).mono ?_)
    rintro r w' ⟨rfl, _⟩
    rfl
  obtain ⟨r, w', rfl, runs⟩ := Action.run_of_yields replies
  refine ⟨w', ?_⟩
  rw [runs, verdictOn_eq decodes rfl keyed, found]
  rfl

/-- Revocation is exact. After calls of a service without a throttle, over a new cache in memory, of which each
has replied, and with a clock that reads the seconds of the timer moved by a constant, a token that one of them
has given out and that is current is refused as revoked if the last call that recorded or removed the entry of
its identifier recorded one, and is accepted otherwise. The draws that were made differ. Among the tokens that
calls have presented only those that the service has not given out are asked about: such a token with this
identifier, if there is one, expires with this one. -/
theorem verify_session {c : Credential} {offset : Int} {sweepEvery : Nat}
    (request : Option RequestContext) (visits : s.Visits w₀ log w) (replied : ∀ v ∈ log, v.reply.isSome)
    (unthrottled : s.throttle = none) (new : w₀.cache = .empty sweepEvery)
    (closed : w₀.breaker.state = .initial) (steady : Steady w₀.clock offset w₀.now w.now)
    (distinct : Distinct w₀.random w₀.draws w.draws) (issued : token ∈ log.flatMap Visit.tokens)
    (others : ∀ v ∈ log, ∀ text, v.call.token? = some text → text ∉ log.flatMap Visit.tokens →
      s.ExpiresWith c text)
    (decodes : s.codec.decode s.keys token (w.clock w.now) = .ok c) :
    ∃ w', ((Call.verify request token c.kind).action s).run Cache.Memory.backend w =
      (.value (.verdict (if s.isMarked c.tokenId log then .rejected .tokenRevoked .revocationChecked
        else .accepted c)), w') := by
  obtain ⟨minted, given, makes⟩ := visits.makes replied
  rw [← given] at issued others
  have holds := (Codec.decode_eq_ok_iff.mp decodes).1
  obtain ⟨key, keyed⟩ := key_of_makes makes issued holds
  refine run_verify_of_visits request visits replied unthrottled new closed steady keyed ?_ decodes
  intro v mem text presents c' decodes' same
  by_cases here : text ∈ minted.map MadeToken.token
  · cases eq_of_makes makes distinct issued holds here decodes' same
    cases holds.symm.trans decodes'
    rfl
  · exact others v mem text presents here c' decodes' same

theorem Call.run_revoke {reason : Revocation.Reason} {outcome : Except AuthError Unit}
    (runs : (s.revoke token reason).run Cache.Memory.backend w = (.value outcome, w')) :
    ((Call.revoke token reason).action s).run Cache.Memory.backend w = (.value (.revoked outcome), w') := by
  rw [Call.action, TokenAuthority.Action.run_bind, runs]
  rfl

end TokenService

/-! ### A session -/

namespace Sample

open TokenService TokenAuthority.Action

def issuing : Call := .issueRefresh someone

theorem issuing_ends : (issuing.action service).run Cache.Memory.backend dealt =
    (.value (.issued (.ok firstIssued)), begun) :=
  run_of_answers Cache.Memory.backend (answers_bind answers_firstToken)

def revoking : Call := .revoke firstToken .logout

/-- The token is revoked at once. -/
theorem firstToken_revoked : ∃ w, (service.revoke firstToken .logout).run Cache.Memory.backend begun =
    (.value (.ok ()), w) ∧ w.now = .start ∧ w.clock (w.now.after (Span.ofSecs 10)) = 10 ∧ w.draws = 2 := by
  rw [revoke_eq firstToken_decodes]
  let ran := (service.revokeAs firstCredential .logout).run Cache.Memory.backend begun
  have ends : ran.1.value?.bind Except.toOption = some () ∧ ran.2.now = .start ∧
      ran.2.clock (ran.2.now.after (Span.ofSecs 10)) = 10 ∧ ran.2.draws = 2 := by
    decide +kernel
  change ∃ w, ran = (.value (.ok ()), w) ∧ _
  -- Only how the run ended matters from here on.
  clear_value ran
  obtain ⟨given, left⟩ := ends
  exact ⟨ran.2, Prod.ext (Ending.eq_of_toOption given) rfl, left⟩

theorem revoking_ends : ∃ w, (revoking.action service).run Cache.Memory.backend begun =
    (.value (.revoked (.ok ())), w) ∧ w.now = .start ∧ w.clock (w.now.after (Span.ofSecs 10)) = 10 ∧
      w.draws = 2 := by
  obtain ⟨w, runs, left⟩ := firstToken_revoked
  exact ⟨w, Call.run_revoke runs, left⟩

/-! The calls as they are logged. -/

def issued : Visit := ⟨dealt.now, issuing, some (.issued (.ok firstIssued))⟩

def revoked : Visit := ⟨begun.now, revoking, some (.revoked (.ok ()))⟩

theorem visits_issued : service.Visits dealt [issued] begun := Visits.start.call issuing_ends

/-- Ten seconds after the token was revoked. -/
theorem exists_visits_revoked : ∃ w, service.Visits dealt [revoked, issued] w ∧ w.now.secs = 10 ∧
    w.clock w.now = 10 ∧ w.draws = 2 := by
  obtain ⟨w, runs, now, clock, draws⟩ := revoking_ends
  refine ⟨w.advance (Span.ofSecs 10), (visits_issued.call runs).pause _, ?_, clock, draws⟩
  change (w.now.after (Span.ofSecs 10)).secs = 10
  rw [now]
  decide

theorem given_of_issued {log : List Visit} (mem : issued ∈ log) : firstToken ∈ log.flatMap Visit.tokens :=
  List.mem_flatMap.mpr ⟨issued, mem, by simp [issued, Visit.tokens, Reply.tokens, firstIssued]⟩

/-- Neither call presents another token. -/
theorem presented_eq {v : Visit} {text : String} (mem : v ∈ [revoked, issued])
    (presents : v.call.token? = some text) : text = firstToken := by
  rcases List.mem_cons.mp mem with rfl | mem
  · exact (Option.some.inj presents).symm
  · cases List.mem_singleton.mp mem
    cases presents

theorem marked_revoked : service.isMarked firstCredential.tokenId [revoked, issued] = true := by
  have identified : service.identifies firstCredential.tokenId firstToken = true :=
    (identifies_iff firstToken_decodes).mpr rfl
  rw [revoked, isMarked_cons, revoking, Call.mark?, if_pos identified]
  rfl

theorem firstToken_current {now : Int64} (early : ¬ Seconds.plus now Codec.futureSkew < firstCredential.issuedAt)
    (late : ¬ Seconds.plus firstCredential.expiresAt 0 ≤ now) :
    service.codec.decode service.keys firstToken now = .ok firstCredential :=
  Codec.decode_eq_ok_iff.mpr ⟨firstToken_decodes, early, late⟩

/-- The token is accepted once it is issued, and refused ten seconds after it was revoked. -/
theorem session_verdicts :
    (∃ log w w', service.Visits dealt log w ∧ firstToken ∈ log.flatMap Visit.tokens ∧
      ((Call.verify none firstToken .refresh).action service).run Cache.Memory.backend w =
        (.value (.verdict (.accepted firstCredential)), w')) ∧
    ∃ log w w', service.Visits dealt log w ∧ firstToken ∈ log.flatMap Visit.tokens ∧
      ((Call.verify none firstToken .refresh).action service).run Cache.Memory.backend w =
        (.value (.verdict (.rejected .tokenRevoked .revocationChecked)), w') := by
  constructor
  · have given : firstToken ∈ [issued].flatMap Visit.tokens := given_of_issued List.mem_cons_self
    obtain ⟨w', verifies⟩ := verify_session none visits_issued (by simp [issued]) rfl rfl rfl
      (steady _ (by decide)) (distinct_dealt (by decide)) given
      (fun v mem text presents foreign => absurd
        (presented_eq (List.mem_cons_of_mem _ mem) presents ▸ given) foreign)
      (firstToken_current (by decide) (by decide))
    exact ⟨_, _, w', visits_issued, given, verifies⟩
  · obtain ⟨w, visits, late, clock, draws⟩ := exists_visits_revoked
    have given : firstToken ∈ [revoked, issued].flatMap Visit.tokens := given_of_issued (by simp)
    have verifies := verify_session none visits (by simp [revoked, issued]) rfl rfl rfl
      (steady _ (by rw [late]; decide)) (distinct_dealt (Nat.le_trans (Nat.le_of_eq draws) (by decide))) given
      (fun v mem text presents foreign => absurd (presented_eq mem presents ▸ given) foreign)
      (firstToken_current (by rw [clock]; decide) (by rw [clock]; decide))
    rw [marked_revoked] at verifies
    obtain ⟨w', verifies⟩ := verifies
    exact ⟨_, _, w', visits, given, verifies⟩

end Sample

end TokenAuthority
