import TokenAuthority.Proofs.Service.Refresh

/-!
# How long an entry is kept

The entry that revokes a token is kept until the token has expired for good, leeway included, however
the sums come to the ends of a signed word.

* `TokenService.lastSecond` — the second from which on a credential is never current.
* `TokenService.entry_reaches` — an entry is kept until then.
* `TokenService.entry_outlasts` — the same on the timer, for an entry that is stored some time after the
  clock was read.
-/

namespace TokenAuthority

namespace Seconds

/-- A whole number is kept in a word if it fits. -/
theorem ofInt?_eq_some {n : Int} {x : Int64} (fits : ofInt? n = some x) : x.toInt = n := by
  unfold ofInt? at fits
  split at fits
  · rename_i same
    cases fits
    exact same
  · cases fits

end Seconds

/-- The whole seconds of an instant. -/
def Instant.secs (t : Instant) : Nat := t.nanoseconds / Span.nanosPerSecond

theorem Instant.secs_mono {t u : Instant} (le : t ≤ u) : t.secs ≤ u.secs :=
  Nat.div_le_div_right le

/-- From one instant to another a clock reads the whole seconds of the timer moved by a constant, and
the timer stays below the last second that it can count. -/
structure Steady (clock : Instant → Int64) (offset : Int) (first last : Instant) : Prop where
  reads : ∀ t, first ≤ t → t ≤ last → (clock t).toInt = t.secs + offset
  inRange : last.secs < 2 ^ 63 - 1

namespace TokenService

/-- The second from which on a credential is never current. -/
def lastSecond (s : TokenService) (c : Credential) : Int :=
  (Seconds.plus c.expiresAt s.codec.leeway).toInt

/-- For how many seconds an entry is kept. -/
theorem lifetimeSecs_entryFor (c : Credential) (now : Int64) (ttl : Span)
    (reason : Revocation.Reason) :
    ((entryFor c now ttl reason).ttl.lifetimeSecs : Int) =
      max (max (-2 ^ 63) (min ((max (-2 ^ 63) (min (now.toInt +
        max (-2 ^ 63) (min (ttl.lifetimeSecs : Int) (2 ^ 63 - 1))) (2 ^ 63 - 1))) - now.toInt)
        (2 ^ 63 - 1))) 1 := by
  simp only [entryFor, Revocation.Entry.withUser, Revocation.Entry.forSpan, Revocation.Entry.ttl,
    Seconds.minus, Seconds.plus, Seconds.toInt_nearest_eq]
  rw [Span.lifetimeSecs_ofSecs]
  omega

/-- An entry is kept until its credential is never current again, or longer than any timer runs. -/
theorem entry_reaches {s : TokenService} {c : Credential} {now : Int64} {ttl : Span}
    (reason : Revocation.Reason) (found : s.revocationTtl? c now = some ttl)
    (nonneg : ¬ c.expiresAt < 0) :
    s.lastSecond c ≤ now.toInt + (entryFor c now ttl reason).ttl.lifetimeSecs ∨
      2 ^ 63 - 1 ≤ (entryFor c now ttl reason).ttl.lifetimeSecs := by
  obtain ⟨remaining, left, rfl⟩ := Option.map_eq_some_iff.mp found
  have fits := Seconds.ofInt?_eq_some left
  have nowLow := now.le_toInt
  have nowHigh := now.toInt_lt
  have leewayLow := s.codec.leeway.le_toInt
  have leewayHigh := s.codec.leeway.toInt_lt
  have expiry : 0 ≤ c.expiresAt.toInt := by
    simpa [Int64.lt_iff_toInt_lt] using nonneg
  have seconds : (Seconds.plus remaining s.codec.leeway).toInt =
      max (-2 ^ 63) (min (remaining.toInt + s.codec.leeway.toInt) (2 ^ 63 - 1)) :=
    Seconds.toInt_nearest_eq _
  have last : s.lastSecond c =
      max (-2 ^ 63) (min (c.expiresAt.toInt + s.codec.leeway.toInt) (2 ^ 63 - 1)) :=
    Seconds.toInt_nearest_eq _
  have kept := lifetimeSecs_entryFor c now
  by_cases positive : 0 < (Seconds.plus remaining s.codec.leeway).toInt
  · simp only [if_pos positive]
    have kept := kept (Span.ofSecs (Seconds.plus remaining s.codec.leeway).toInt.toNat) reason
    rw [Span.lifetimeSecs_ofSecs (Int.toNat _)] at kept
    omega
  · left
    have kept := kept s.policy.revocationMinTtl reason
    simp only [if_neg positive]
    omega

/-- An entry that is stored some time after the clock was read lasts beyond every instant at which the
clock still reads less than the last second. -/
theorem entry_outlasts {s : TokenService} {c : Credential} {now : Int64} {ttl : Span} {offset : Int}
    {read stored t : Instant} (reason : Revocation.Reason)
    (found : s.revocationTtl? c now = some ttl) (nonneg : ¬ c.expiresAt < 0)
    (told : now.toInt = read.secs + offset) (later : read ≤ stored)
    (current : t.secs + offset < s.lastSecond c) (inRange : t.secs < 2 ^ 63 - 1) :
    t < stored.after (Span.ofSecs (entryFor c now ttl reason).ttl.lifetimeSecs) := by
  have reaches := entry_reaches reason found nonneg
  generalize (entryFor c now ttl reason).ttl.lifetimeSecs = life at reaches ⊢
  have short : t.secs < read.secs + life := by omega
  have started : Span.nanosPerSecond * read.secs ≤ stored.nanoseconds :=
    Nat.le_trans (Nat.mul_div_le _ _) later
  have lasts : t.nanoseconds < Span.nanosPerSecond * (read.secs + life) := by
    rw [Nat.mul_comm]
    exact (Nat.div_lt_iff_lt_mul (by decide)).mp short
  change t.nanoseconds < stored.nanoseconds + Span.nanosPerSecond * life
  rw [Nat.mul_add] at lasts
  exact Nat.lt_of_lt_of_le lasts (Nat.add_le_add_right started _)

end TokenService

end TokenAuthority
