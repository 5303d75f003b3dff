import TokenAuthority.Proofs.Token.Encoding

/-!
# When a token is accepted

The sums that decoding compares with the time stay within its range. The comparisons come out as those of whole
numbers, but for the last second of the range, at which every credential has expired.

* `Codec.current_eq` — what is said of a credential at a time, in whole numbers.
* `Codec.Lasts` — what is said at each time of a token, from the credential that it holds.
* `Codec.decode_over_time` — a token is accepted for one interval of time, which a larger leeway extends.
-/

namespace TokenAuthority

namespace Codec

variable {codec : Codec} {keys : KeyMaterial} {token : String} {c : Credential} {now : Int64}

/-! ### One time -/

theorem current_eq (notNegative : 0 ≤ codec.leeway.toInt) : codec.current now c =
    if now.toInt < c.issuedAt.toInt - 300 then
      .error (.invalidClaims ("issued-at " ++ toString c.issuedAt.toInt ++ " is in the future"))
    else if c.expiresAt.toInt + codec.leeway.toInt ≤ now.toInt ∨ now.toInt = 2 ^ 63 - 1 then .error .expired
    else .ok c := by
  simp only [current, early_iff, late_iff notNegative]

theorem decode_of_ok (decoded : codec.decodeIgnoringExpiry keys token = .ok c) :
    codec.decode keys token now = codec.current now c := by
  unfold decode
  rw [decoded]
  rfl

theorem decode_of_error {e : DecodeError} (failed : codec.decodeIgnoringExpiry keys token = .error e) :
    codec.decode keys token now = .error e := by
  unfold decode
  rw [failed]
  rfl

/-- A token is accepted at a time exactly if that is not too early, not too late and not the last one. -/
theorem decode_eq_ok_iff_within (notNegative : 0 ≤ codec.leeway.toInt) :
    codec.decode keys token now = .ok c ↔ codec.decodeIgnoringExpiry keys token = .ok c ∧
      c.issuedAt.toInt - 300 ≤ now.toInt ∧ now.toInt < c.expiresAt.toInt + codec.leeway.toInt ∧
      now.toInt < 2 ^ 63 - 1 := by
  have greatest := now.toInt_lt
  rw [decode_eq_ok_iff, early_iff, late_iff notNegative]
  refine and_congr_right fun _ => ?_
  omega

/-! ### All times -/

/-- What is said at each time of a token that holds a credential. It is never too early and too late at once. -/
structure Lasts (codec : Codec) (keys : KeyMaterial) (token : String) (c : Credential) : Prop where
  early : ∀ t : Int64, t.toInt < c.issuedAt.toInt - 300 → codec.decode keys token t =
    .error (.invalidClaims ("issued-at " ++ toString c.issuedAt.toInt ++ " is in the future"))
  late : ∀ t : Int64, c.expiresAt.toInt + codec.leeway.toInt ≤ t.toInt →
    codec.decode keys token t = .error .expired
  within : ∀ t : Int64, c.issuedAt.toInt - 300 ≤ t.toInt → t.toInt < c.expiresAt.toInt + codec.leeway.toInt →
    t.toInt < 2 ^ 63 - 1 → codec.decode keys token t = .ok c
  apart : ∀ t : Int, ¬ (t < c.issuedAt.toInt - 300 ∧ c.expiresAt.toInt + codec.leeway.toInt ≤ t)

theorem lasts_of_decoded (notNegative : 0 ≤ codec.leeway.toInt)
    (decoded : codec.decodeIgnoringExpiry keys token = .ok c) : codec.Lasts keys token c := by
  -- A credential without a flaw expires after it was issued, so the earlier end comes first.
  have later := (Credential.flaw?_eq_none_iff.mp (decodeIgnoringExpiry_eq_ok decoded).2).2.2
  refine { early := ?_, late := ?_, within := ?_, apart := fun t both => by omega }
  · intro t early
    rw [decode_of_ok decoded, current_eq notNegative, if_pos early]
  · intro t late
    rw [decode_of_ok decoded, current_eq notNegative, if_neg (by omega), if_pos (.inl late)]
  · intro t early late last
    exact (decode_eq_ok_iff_within notNegative).mpr ⟨decoded, early, late, last⟩

/-- What has expired stays so. -/
theorem decode_eq_expired_mono (notNegative : 0 ≤ codec.leeway.toInt) {t t' : Int64}
    (expired : codec.decode keys token t = .error .expired) (le : t.toInt ≤ t'.toInt) :
    codec.decode keys token t' = .error .expired := by
  have greatest := t'.toInt_lt
  cases decoded : codec.decodeIgnoringExpiry keys token with
  | error e =>
      rw [decode_of_error decoded] at expired ⊢
      exact expired
  | ok c =>
      rw [decode_of_ok decoded, current_eq notNegative] at expired ⊢
      split at expired
      · cases expired
      · split at expired
        · rw [if_neg (by omega), if_pos (by omega)]
        · cases expired

/-- A token that cannot be decoded at all is reported alike at each time. Any other one is accepted with its
credential from three hundred seconds before it was issued until the leeway after its expiry is over, as whole
numbers go, except at the last second of the range. So the times at which it is accepted are an interval, once
it has expired it has expired for ever, and a larger leeway only adds times. -/
theorem decode_over_time (codec : Codec) (keys : KeyMaterial) (token : String)
    (notNegative : 0 ≤ codec.leeway.toInt) :
    (∀ e, codec.decodeIgnoringExpiry keys token = .error e → ∀ t, codec.decode keys token t = .error e) ∧
    (∀ c, codec.decodeIgnoringExpiry keys token = .ok c → codec.Lasts keys token c) ∧
    (∀ (t₁ t t₂ : Int64) (c₁ c₂ : Credential), codec.decode keys token t₁ = .ok c₁ →
      codec.decode keys token t₂ = .ok c₂ → t₁.toInt ≤ t.toInt → t.toInt ≤ t₂.toInt →
      codec.decode keys token t = .ok c₁) ∧
    (∀ t t' : Int64, codec.decode keys token t = .error .expired → t.toInt ≤ t'.toInt →
      codec.decode keys token t' = .error .expired) ∧
    ∀ (longer t : Int64) (c : Credential), codec.leeway.toInt ≤ longer.toInt →
      codec.decode keys token t = .ok c → { codec with leeway := longer }.decode keys token t = .ok c := by
  refine ⟨?_, ?_, ?_, ?_, ?_⟩
  · exact fun e failed t => decode_of_error failed
  · exact fun c decoded => lasts_of_decoded notNegative decoded
  · intro t₁ t t₂ c₁ c₂ first last after before
    obtain ⟨decoded, early, _⟩ := (decode_eq_ok_iff_within notNegative).mp first
    obtain ⟨again, _, late, inRange⟩ := (decode_eq_ok_iff_within notNegative).mp last
    cases decoded.symm.trans again
    exact (decode_eq_ok_iff_within notNegative).mpr ⟨decoded, by omega, by omega, by omega⟩
  · exact fun t t' expired le => decode_eq_expired_mono notNegative expired le
  · intro longer t c le accepted
    obtain ⟨decoded, early, late, before⟩ := (decode_eq_ok_iff_within notNegative).mp accepted
    have notNegative' : 0 ≤ ({ codec with leeway := longer } : Codec).leeway.toInt := by
      change 0 ≤ longer.toInt
      omega
    refine (decode_eq_ok_iff_within notNegative').mpr ⟨decoded, early, ?_, before⟩
    change t.toInt < c.expiresAt.toInt + longer.toInt
    omega

end Codec

namespace Sample

/-- A token without leeway, at the times around the ends of its interval, and with some leeway after it. -/
theorem decode_around : 0 ≤ ({} : Codec).leeway.toInt ∧
    ({} : Codec).decodeIgnoringExpiry keys token = .ok credential ∧
    ({} : Codec).decode keys token (-301) = .error (.invalidClaims "issued-at 0 is in the future") ∧
    ({} : Codec).decode keys token (-300) = .ok credential ∧
    ({} : Codec).decode keys token 99 = .ok credential ∧
    ({} : Codec).decode keys token 0 = .ok credential ∧
    ({} : Codec).decode keys token 100 = .error .expired ∧
    ({} : Codec).decode keys token 9223372036854775807 = .error .expired ∧
    ({ leeway := 5 } : Codec).decode keys token 99 = .ok credential := by
  obtain ⟨_, lasts, interval, expires, longer⟩ := Codec.decode_over_time {} keys token (by decide)
  obtain ⟨early, late, within, _⟩ := lasts credential decodes
  have first := within (-300) (by decide) (by decide) (by decide)
  have last := within 99 (by decide) (by decide) (by decide)
  have expired := late 100 (by decide)
  exact ⟨by decide, decodes, early (-301) (by decide), first, last,
    interval (-300) 0 99 _ _ first last (by decide) (by decide), expired,
    expires 100 9223372036854775807 expired (by decide), longer 5 99 _ (by decide) last⟩

end Sample

end TokenAuthority
