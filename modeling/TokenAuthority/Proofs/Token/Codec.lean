import TokenAuthority.Proofs.Text.Base64
import TokenAuthority.Token.Codec

/-!
# What a decoded token is

Decoding looks at the clock last: it gives the credential that the token holds anyway, if that is
current.

* `Codec.decode_eq_ok_iff` — a token decodes at a time exactly if its credential is current then.
* `Codec.early_iff`, `Codec.late_iff` — the two comparisons with the time, in whole numbers.
* `Codec.decodeIgnoringExpiry_eq_ok` — what is known of every credential that was decoded.
* `Codec.parse_text`, `Codec.object_ofJson` — what is read back of the written form of a token.
-/

namespace TokenAuthority.Codec

variable {codec : Codec} {keys : KeyMaterial} {token : String} {now : Int64} {c : Credential}

/-- A credential is current at a time if it was not issued too far ahead and has not expired. -/
theorem current_eq_ok_iff {c' : Credential} : codec.current now c = .ok c' ↔
    c' = c ∧ ¬ Seconds.plus now futureSkew < c.issuedAt ∧
      ¬ Seconds.plus c.expiresAt codec.leeway ≤ now := by
  unfold current
  constructor
  · intro holds
    split at holds
    · cases holds
    · split at holds
      · cases holds
      · cases holds
        exact ⟨rfl, ‹_›, ‹_›⟩
  · rintro ⟨rfl, early, late⟩
    rw [if_neg early, if_neg late]

/-- A token decodes at a time exactly if its credential is current then. -/
theorem decode_eq_ok_iff : codec.decode keys token now = .ok c ↔
    codec.decodeIgnoringExpiry keys token = .ok c ∧
      ¬ Seconds.plus now futureSkew < c.issuedAt ∧ ¬ Seconds.plus c.expiresAt codec.leeway ≤ now := by
  unfold decode
  constructor
  · intro holds
    cases decoded : codec.decodeIgnoringExpiry keys token with
    | error e =>
        rw [decoded] at holds
        cases holds
    | ok c' =>
        rw [decoded] at holds
        obtain ⟨rfl, times⟩ := current_eq_ok_iff.mp holds
        exact ⟨rfl, times⟩
  · rintro ⟨decoded, times⟩
    rw [decoded]
    exact current_eq_ok_iff.mpr ⟨rfl, times⟩

/-- No time of issue lies beyond the end at which the sum stays. -/
theorem early_iff : Seconds.plus now futureSkew < c.issuedAt ↔ now.toInt < c.issuedAt.toInt - 300 := by
  have issued := c.issuedAt.toInt_lt
  have least := now.le_toInt
  have skew : futureSkew.toInt = 300 := by decide
  rw [Int64.lt_iff_toInt_lt, Seconds.plus, Seconds.toInt_nearest_eq, skew]
  omega

/-- The end at which the sum stays is a time, and the only one at which that shows. -/
theorem late_iff (notNegative : 0 ≤ codec.leeway.toInt) : Seconds.plus c.expiresAt codec.leeway ≤ now ↔
    c.expiresAt.toInt + codec.leeway.toInt ≤ now.toInt ∨ now.toInt = 2 ^ 63 - 1 := by
  have expires := c.expiresAt.le_toInt
  have greatest := now.toInt_lt
  rw [Int64.le_iff_toInt_le, Seconds.plus, Seconds.toInt_nearest_eq]
  omega

/-- What is checked of a payload beside its times. -/
theorem accepted_eq_ok {payload : Json} (holds : codec.accepted payload = .ok c) :
    ¬ c.expiresAt < 0 ∧ c.flaw? = none := by
  unfold accepted at holds
  cases found : Claims.ofJson? payload with
  | none =>
      rw [found] at holds
      cases holds
  | some claims =>
      simp only [found] at holds
      by_cases readable : (!Claims.hasReadableStart payload) = true
      · rw [if_pos readable] at holds
        cases holds
      rw [if_neg readable] at holds
      by_cases negative : claims.credential.expiresAt < 0
      · rw [if_pos negative] at holds
        cases holds
      rw [if_neg negative] at holds
      by_cases issuer : claims.issuer ≠ codec.issuer
      · rw [if_pos issuer] at holds
        cases holds
      rw [if_neg issuer] at holds
      by_cases audience : claims.audience ≠ codec.audience
      · rw [if_pos audience] at holds
        cases holds
      rw [if_neg audience] at holds
      cases flaw : claims.credential.flaw? with
      | some flaw' =>
          rw [flaw] at holds
          cases holds
      | none =>
          rw [flaw] at holds
          cases holds
          exact ⟨negative, flaw⟩

/-- A credential that was decoded has a flawless content and an expiry that is not negative. -/
theorem decodeIgnoringExpiry_eq_ok (decoded : codec.decodeIgnoringExpiry keys token = .ok c) :
    ¬ c.expiresAt < 0 ∧ c.flaw? = none := by
  unfold decodeIgnoringExpiry at decoded
  cases payload : verified keys token with
  | error e =>
      rw [payload] at decoded
      cases decoded
  | ok json =>
      rw [payload] at decoded
      exact accepted_eq_ok decoded

/-- A credential that is not encoded has a flaw, or the keys do not sign. -/
theorem encode_eq_error {e : CryptoError} (failed : codec.encode keys c = .error e) :
    (∃ flaw, c.flaw? = some flaw ∧ e = .invalidCredential flaw.message) ∨
      ∃ message, keys.sign message = .error e := by
  unfold encode at failed
  split at failed
  · rename_i flaw found
    cases failed
    exact .inl ⟨flaw, found, rfl⟩
  · simp only at failed
    split at failed
    · cases failed
    · rename_i unsigned
      cases failed
      exact .inr ⟨_, unsigned⟩

/-! ### Tokens that were written -/

theorem point_not_mem_encode (octets : List UInt8) :
    '.' ∉ Base64.encode Base64.urlSafe octets := fun mem => by
  have none : '.' ∉ Base64.urlSafe.digits := by decide +kernel
  exact none (Base64.readable_urlSafe.mem_encode mem)

/-- The segments of a token are read back from its text. -/
theorem parse_text {segments : Segments} (header : '.' ∉ segments.header)
    (payload : '.' ∉ segments.payload) (signature : '.' ∉ segments.signature) :
    Segments.parse segments.text = .ok segments := by
  unfold Segments.parse Segments.text
  rw [String.toList_ofList, Split.on_append _ header, Split.on_append _ payload,
    Split.on_of_not_mem signature]

theorem object_ofJson {name : String} {json read : Json} (parses : Json.parse? json.render = some read)
    (isObject : read.isObject = true) :
    Segments.object name (Segments.ofJson json) = .ok read := by
  unfold Segments.object Segments.ofJson
  rw [Base64.readable_urlSafe.decode?_encode]
  simp only [Json.ofOctets?, Utf8.decode?_encode, Option.bind_some, parses, if_pos isObject]

/-- The written signature of some octets can be a signature. -/
theorem isSignature_encode {octets : List UInt8} (some : octets ≠ []) :
    Segments.isSignature (Base64.encode Base64.urlSafe octets) = true := by
  unfold Segments.isSignature
  rw [Base64.readable_urlSafe.decode?_encode]
  match octets with
  | [a] => rfl
  | [a, b] => rfl
  | a :: b :: c :: rest => rfl

end TokenAuthority.Codec
