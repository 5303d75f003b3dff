import TokenAuthority.Proofs.Token.Codec
import TokenAuthority.Proofs.Token.Written

/-!
# What is encoded is decoded

Keys that match one another (`KeyMaterial.Matches`) sign every message and verify what they sign; a
shared secret does so by itself.

* `Codec.encode_eq_ok` — the segments of a token that was made.
* `Codec.verified_signed` — the payload of a token is given out if its signature holds.
* `Codec.decode_encode` — a token is made for every credential without a flaw. It decodes to that
  credential, and does so at a time exactly if the credential is current then.
-/

namespace TokenAuthority

/-! ### Keys that match -/

namespace KeyMaterial

variable {keys : KeyMaterial} {message : List UInt8} {signature : List Char}

/-- One key verifies what the other signs, whatever the message. -/
def Matches (keys : KeyMaterial) : Prop :=
  match keys.scheme with
  | .shared _ => True
  | .rsa verifying signing => ∃ key priv, verifying = some key ∧ signing = some priv ∧
      ∀ message, ∃ octets, priv.sign? message = some octets ∧ key.verifies message octets = true

/-- What the keys sign they verify. -/
def Agrees (keys : KeyMaterial) : Prop :=
  ∀ message signature, keys.sign message = .ok signature → keys.verifies message signature = true

theorem verifies_shared {secret : List UInt8} (shared : keys.scheme = .shared secret) :
    keys.verifies message signature = true ↔
      signature = Base64.encode Base64.urlSafe (Digest.Hmac.code secret message) := by
  unfold verifies
  rw [shared]
  exact beq_iff_eq

/-- What verifies can be a signature. -/
theorem isSignature_of_verifies (verifies : keys.verifies message signature = true) :
    Segments.isSignature signature = true := by
  unfold KeyMaterial.verifies at verifies
  split at verifies
  · rename_i secret _
    rw [eq_of_beq verifies]
    refine Codec.isSignature_encode (List.ne_nil_of_length_pos ?_)
    rw [Digest.Hmac.code, Digest.Sha256.length_hash]
    decide
  · split at verifies
    · rename_i octets key decoded _
      unfold Segments.isSignature
      rw [decoded]
      cases signature with
      | cons => rfl
      | nil =>
          -- no octets at all are no digest that was filled up
          cases decoded
          simp only [Rsa.PublicKey.verifies, Bool.and_eq_true, beq_iff_eq] at verifies
          obtain ⟨⟨length, _⟩, padded⟩ := verifies
          rw [← length] at padded
          simp [Rsa.octetsOf, Rsa.paddedDigest] at padded
    · cases verifies

/-- Keys that match sign every message, and what they sign verifies. -/
theorem Matches.sign (matching : keys.Matches) (message : List UInt8) :
    ∃ signature, keys.sign message = .ok signature ∧ keys.verifies message signature = true := by
  unfold Matches at matching
  unfold KeyMaterial.sign KeyMaterial.verifies
  split at matching
  · rename_i secret scheme
    rw [scheme]
    exact ⟨_, rfl, beq_self_eq_true _⟩
  · rename_i verifying signing scheme
    rw [scheme]
    obtain ⟨key, priv, rfl, rfl, signs⟩ := matching
    obtain ⟨octets, signed, verifies⟩ := signs message
    refine ⟨Base64.encode Base64.urlSafe octets, ?_, ?_⟩
    · simp only [signed]
    · simp only [Base64.readable_urlSafe.decode?_encode, verifies]

theorem Matches.agrees (matching : keys.Matches) : keys.Agrees := by
  intro message signature signs
  obtain ⟨signature', signs', verifies⟩ := matching.sign message
  cases signs.symm.trans signs'
  exact verifies

/-- A shared secret agrees with itself, and so do a key that signs and the public key that belongs to it. -/
theorem agrees_of_own (own : ∀ verifying signing, keys.scheme = .rsa verifying (some signing) →
    verifying = some signing.publicKey) : keys.Agrees := by
  intro message signature signs
  unfold sign at signs
  unfold KeyMaterial.verifies
  split at signs
  · rename_i secret scheme
    cases signs
    rw [scheme]
    exact beq_self_eq_true _
  · cases signs
  · rename_i verifying signing scheme
    cases own verifying signing scheme
    split at signs
    · rename_i octets signed
      cases signs
      -- a signature that the key itself does not verify is not given out
      unfold Rsa.PrivateKey.sign? at signed
      obtain ⟨verifies, ⟨⟩⟩ := Option.ite_none_right_eq_some.mp signed
      simp only [scheme, Base64.readable_urlSafe.decode?_encode, verifies]
    · cases signs

/-- A signature that was made has no points in it. -/
theorem point_not_mem_sign (signed : keys.sign message = .ok signature) : '.' ∉ signature := by
  unfold sign at signed
  split at signed
  · cases signed
    exact Codec.point_not_mem_encode _
  · cases signed
  · split at signed
    · cases signed
      exact Codec.point_not_mem_encode _
    · cases signed

end KeyMaterial

/-- A credential has no flaw if it is for someone, can be revoked, and holds for a while. -/
theorem Credential.flaw?_eq_none_iff {c : Credential} : c.flaw? = none ↔
    c.userId ≠ "" ∧ c.tokenId ≠ "" ∧ c.issuedAt.toInt < c.expiresAt.toInt := by
  unfold flaw?
  simp only [String.isEmpty_iff]
  constructor
  · intro none
    split at none
    · cases none
    split at none
    · cases none
    split at none
    · cases none
    · exact ⟨‹_›, ‹_›, Int.not_le.mp ‹_›⟩
  · rintro ⟨user, id, later⟩
    rw [if_neg user, if_neg id, if_neg (Int.not_le.mpr later)]

/-! ### Tokens that were made -/

namespace Codec

variable {codec : Codec} {keys : KeyMaterial} {c : Credential} {token : String}

/-- The segments of a token that holds a credential, but for its signature. -/
def unsigned (codec : Codec) (keys : KeyMaterial) (c : Credential) : Segments where
  header := Segments.ofJson (Header.forKey keys.algorithm.name keys.keyId).toJson
  payload := Segments.ofJson (Claims.mk c codec.issuer codec.audience).toJson
  signature := []

/-- The token of a credential that was signed. -/
def signed (codec : Codec) (keys : KeyMaterial) (c : Credential) (signature : List Char) : Segments :=
  { codec.unsigned keys c with signature }

@[simp]
theorem signed_header (signature : List Char) :
    (codec.signed keys c signature).header = (codec.unsigned keys c).header := by
  simp only [signed]

@[simp]
theorem signed_payload (signature : List Char) :
    (codec.signed keys c signature).payload = (codec.unsigned keys c).payload := by
  simp only [signed]

@[simp]
theorem signed_signature (signature : List Char) :
    (codec.signed keys c signature).signature = signature := by
  simp only [signed]

/-- A signature is not over itself. -/
@[simp]
theorem signedOctets_signed (signature : List Char) :
    (codec.signed keys c signature).signedOctets = (codec.unsigned keys c).signedOctets := by
  simp only [Segments.signedOctets, signed_header, signed_payload]

theorem encode_of_flawless (flawless : c.flaw? = none) : codec.encode keys c =
    (keys.sign (codec.unsigned keys c).signedOctets).map fun signature =>
      (codec.signed keys c signature).text := by
  unfold encode signed unsigned
  rw [flawless]
  dsimp only
  generalize keys.sign _ = result
  cases result <;> rfl

/-- A token that was made holds a credential without a flaw, and is signed. -/
theorem encode_eq_ok (made : codec.encode keys c = .ok token) : c.flaw? = none ∧
    ∃ signature, keys.sign (codec.unsigned keys c).signedOctets = .ok signature ∧
      token = (codec.signed keys c signature).text := by
  cases flaw : c.flaw? with
  | some flaw' =>
      unfold encode at made
      rw [flaw] at made
      cases made
  | none =>
      rw [encode_of_flawless flaw] at made
      cases signs : keys.sign (codec.unsigned keys c).signedOctets with
      | error e =>
          rw [signs] at made
          cases made
      | ok signature =>
          rw [signs] at made
          exact ⟨rfl, signature, rfl, (Except.ok.inj made).symm⟩

/-- The segments of a token that was made are read back. -/
theorem parse_signed {message : List UInt8} {signature : List Char}
    (signs : keys.sign message = .ok signature) :
    Segments.parse (codec.signed keys c signature).text = .ok (codec.signed keys c signature) := by
  refine parse_text ?_ ?_ ?_
  · rw [signed_header]
    simp only [unsigned, Segments.ofJson]
    exact point_not_mem_encode _
  · rw [signed_payload]
    simp only [unsigned, Segments.ofJson]
    exact point_not_mem_encode _
  · rw [signed_signature]
    exact KeyMaterial.point_not_mem_sign signs

/-- A token that was made has three segments. -/
theorem parse_of_encode (made : codec.encode keys c = .ok token) :
    ∃ s, Segments.parse token = .ok s ∧ s.header = (codec.unsigned keys c).header := by
  obtain ⟨_, signature, signs, rfl⟩ := encode_eq_ok made
  exact ⟨_, parse_signed signs, signed_header signature⟩

/-- The name of an algorithm is a registered one. -/
theorem registered (algorithm : SignatureAlgorithm) : algorithm.name ∈ Header.algorithmNames := by
  cases algorithm <;> decide

/-- The header of a token that was made is read back. -/
theorem header_unsigned (codec : Codec) (keys : KeyMaterial) (c : Credential) :
    Segments.object "header" (codec.unsigned keys c).header =
      .ok (Header.forKey keys.algorithm.name keys.keyId).toJson := by
  simp only [unsigned]
  exact object_ofJson (Header.parse?_toJson (Header.forKey keys.algorithm.name keys.keyId)) rfl

/-- The claims of a token that was made are read back. -/
theorem payload_unsigned (codec : Codec) (keys : KeyMaterial) (c : Credential) :
    Segments.object "payload" (codec.unsigned keys c).payload =
      .ok (Claims.mk c codec.issuer codec.audience).toJson := by
  simp only [unsigned]
  exact object_ofJson (Claims.parse?_toJson ⟨c, codec.issuer, codec.audience⟩) rfl

/-- What is said of a token under a header that was made: its payload if its signature holds, and
nothing else if not. -/
theorem verified_of_header {segments : Segments} {payload : Json}
    (parses : Segments.parse token = .ok segments)
    (header : segments.header = (codec.unsigned keys c).header)
    (object : Segments.object "payload" segments.payload = .ok payload) :
    verified keys token = if keys.verifies segments.signedOctets segments.signature = true
      then .ok payload else .error .signatureInvalid := by
  have headed : Header.ofJson? (Header.forKey keys.algorithm.name keys.keyId).toJson =
      some (Header.forKey keys.algorithm.name keys.keyId) :=
    Header.ofJson?_toJson (registered keys.algorithm)
  unfold verified
  rw [parses]
  simp only [bind, Except.bind, header, header_unsigned, object, headed]
  by_cases written : Segments.isSignature segments.signature = true
  · simp only [written, Bool.not_true, Bool.false_eq_true, if_false]
    by_cases verifies : keys.verifies segments.signedOctets segments.signature = true
    · rw [if_pos ⟨rfl, verifies⟩, if_pos verifies]
      rfl
    · rw [if_neg fun both => verifies both.2, if_neg verifies]
      rfl
  · have fails : ¬ keys.verifies segments.signedOctets segments.signature = true :=
      fun verifies => written (KeyMaterial.isSignature_of_verifies verifies)
    rw [if_neg fails]
    simp only [written, Bool.not_false, if_true]
    rfl

/-- Claims that were written for a credential without a flaw are accepted. -/
theorem accepted_toJson (flawless : c.flaw? = none) (notNegative : ¬ c.expiresAt < 0) :
    codec.accepted (Claims.mk c codec.issuer codec.audience).toJson = .ok c := by
  unfold accepted
  rw [Claims.ofJson?_toJson]
  simp only [Claims.hasReadableStart_toJson, Bool.not_true, Bool.false_eq_true, if_false, notNegative,
    ne_eq, not_true_eq_false, flawless]

/-- Claims that were written for a credential are accepted as no other one. -/
theorem eq_of_accepted_toJson {c' : Credential}
    (accepts : codec.accepted (Claims.mk c codec.issuer codec.audience).toJson = .ok c') : c' = c := by
  unfold accepted at accepts
  rw [Claims.ofJson?_toJson] at accepts
  dsimp only at accepts
  split at accepts
  · cases accepts
  split at accepts
  · cases accepts
  split at accepts
  · cases accepts
  split at accepts
  · cases accepts
  split at accepts
  · cases accepts
  · exact (Except.ok.inj accepts).symm

/-- The claims of a token that was made are given out if its signature holds. -/
theorem verified_signed {signature : List Char} {message : List UInt8}
    (signs : keys.sign message = .ok signature) : verified keys (codec.signed keys c signature).text =
      if keys.verifies (codec.unsigned keys c).signedOctets signature = true
        then .ok (Claims.mk c codec.issuer codec.audience).toJson else .error .signatureInvalid := by
  have object := payload_unsigned codec keys c
  rw [← signed_payload signature] at object
  rw [verified_of_header (parse_signed signs) (signed_header signature) object, signedOctets_signed,
    signed_signature]

theorem decodeIgnoringExpiry_text {signature : List Char} (flawless : c.flaw? = none)
    (notNegative : ¬ c.expiresAt < 0) {message : List UInt8}
    (signs : keys.sign message = .ok signature)
    (verifies : keys.verifies (codec.unsigned keys c).signedOctets signature = true) :
    codec.decodeIgnoringExpiry keys (codec.signed keys c signature).text = .ok c := by
  unfold decodeIgnoringExpiry
  rw [verified_signed signs, if_pos verifies]
  exact accepted_toJson flawless notNegative

/-- A token that was made holds no other credential, whether its signature holds or not. -/
theorem eq_of_encode {c' : Credential} (made : codec.encode keys c = .ok token)
    (decodes : codec.decodeIgnoringExpiry keys token = .ok c') : c' = c := by
  obtain ⟨_, signature, signs, rfl⟩ := encode_eq_ok made
  unfold decodeIgnoringExpiry at decodes
  rw [verified_signed signs] at decodes
  by_cases verifies : keys.verifies (codec.unsigned keys c).signedOctets signature = true
  · rw [if_pos verifies] at decodes
    exact eq_of_accepted_toJson decodes
  · rw [if_neg verifies] at decodes
    cases decodes

/-- A token that was made with keys that agree holds its credential. -/
theorem decodeIgnoringExpiry_encode (agrees : keys.Agrees) (made : codec.encode keys c = .ok token)
    (notNegative : 0 ≤ c.expiresAt.toInt) : codec.decodeIgnoringExpiry keys token = .ok c := by
  obtain ⟨flawless, signature, signs, rfl⟩ := encode_eq_ok made
  have notNegative : ¬ c.expiresAt < 0 := by
    rw [Int64.lt_iff_toInt_lt]
    exact Int.not_lt.mpr notNegative
  exact decodeIgnoringExpiry_text flawless notNegative signs (agrees _ _ signs)

/-- A token is made for every credential without a flaw, and holds that credential. -/
theorem exists_encode (codec : Codec) (matching : keys.Matches) (flawless : c.flaw? = none)
    (notNegative : 0 ≤ c.expiresAt.toInt) :
    ∃ token, codec.encode keys c = .ok token ∧ codec.decodeIgnoringExpiry keys token = .ok c := by
  obtain ⟨signature, signs, _⟩ := matching.sign (codec.unsigned keys c).signedOctets
  have made : codec.encode keys c = .ok (codec.signed keys c signature).text := by
    rw [encode_of_flawless flawless, signs]
    rfl
  exact ⟨_, made, decodeIgnoringExpiry_encode matching.agrees made notNegative⟩

/-- The times at which a credential is current. Both sums stay in the range, which only the second one
shows: at the last second of the range a credential has expired that would only expire later. -/
theorem current_withLeeway {seconds : UInt64} {now : Int64} (notNegative : 0 ≤ c.expiresAt.toInt) :
    (codec.withLeeway seconds).current now c = .ok c ↔
      c.issuedAt.toInt ≤ now.toInt + 300 ∧ now.toInt < c.expiresAt.toInt + seconds.toNat ∧
        now.toInt < 2 ^ 63 - 1 := by
  have greatest := now.toInt_lt
  have leeway : (codec.withLeeway seconds).leeway.toInt = min seconds.toNat (2 ^ 63 - 1) := by
    change (Seconds.nearest seconds.toNat).toInt = _
    rw [Seconds.toInt_nearest_eq]
    omega
  rw [current_eq_ok_iff, early_iff, late_iff (by omega), leeway]
  simp only [true_and]
  omega

/-- What is encoded is decoded. It is current from when it was issued, less the skew that is allowed,
until it expires, except at the last second of the range, where the sum of expiry and leeway ends. -/
theorem decode_encode (codec : Codec) (seconds : UInt64) (matching : keys.Matches)
    (user : c.userId ≠ "") (id : c.tokenId ≠ "") (later : c.issuedAt.toInt < c.expiresAt.toInt)
    (notNegative : 0 ≤ c.expiresAt.toInt) :
    ∃ token, (codec.withLeeway seconds).encode keys c = .ok token ∧
      (codec.withLeeway seconds).decodeIgnoringExpiry keys token = .ok c ∧
      ∀ now : Int64, (codec.withLeeway seconds).decode keys token now = .ok c ↔
        c.issuedAt.toInt ≤ now.toInt + 300 ∧ now.toInt < c.expiresAt.toInt + seconds.toNat ∧
          now.toInt < 2 ^ 63 - 1 := by
  obtain ⟨token, made, decoded⟩ := (codec.withLeeway seconds).exists_encode matching
    (Credential.flaw?_eq_none_iff.mpr ⟨user, id, later⟩) notNegative
  refine ⟨token, made, decoded, fun now => ?_⟩
  unfold decode
  rw [decoded]
  exact current_withLeeway notNegative

end Codec

/-! ### A token -/

/-- The segments that a shared secret signs. -/
def Codec.signedSegments (secret : List UInt8) (header payload : Json) : Segments :=
  let unsigned : Segments := ⟨Segments.ofJson header, Segments.ofJson payload, []⟩
  { unsigned with
    signature := Base64.encode Base64.urlSafe (Digest.Hmac.code secret unsigned.signedOctets) }

namespace Sample

def secret : List UInt8 := [1, 2, 3, 4]

def keys : KeyMaterial := ⟨"k", .shared secret⟩

/-- A credential for refreshing that lasts for a hundred seconds. -/
def credential : Credential :=
  ⟨"id", "42", "a@b.com", [], none, 0, 100, .refresh⟩

def header : Json := (Header.forKey keys.algorithm.name keys.keyId).toJson

def payload : Json := (Claims.mk credential "auth-service" "api").toJson

def token : String := (Codec.signedSegments secret header payload).text

theorem decodes : ({} : Codec).decodeIgnoringExpiry keys token = .ok credential := by
  have signs : keys.sign (({} : Codec).unsigned keys credential).signedOctets =
      .ok (Base64.encode Base64.urlSafe (Digest.Hmac.code secret
        (({} : Codec).unsigned keys credential).signedOctets)) := rfl
  exact Codec.decodeIgnoringExpiry_text (by decide) (by decide) signs
    ((KeyMaterial.verifies_shared rfl).mpr rfl)

/-! ### A credential with every kind of text -/

/-- A credential with text that JSON escapes, text beyond the basic plane, and a session. -/
def edgy : Credential where
  tokenId := "id\"\\\n\u0001"
  userId := "😀"
  email := ""
  roles := ["", "\u2028"]
  sessionId := some "s"
  issuedAt := -5
  expiresAt := 100
  kind := .reset

/-- It is decoded at the last second of the leeway. -/
theorem decodes_edgy : ∃ token, (({} : Codec).withLeeway 5).encode keys edgy = .ok token ∧
    (({} : Codec).withLeeway 5).decodeIgnoringExpiry keys token = .ok edgy ∧
    (({} : Codec).withLeeway 5).decode keys token 104 = .ok edgy := by
  obtain ⟨token, made, decoded, current⟩ := @Codec.decode_encode keys edgy {} 5 trivial (by decide)
    (by decide) (by decide) (by decide)
  exact ⟨token, made, decoded, (current 104).mpr (by decide)⟩

/-- A credential that expires at the last second of the range. -/
def lasting : Credential := { credential with expiresAt := 9223372036854775807 }

/-- With a second of leeway it holds at that second, as whole numbers go, and has expired. -/
theorem expires_lasting : ∃ token, (({} : Codec).withLeeway 1).encode keys lasting = .ok token ∧
    (({} : Codec).withLeeway 1).decodeIgnoringExpiry keys token = .ok lasting ∧
    lasting.issuedAt.toInt ≤ (9223372036854775807 : Int64).toInt + 300 ∧
    (9223372036854775807 : Int64).toInt < lasting.expiresAt.toInt + (1 : UInt64).toNat ∧
    (({} : Codec).withLeeway 1).decode keys token 9223372036854775807 = .error .expired := by
  obtain ⟨token, made, decoded⟩ := @Codec.exists_encode keys lasting (({} : Codec).withLeeway 1)
    trivial (by decide) (by decide)
  refine ⟨token, made, decoded, by decide, by decide, ?_⟩
  unfold Codec.decode
  rw [decoded]
  rfl

end Sample

end TokenAuthority
