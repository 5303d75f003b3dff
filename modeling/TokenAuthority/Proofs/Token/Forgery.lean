import TokenAuthority.Proofs.Text.Split
import TokenAuthority.Proofs.Token.Encoding

/-!
# Nothing is said of a token before its signature holds

* `Segments.parse_eq_ok_iff` — a token has three segments exactly if it is three texts without a point,
  with points between them.
* `Codec.tells_of_signature` — whoever learns anything of the claims of a token, be it that they have
  expired, has presented a token that is signed under the algorithm of the keys; and a token that was
  made and then given other claims or another signature is reported as forged, whatever it says.
-/

namespace TokenAuthority

theorem Base64.point_not_mem_of_decode? {text : List Char} {octets : List UInt8}
    (decoded : decode? urlSafe text = some octets) : '.' ∉ text := by
  have none : urlSafe.value? '.' = none := by decide +kernel
  obtain ⟨values, read, -⟩ := Option.bind_eq_some_iff.mp decoded
  clear decoded
  induction text generalizing values with
  | nil => exact List.not_mem_nil
  | cons c text ih =>
      rw [List.mapM_cons] at read
      obtain ⟨v, digit, read⟩ := Option.bind_eq_some_iff.mp read
      obtain ⟨vs, read, _⟩ := Option.bind_eq_some_iff.mp read
      rw [List.mem_cons, not_or]
      refine ⟨?_, ih vs read⟩
      rintro rfl
      rw [none] at digit
      cases digit

namespace Segments

/-- A token is cut into three texts without points if it is these with points between them. -/
theorem parse_eq_ok_iff {token : String} {s : Segments} : parse token = .ok s ↔
    token = s.text ∧ '.' ∉ s.header ∧ '.' ∉ s.payload ∧ '.' ∉ s.signature := by
  constructor
  · intro parses
    unfold parse at parses
    split at parses
    · rename_i header payload signature cut
      cases parses
      have parts : ∀ part ∈ Split.on '.' token.toList, '.' ∉ part :=
        fun _ => Split.not_mem_of_mem_on
      rw [cut] at parts
      have joined := Split.intercalate_on '.' token.toList
      rw [cut, List.intercalate_cons_cons, List.intercalate_cons_cons, List.intercalate_singleton] at joined
      refine ⟨?_, parts _ (by simp), parts _ (by simp), parts _ (by simp)⟩
      rw [text, ← String.ofList_toList (s := token), ← joined]
      simp only [List.append_assoc, List.singleton_append]
    · cases parses
  · rintro ⟨rfl, header, payload, signature⟩
    exact Codec.parse_text header payload signature

theorem parse_eq_error {token : String} {e : DecodeError} (fails : parse token = .error e) :
    ∃ detail, e = .malformed detail := by
  unfold parse at fails
  split at fails
  · cases fails
  · exact ⟨_, (Except.error.inj fails).symm⟩

/-- The object of a segment is written without points. -/
theorem point_not_mem_of_object {name : String} {segment : List Char} {json : Json}
    (read : object name segment = .ok json) : '.' ∉ segment := by
  unfold object at read
  split at read
  · cases read
  · rename_i octets decoded
    exact Base64.point_not_mem_of_decode? decoded

theorem object_eq_error {name : String} {segment : List Char} {e : DecodeError}
    (fails : object name segment = .error e) : ∃ detail, e = .malformed detail := by
  unfold object at fails
  split at fails
  · exact ⟨_, (Except.error.inj fails).symm⟩
  split at fails
  · exact ⟨_, (Except.error.inj fails).symm⟩
  split at fails
  · cases fails
  · exact ⟨_, (Except.error.inj fails).symm⟩

end Segments

namespace Codec

variable {codec : Codec} {keys : KeyMaterial} {token : String} {c : Credential}

/-- The keys have signed a token with these segments: its header names their algorithm, and its signature
is over the other two segments. -/
structure IsSigned (keys : KeyMaterial) (token : String) (s : Segments) : Prop where
  text : token = s.text
  pointless : '.' ∉ s.header ∧ '.' ∉ s.payload ∧ '.' ∉ s.signature
  algorithm : ∃ json header, Segments.object "header" s.header = .ok json ∧
    Header.ofJson? json = some header ∧ header.algorithm = keys.algorithm.name
  verifies : keys.verifies s.signedOctets s.signature = true

/-- What is said of a token before its claims are read: that it has not its form, that it is forged, or
its payload if it is signed. -/
theorem verified_cases (keys : KeyMaterial) (token : String) :
    (∃ detail, verified keys token = .error (.malformed detail)) ∨
      verified keys token = .error .signatureInvalid ∨
      ∃ payload s, verified keys token = .ok payload ∧ IsSigned keys token s := by
  unfold verified
  cases parses : Segments.parse token with
  | error e =>
      obtain ⟨detail, rfl⟩ := Segments.parse_eq_error parses
      exact .inl ⟨detail, rfl⟩
  | ok s =>
  simp only [bind, Except.bind]
  cases header : Segments.object "header" s.header with
  | error e =>
      obtain ⟨detail, rfl⟩ := Segments.object_eq_error header
      exact .inl ⟨detail, rfl⟩
  | ok json =>
  cases payload : Segments.object "payload" s.payload with
  | error e =>
      obtain ⟨detail, rfl⟩ := Segments.object_eq_error payload
      exact .inl ⟨detail, rfl⟩
  | ok claims =>
  dsimp only
  by_cases written : (!Segments.isSignature s.signature) = true
  · rw [if_pos written]
    exact .inr (.inl rfl)
  rw [if_neg written]
  cases headed : Header.ofJson? json with
  | none => exact .inl ⟨_, rfl⟩
  | some read =>
  by_cases holds : read.algorithm = keys.algorithm.name ∧
      keys.verifies s.signedOctets s.signature = true
  · obtain ⟨text, pointless⟩ := Segments.parse_eq_ok_iff.mp parses
    refine .inr (.inr ⟨claims, s, if_pos holds, text, pointless, ?_, holds.2⟩)
    exact ⟨json, read, header, headed, holds.1⟩
  · exact .inr (.inl (if_neg holds))

/-- An answer tells something of the claims of a token: what they are, that they have expired, or that
they are not acceptable. -/
inductive TellsClaims : Except DecodeError Credential → Prop where
  | content (c : Credential) : TellsClaims (.ok c)
  | expired : TellsClaims (.error .expired)
  | invalid (detail : String) : TellsClaims (.error (.invalidClaims detail))

/-- Whoever learns something of the claims has presented a token that is signed. -/
theorem isSigned_of_tellsClaims {now : Int64}
    (tells : TellsClaims (codec.decodeIgnoringExpiry keys token) ∨
      TellsClaims (codec.decode keys token now)) : ∃ s, IsSigned keys token s := by
  rcases verified_cases keys token with ⟨detail, malformed⟩ | forged | ⟨_, s, _, signed⟩
  · unfold decode decodeIgnoringExpiry at tells
    rw [malformed] at tells
    rcases tells with tells | tells <;> cases tells
  · unfold decode decodeIgnoringExpiry at tells
    rw [forged] at tells
    rcases tells with tells | tells <;> cases tells
  · exact ⟨s, signed⟩

/-- A token under a header that was made, but with a signature that does not hold, is forged. -/
theorem forged_of_not_verifies {codec' : Codec} {s : Segments} {payload : Json} {now : Int64}
    (parses : Segments.parse token = .ok s) (header : s.header = (codec'.unsigned keys c).header)
    (object : Segments.object "payload" s.payload = .ok payload)
    (fails : keys.verifies s.signedOctets s.signature = false) :
    codec.decodeIgnoringExpiry keys token = .error .signatureInvalid ∧
      codec.decode keys token now = .error .signatureInvalid := by
  have forged : verified keys token = .error .signatureInvalid := by
    rw [verified_of_header parses header object, fails]
    rfl
  unfold decode decodeIgnoringExpiry
  rw [forged]
  exact ⟨rfl, rfl⟩

/-- Nothing is said of the claims of a token before its signature holds. -/
theorem tells_of_signature (keys : KeyMaterial) :
    (∀ (codec : Codec) (token : String) (now : Int64),
      TellsClaims (codec.decodeIgnoringExpiry keys token) ∨ TellsClaims (codec.decode keys token now) →
      ∃ s, IsSigned keys token s ∧ ∀ secret, keys.scheme = .shared secret →
        s.signature = Base64.encode Base64.urlSafe (Digest.Hmac.code secret s.signedOctets)) ∧
    ∀ (codec : Codec) (c : Credential) (token : String), codec.encode keys c = .ok token →
      ∃ s, Segments.parse token = .ok s ∧
        ∀ (payload signature : List Char) (json : Json),
          Segments.object "payload" payload = .ok json → '.' ∉ signature →
          keys.verifies (Segments.signedOctets ⟨s.header, payload, signature⟩) signature = false →
          ∀ (codec' : Codec) (now : Int64),
            codec'.decodeIgnoringExpiry keys (Segments.text ⟨s.header, payload, signature⟩) =
              .error .signatureInvalid ∧
            codec'.decode keys (Segments.text ⟨s.header, payload, signature⟩) now =
              .error .signatureInvalid := by
  constructor
  · intro codec token now tells
    obtain ⟨s, signed⟩ := isSigned_of_tellsClaims tells
    refine ⟨s, signed, fun secret shared => ?_⟩
    exact (KeyMaterial.verifies_shared shared).mp signed.verifies
  · intro codec c token made
    obtain ⟨s, parses, header⟩ := parse_of_encode made
    obtain ⟨_, point, _⟩ := Segments.parse_eq_ok_iff.mp parses
    refine ⟨s, parses, fun payload signature json object point' fails codec' now => ?_⟩
    exact forged_of_not_verifies
      (parse_text point (Segments.point_not_mem_of_object object) point') header object fails

end Codec

namespace Sample

/-- A token that is made and decoded is signed; with no claims and no signature it is forged. -/
theorem tells_token : (∃ s, Codec.IsSigned keys token s) ∧
    ∃ made s, ({} : Codec).encode keys credential = .ok made ∧ Segments.parse made = .ok s ∧
      ∀ now, ({} : Codec).decode keys
        (Segments.text ⟨s.header, Segments.ofJson (.object []), []⟩) now = .error .signatureInvalid := by
  obtain ⟨tells, forged⟩ := Codec.tells_of_signature keys
  constructor
  · have decoded : Codec.TellsClaims (({} : Codec).decodeIgnoringExpiry keys token) := by
      rw [decodes]
      exact .content credential
    obtain ⟨s, signed, _⟩ := tells {} token 0 (.inl decoded)
    exact ⟨s, signed⟩
  · obtain ⟨made, encoded, _⟩ := @Codec.exists_encode keys credential {} trivial (by decide) (by decide)
    obtain ⟨s, parses, forged⟩ := forged {} credential made encoded
    refine ⟨made, s, encoded, parses, fun now => ?_⟩
    have fits : (Json.object []).Fits Json.maxDepth := .object fun _ mem => absurd mem List.not_mem_nil
    have object : Segments.object "payload" (Segments.ofJson (.object [])) = .ok (.object []) :=
      Codec.object_ofJson (Json.parse?_render fits) rfl
    have fails : keys.verifies (Segments.signedOctets ⟨s.header, Segments.ofJson (.object []), []⟩) [] =
        false := by
      rw [Bool.eq_false_iff]
      exact fun verifies => Bool.false_ne_true (KeyMaterial.isSignature_of_verifies verifies)
    exact (forged _ _ _ object List.not_mem_nil fails {} now).2

end Sample

end TokenAuthority
