import TokenAuthority.Proofs.Json.RoundTrip
import TokenAuthority.Token.Claims
import TokenAuthority.Token.Header

/-!
# Headers and claims are read back

* `Header.ofJson?_toJson` — a header is read back if its algorithm is a registered one.
* `Claims.ofJson?_toJson` — all claims are read back, whatever their texts, roles and times.

Both are within the limits of the reader of JSON text, so that `Header.parse?_toJson` and
`Claims.parse?_toJson` hold of the written form as well.
-/

namespace TokenAuthority

namespace Json

/-- A whole number that fits a signed word is within the limits of the reader. -/
theorem fits_int {depth : Nat} (n : Int64) : (int n.toInt).Fits depth := by
  have least := n.le_toInt
  have greatest := n.toInt_lt
  exact .number ⟨by omega, by omega⟩

theorem int64?_int (n : Int64) : (int n.toInt).int64? = some n.toInt := by
  have least := n.le_toInt
  have greatest := n.toInt_lt
  exact if_pos ⟨by omega, by omega⟩

theorem texts?_strings (texts : List String) : (array (texts.map string)).texts? = some texts := by
  induction texts with
  | nil => rfl
  | cons s texts ih =>
      simp only [texts?, List.map_cons, List.mapM_cons] at ih ⊢
      rw [ih]
      rfl

theorem optional?_none {α : Type} (read : Json → Option α) : optional? read none = some none := rfl

theorem optional?_texts (text : Option String) : optional? text? (text.map string) = some text := by
  cases text <;> rfl

theorem fits_strings {depth : Nat} (texts : List String) :
    (array (texts.map string)).Fits (depth + 1) := by
  refine .array ?_
  intro item mem
  obtain ⟨s, _, rfl⟩ := List.mem_map.mp mem
  exact .string s

end Json

/-! ### Headers -/

namespace Header

/-- The parameters of a header as they are written, in the order in which they are read. -/
theorem fields?_toJson (h : Header) :
    h.toJson.fields? ["typ", "alg", "cty", "jku", "jwk", "kid", "x5u", "x5c", "x5t", "x5t#S256"] =
      some [h.kind.map .string, some (.string h.algorithm), none, none, none, h.keyId.map .string,
        none, none, none, none] := by
  obtain ⟨algorithm, kind, keyId⟩ := h
  cases kind <;> cases keyId <;> rfl

theorem ofJson?_toJson {h : Header} (registered : h.algorithm ∈ algorithmNames) :
    ofJson? h.toJson = some h := by
  have algorithm : required? (choiceOf? algorithmNames) (some (.string h.algorithm)) =
      some h.algorithm := by
    simp [required?, choiceOf?, Json.choice?, registered]
  simp only [ofJson?, fields?_toJson, Json.optional?_texts, Json.optional?_none, algorithm,
    Option.bind_eq_bind, Option.bind_some]
  rfl

theorem parse?_toJson (h : Header) : Json.parse? h.toJson.render = some h.toJson := by
  refine Json.parse?_render (.object ?_)
  intro member mem
  simp only [List.mem_append, Option.mem_toList, Option.map_eq_some_iff, List.mem_singleton] at mem
  rcases mem with (⟨kind, _, rfl⟩ | rfl) | ⟨keyId, _, rfl⟩
  · exact .string kind
  · exact .string h.algorithm
  · exact .string keyId

end Header

/-! ### Claims -/

namespace Claims

/-- The claims as they are written, in the order in which they are read. -/
theorem fields?_toJson (c : Claims) : c.toJson.fields? claimNames =
    some [some (.string c.credential.userId), some (.string c.credential.email),
      some (.array (c.credential.roles.map .string)), some (.string c.credential.kind.name),
      some (.int c.credential.issuedAt.toInt), some (.int c.credential.expiresAt.toInt),
      some (.string c.credential.tokenId), c.credential.sessionId.map .string,
      some (.string c.issuer), some (.string c.audience)] := by
  obtain ⟨⟨tokenId, userId, email, roles, sessionId, issuedAt, expiresAt, kind⟩, issuer, audience⟩ := c
  cases sessionId <;> rfl

theorem ofJson?_toJson (c : Claims) : ofJson? c.toJson = some c := by
  simp only [ofJson?, fields?_toJson, Option.bind_eq_bind, Option.bind_some, Option.getD_some,
    Json.texts?_strings, Json.int64?_int, Json.optional?_texts, Json.text?, Json.choice?,
    TokenKind.ofName?_name, Int64.ofInt_toInt]
  rfl

theorem hasReadableStart_toJson (c : Claims) : hasReadableStart c.toJson = true := by
  obtain ⟨⟨tokenId, userId, email, roles, sessionId, issuedAt, expiresAt, kind⟩, issuer, audience⟩ := c
  cases sessionId <;> rfl

theorem parse?_toJson (c : Claims) : Json.parse? c.toJson.render = some c.toJson := by
  refine Json.parse?_render (.object ?_)
  intro member mem
  simp only [List.mem_append, Option.mem_toList, Option.map_eq_some_iff, List.mem_cons,
    List.not_mem_nil, or_false] at mem
  rcases mem with ((rfl | rfl | rfl | rfl | rfl | rfl | rfl) | ⟨sessionId, _, rfl⟩) | rfl | rfl
  · exact .string _
  · exact .string _
  · exact Json.fits_strings _
  · exact .string _
  · exact Json.fits_int _
  · exact Json.fits_int _
  · exact .string _
  · exact .string sessionId
  · exact .string _
  · exact .string _

end Claims

end TokenAuthority
