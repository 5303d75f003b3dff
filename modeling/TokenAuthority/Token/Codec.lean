import TokenAuthority.Json.Printer
import TokenAuthority.Key.Material
import TokenAuthority.Text.Split
import TokenAuthority.Token.Claims
import TokenAuthority.Token.Header
import TokenAuthority.Verification.FailureReason

/-!
# Tokens as text

A token is three segments with points between them: a header and claims, each JSON in sextet text,
and a signature over the two. The signature is checked before anything is said about the claims, so
a forged token is reported as forged also when it is expired.
-/

namespace TokenAuthority

/-- Why a text is not an acceptable token. -/
inductive DecodeError where
  | malformed (detail : String)
  | signatureInvalid
  | expired
  | invalidClaims (detail : String)
deriving DecidableEq

namespace DecodeError

def message : DecodeError → String
  | .malformed detail => "malformed token: " ++ detail
  | .signatureInvalid => "token signature is invalid"
  | .expired => "token has expired"
  | .invalidClaims detail => "invalid token claims: " ++ detail

/-- The reason under which the token is rejected. -/
def reason : DecodeError → FailureReason
  | .malformed _ => .malformedToken
  | .signatureInvalid => .signatureInvalid
  | .expired => .expiredToken
  | .invalidClaims _ => .invalidClaims

end DecodeError

/-! ### Segments -/

structure Segments where
  header : List Char
  payload : List Char
  signature : List Char
deriving DecidableEq

namespace Segments

def text (s : Segments) : String :=
  String.ofList (s.header ++ '.' :: (s.payload ++ '.' :: s.signature))

/-- What the signature is over. -/
def signedOctets (s : Segments) : List UInt8 :=
  Utf8.encode (String.ofList (s.header ++ '.' :: s.payload))

/-- Cuts the text of a token into its segments. -/
def parse (token : String) : Except DecodeError Segments :=
  match Split.on '.' token.toList with
  | [header, payload, signature] => .ok ⟨header, payload, signature⟩
  | parts => .error (.malformed ("expected 3 segments, found " ++ toString parts.length))

/-- The object that a segment holds. -/
def object (name : String) (segment : List Char) : Except DecodeError Json :=
  match Base64.decode? Base64.urlSafe segment with
  | none => .error (.malformed (name ++ " is not base64url"))
  | some octets =>
    match Json.ofOctets? octets with
    | none => .error (.malformed (name ++ " is not JSON"))
    | some json =>
      if json.isObject then .ok json else .error (.malformed (name ++ " is not a JSON object"))

/-- Whether a segment can be the signature of any key: some octets in sextet text. -/
def isSignature (segment : List Char) : Bool :=
  !segment.isEmpty && (Base64.decode? Base64.urlSafe segment).isSome

/-- A value as a segment. -/
def ofJson (json : Json) : List Char :=
  Base64.encode Base64.urlSafe (Utf8.encode json.render)

end Segments

/-! ### Codec -/

/-- Encodes and decodes tokens of one issuer for one audience. -/
structure Codec where
  issuer : String := "auth-service"
  audience : String := "api"
  /-- For how many seconds after its expiry a token is still accepted. -/
  leeway : Int64 := 0
deriving DecidableEq

namespace Codec

/-- A token may say that it was issued at most this many seconds in the future. -/
def futureSkew : Int64 := 300

/-- A codec that accepts tokens for some seconds after their expiry. -/
def withLeeway (c : Codec) (seconds : UInt64) : Codec :=
  { c with leeway := Seconds.nearest seconds.toNat }

def encode (c : Codec) (keys : KeyMaterial) (credential : Credential) :
    Except CryptoError String :=
  match credential.flaw? with
  | some flaw => .error (.invalidCredential flaw.message)
  | none =>
    let header := Header.forKey keys.algorithm.name keys.keyId
    let claims : Claims := { credential, issuer := c.issuer, audience := c.audience }
    let unsigned : Segments := ⟨Segments.ofJson header.toJson, Segments.ofJson claims.toJson, []⟩
    match keys.sign unsigned.signedOctets with
    | .ok signature => .ok { unsigned with signature }.text
    | .error e => .error e

/-- What a header or claims that do not have their form are reported as. -/
def malformedJson : DecodeError := .malformed "JSON error"

/-- Checks the segments against the keys, and gives the payload of a token that was signed by them. -/
def verified (keys : KeyMaterial) (token : String) : Except DecodeError Json := do
  let segments ← Segments.parse token
  let headerJson ← Segments.object "header" segments.header
  let payload ← Segments.object "payload" segments.payload
  if !Segments.isSignature segments.signature then throw .signatureInvalid
  match Header.ofJson? headerJson with
  | none => throw malformedJson
  | some header =>
    if header.algorithm = keys.algorithm.name
      ∧ keys.verifies segments.signedOctets segments.signature then
      return payload
    else throw .signatureInvalid

/-- Checks the claims of a payload, leaving their times aside. -/
def accepted (c : Codec) (payload : Json) : Except DecodeError Credential :=
  match Claims.ofJson? payload with
  | none => .error malformedJson
  | some claims =>
    let credential := claims.credential
    if !Claims.hasReadableStart payload then .error malformedJson
    else if credential.expiresAt < 0 then .error (.invalidClaims "missing required claim: exp")
    else if claims.issuer ≠ c.issuer then .error (.invalidClaims "issuer mismatch")
    else if claims.audience ≠ c.audience then .error (.invalidClaims "audience mismatch")
    else
      match credential.flaw? with
      | some flaw => .error (.invalidClaims flaw.message)
      | none => .ok credential

/-- The credential of a token, also of an expired one. -/
def decodeIgnoringExpiry (c : Codec) (keys : KeyMaterial) (token : String) :
    Except DecodeError Credential := do
  c.accepted (← verified keys token)

/-- Checks the times of a credential at a time. -/
def current (c : Codec) (now : Int64) (credential : Credential) : Except DecodeError Credential :=
  if Seconds.plus now futureSkew < credential.issuedAt then
    .error (.invalidClaims
      ("issued-at " ++ toString credential.issuedAt.toInt ++ " is in the future"))
  else if Seconds.plus credential.expiresAt c.leeway ≤ now then .error .expired
  else .ok credential

/-- The credential of a token that holds at a time. -/
def decode (c : Codec) (keys : KeyMaterial) (token : String) (now : Int64) :
    Except DecodeError Credential := do
  c.current now (← c.decodeIgnoringExpiry keys token)

end Codec

end TokenAuthority
