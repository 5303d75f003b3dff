import TokenAuthority.Json.Basic

/-!
# Token headers

The first segment of a token: the algorithm it is signed with and, if given, the key. A header is
read as a whole: every registered parameter must have its form, although only the algorithm matters
to who reads it here.
-/

namespace TokenAuthority

structure Header where
  algorithm : String
  kind : Option String
  keyId : Option String
deriving DecidableEq

namespace Header

def forKey (algorithm keyId : String) : Header := ⟨algorithm, some "JWT", some keyId⟩

def toJson (h : Header) : Json :=
  .object <|
    (h.kind.map fun s => ("typ", Json.string s)).toList
    ++ [("alg", .string h.algorithm)]
    ++ (h.keyId.map fun s => ("kid", Json.string s)).toList

/-! ### Reading -/

def algorithmNames : List String :=
  ["HS256", "HS384", "HS512", "ES256", "ES384", "RS256", "RS384", "RS512", "PS256", "PS384", "PS512",
   "EdDSA"]

/-- The registered names of algorithms that an embedded key may be for. -/
def keyAlgorithmNames : List String :=
  algorithmNames ++ ["RSA1_5", "RSA-OAEP", "RSA-OAEP-256"]

def curveNames : List String := ["P-256", "P-384", "P-521", "Ed25519"]

/-- One of the given names. -/
def choiceOf? (names : List String) (json : Json) : Option String :=
  json.choice?.filter names.contains

/-- A parameter that must be there and have a form. -/
def required? {α : Type} (read : Json → Option α) (json : Option Json) : Option α :=
  json.bind read

/-- Whether a value has one of the forms of a key: on an elliptic curve, of RSA, a secret, or a pair
of octet strings. -/
def isKeyOfSomeKind (json : Json) : Bool :=
  let kindIs (name : String) (kind : Option Json) := (required? (choiceOf? [name]) kind).isSome
  let text (value : Option Json) := (required? Json.text? value).isSome
  let curve (value : Option Json) := (required? (choiceOf? curveNames) value).isSome
  (match json.fields? ["kty", "crv", "x", "y"] with
    | some [kty, crv, x, y] => kindIs "EC" kty && curve crv && text x && text y
    | _ => false)
  || (match json.fields? ["kty", "n", "e"] with
    | some [kty, n, e] => kindIs "RSA" kty && text n && text e
    | _ => false)
  || (match json.fields? ["kty", "k"] with
    | some [kty, k] => kindIs "oct" kty && text k
    | _ => false)
  || (match json.fields? ["kty", "crv", "x"] with
    | some [kty, crv, x] => kindIs "OKP" kty && curve crv && text x
    | _ => false)

/-- Whether a value is an embedded key: an object with the parameters of some kind of key, whose common
parameters have their forms where they are given. -/
def isEmbeddedKey (json : Json) : Bool :=
  let optional {α : Type} (read : Json → Option α) (value : Option Json) :=
    (Json.optional? read value).isSome
  json.isObject
  && (match json.fields? ["use", "key_ops", "alg", "kid", "x5u", "x5c", "x5t", "x5t#S256"] with
    | some [use, ops, alg, kid, x5u, x5c, x5t, x5tS256] =>
      optional Json.text? use && optional Json.texts? ops
      && optional (choiceOf? keyAlgorithmNames) alg && optional Json.text? kid
      && optional Json.text? x5u && optional Json.texts? x5c && optional Json.text? x5t
      && optional Json.text? x5tS256
    | _ => false)
  && isKeyOfSomeKind json

/-- An embedded key, of which nothing is kept. -/
def embeddedKey? (json : Json) : Option Unit :=
  if isEmbeddedKey json then some () else none

def ofJson? (json : Json) : Option Header := do
  let names := ["typ", "alg", "cty", "jku", "jwk", "kid", "x5u", "x5c", "x5t", "x5t#S256"]
  match ← json.fields? names with
  | [typ, alg, cty, jku, jwk, kid, x5u, x5c, x5t, x5tS256] =>
    let kind ← Json.optional? Json.text? typ
    let algorithm ← required? (choiceOf? algorithmNames) alg
    let _ ← Json.optional? Json.text? cty
    let _ ← Json.optional? Json.text? jku
    let _ ← Json.optional? embeddedKey? jwk
    let keyId ← Json.optional? Json.text? kid
    let _ ← Json.optional? Json.text? x5u
    let _ ← Json.optional? Json.texts? x5c
    let _ ← Json.optional? Json.text? x5t
    let _ ← Json.optional? Json.text? x5tS256
    return { algorithm, kind, keyId }
  | _ => none

end Header

end TokenAuthority
