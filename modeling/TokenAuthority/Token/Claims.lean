import TokenAuthority.Token.Credential

/-!
# Claims

The payload of a token: a credential under the short names that tokens use, with who issued it and for
whom.
-/

namespace TokenAuthority

structure Claims where
  credential : Credential
  issuer : String
  audience : String
deriving DecidableEq

namespace Claims

/-- The names of the claims, in the order in which they are written. -/
def claimNames : List String :=
  ["sub", "email", "roles", "type", "iat", "exp", "jti", "sid", "iss", "aud"]

/-- The written form of the claims; a session that is missing is left out. -/
def toJson (c : Claims) : Json :=
  let t := c.credential
  .object <|
    [("sub", .string t.userId), ("email", .string t.email), ("roles", .array (t.roles.map .string)),
     ("type", .string t.kind.name), ("iat", .int t.issuedAt.toInt), ("exp", .int t.expiresAt.toInt),
     ("jti", .string t.tokenId)]
    ++ (t.sessionId.map fun s => ("sid", Json.string s)).toList
    ++ [("iss", .string c.issuer), ("aud", .string c.audience)]

/-- Reads claims from their written form. Roles and session may be missing, and there may be other
members, but no claim may be given twice. -/
def ofJson? (json : Json) : Option Claims := do
  match ← json.fields? claimNames with
  | [some sub, some email, roles, some kind, some iat, some exp, some jti, sid, some iss, some aud] =>
    let credential : Credential := {
      tokenId := ← jti.text?
      userId := ← sub.text?
      email := ← email.text?
      roles := ← (roles.getD (.array [])).texts?
      sessionId := ← Json.optional? Json.text? sid
      issuedAt := Int64.ofInt (← iat.int64?)
      expiresAt := Int64.ofInt (← exp.int64?)
      kind := ← kind.choice?.bind TokenKind.ofName? }
    return { credential, issuer := ← iss.text?, audience := ← aud.text? }
  | _ => none

/-- Whether the claim that says from when on a token holds can be read at all: it is given at most once,
and neither as an object nor as an array with items. Its value is not looked at. -/
def hasReadableStart : Json → Bool
  | .object members =>
    match members.filter (·.1 == "nbf") with
    | [] => true
    | [(_, .object (_ :: _))] => false
    | [(_, .array (_ :: _))] => false
    | [_] => true
    | _ => false
  | _ => false

end Claims

end TokenAuthority
