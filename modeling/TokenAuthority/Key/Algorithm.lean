import TokenAuthority.Text.Blank

/-!
# Signature algorithms

The algorithms that tokens are signed with, and the names by which settings and token headers give
them.
-/

namespace TokenAuthority

inductive SignatureAlgorithm where
  /-- A keyed digest under a shared secret. -/
  | hs256
  /-- An RSA signature over a digest. -/
  | rs256
deriving DecidableEq

namespace SignatureAlgorithm

def name : SignatureAlgorithm → String
  | .hs256 => "HS256"
  | .rs256 => "RS256"

/-- The form of a text under which an algorithm is looked up: no white space around it, and ASCII letters
in upper case. -/
def normalized (text : String) : String :=
  String.ofList ((Blank.trim text).toList.map Char.toUpper)

def ofText? (text : String) : Option SignatureAlgorithm :=
  match normalized text with
  | "HS256" => some .hs256
  | "RS256" => some .rs256
  | _ => none

end SignatureAlgorithm

end TokenAuthority
