import TokenAuthority.Report.Tokens

/-!
# Tokens by name, and changed tokens

Where a scenario needs a token it says how its text comes about: it is given, it was kept under a name,
or it is another token with something changed, as a forger would.
-/

namespace TokenAuthority.Simulation

/-- How the text of a token comes about. -/
inductive TokenText where
  | given (text : String)
  /-- It was kept under a name. -/
  | kept (name : String)
  /-- One bit of the signature is changed; the number of the octet wraps around. -/
  | withFlippedBit (token : TokenText) (octet bit : Nat)
  /-- The header is that of another token. -/
  | withHeaderOf (token other : TokenText)
  /-- The payload is that of another token. -/
  | withPayloadOf (token other : TokenText)
  /-- The signature is that of another token. -/
  | withSignatureOf (token other : TokenText)
  /-- Some claims are replaced. -/
  | withClaims (token : TokenText) (claims : List (String × Json))
  | withoutSignature (token : TokenText)
  /-- Texts are put around it. -/
  | between (before : String) (token : TokenText) (after : String)

namespace TokenText

/-- Changes the segments of a token; a text that is no token stays as it is. -/
def changing (change : Segments → Segments) (token : String) : String :=
  match Segments.parse token with
  | .ok segments => (change segments).text
  | .error _ => token

/-- Changes the segments of a token in view of those of another one. -/
def mixing (change : Segments → Segments → Segments) (token other : String) : String :=
  match Segments.parse other with
  | .ok source => changing (change source) token
  | .error _ => token

def flipBit (octet bit : Nat) (s : Segments) : Segments :=
  match Base64.decode? Base64.urlSafe s.signature with
  | none => s
  | some octets =>
    let at' := octet % octets.length
    let flipped := octets.modify at' fun b => b ^^^ (1 <<< UInt8.ofNat bit)
    { s with signature := Base64.encode Base64.urlSafe flipped }

/-- The members of an object with one replaced or added, in the order of their names. -/
def replaceClaim (members : List (String × Json)) (claim : String × Json) : List (String × Json) :=
  let others := members.filter (·.1 ≠ claim.1)
  others.takeWhile (·.1 < claim.1) ++ claim :: others.dropWhile (·.1 < claim.1)

/-- Replaces claims and writes the payload again, the claims in the order of their names. -/
def setClaims (claims : List (String × Json)) (s : Segments) : Segments :=
  match Segments.claims? s.text with
  | none => s
  | some members =>
    { s with payload := Segments.ofJson (.object ((members ++ claims).foldl replaceClaim [])) }

/-- The text, given the tokens kept under names. There is none when a name is not known. -/
def resolve (kept : String → Option String) : TokenText → Option String
  | .given text => some text
  | .kept name => kept name
  | .withFlippedBit token octet bit => (token.resolve kept).map (changing (flipBit octet bit))
  | .withHeaderOf token other => do
    return mixing (fun o s => { s with header := o.header }) (← token.resolve kept)
      (← other.resolve kept)
  | .withPayloadOf token other => do
    return mixing (fun o s => { s with payload := o.payload }) (← token.resolve kept)
      (← other.resolve kept)
  | .withSignatureOf token other => do
    return mixing (fun o s => { s with signature := o.signature }) (← token.resolve kept)
      (← other.resolve kept)
  | .withClaims token claims => (token.resolve kept).map (changing (setClaims claims))
  | .withoutSignature token => (token.resolve kept).map (changing fun s => { s with signature := [] })
  | .between before token after => (token.resolve kept).map fun s => before ++ s ++ after

end TokenText

/-- How the identifier of a token comes about. -/
inductive TokenId where
  | given (text : String)
  /-- It is that of the token kept under a name. -/
  | ofKept (name : String)

def TokenId.resolve (kept : String → Option String) : TokenId → Option String
  | .given text => some text
  | .ofKept name => (kept name).bind fun token => Segments.claim? token "jti"

end TokenAuthority.Simulation
