import TokenAuthority.Digest.Hmac
import TokenAuthority.Key.Algorithm
import TokenAuthority.Key.Error
import TokenAuthority.Key.Pem
import TokenAuthority.Key.Rsa
import TokenAuthority.Key.Secret

/-!
# Keys

Keys that sign and verify tokens, loaded from a shared secret or from armoured RSA keys. Key material
that was loaded from a public key alone verifies and never signs.
-/

namespace TokenAuthority

/-! ### RSA keys in armour -/

namespace Rsa

/-- The object identifiers by which keys are told apart: of elliptic curves, of RSA and of Edwards
curves. -/
def keyIdentifiers : List (List Nat) :=
  [[1, 2, 840, 10045, 2, 1], [1, 2, 840, 113549, 1, 1, 1], [1, 3, 101, 112]]

/-- The object identifier of RSA keys. -/
def keyIdentifier : List Nat := [1, 2, 840, 113549, 1, 1, 1]

/-- The octets of an RSA key in armour: all of them under a label of RSA, and under a general label the
first string inside, if the first key named there is one of RSA. It is not said that the octets are
a key. -/
def keyOctets? (armour : String) : Option (List UInt8) := do
  let block ← Pem.parse? armour
  let pieces ← Asn1.parse? block.octets
  if ["RSA PRIVATE KEY", "RSA PUBLIC KEY"].contains block.label then return block.octets
  else if ["PRIVATE KEY", "PUBLIC KEY", "CERTIFICATE"].contains block.label then
    if (Asn1.identifiersOf pieces).find? keyIdentifiers.contains = some keyIdentifier then
      (Asn1.stringsOf pieces).head?
    else none
  else none

end Rsa

/-! ### Key material -/

/-- What signs and verifies. -/
inductive KeyMaterial.Scheme where
  /-- A shared secret does both. -/
  | shared (secret : List UInt8)
  /-- An RSA key verifies, and another one signs if there is one. Octets that are no key verify
  nothing. -/
  | rsa (verifying : Option Rsa.PublicKey) (signing : Option Rsa.PrivateKey)

/-- Loaded keys under a short identifier. -/
structure KeyMaterial where
  keyId : String
  scheme : KeyMaterial.Scheme

namespace KeyMaterial

/-- Why keys cannot be loaded or used. -/
inductive Problem where
  | weakSecret (weakness : Secret.Weakness)
  | unreadablePrivateKey
  | emptyPublicKey
  | unreadablePublicKey
  | cannotSign
  | noPair
  | verificationOnly
  | unsupportedAlgorithm (name : String)
deriving DecidableEq

def Problem.message : Problem → String
  | .weakSecret w => w.message
  | .unreadablePrivateKey => "invalid RSA private key"
  | .emptyPublicKey => "RSA public key is empty"
  | .unreadablePublicKey => "invalid RSA public key"
  | .cannotSign => "RSA private key cannot sign"
  | .noPair => "RSA private and public keys do not form a pair"
  | .verificationOnly => "signing key unavailable: key material is verification-only"
  | .unsupportedAlgorithm name => "unsupported signing algorithm: " ++ name

def Problem.error (p : Problem) : CryptoError := .keyLoad p.message

def algorithm (k : KeyMaterial) : SignatureAlgorithm :=
  match k.scheme with
  | .shared _ => .hs256
  | .rsa _ _ => .rs256

def canSign (k : KeyMaterial) : Bool :=
  match k.scheme with
  | .shared _ => true
  | .rsa _ signing => signing.isSome

/-- What logs show of the keys. -/
def redacted (k : KeyMaterial) : String :=
  "KeyMaterial \x7b algorithm: " ++ k.algorithm.name ++ ", key_id: \"" ++ k.keyId ++ "\", can_sign: "
    ++ (if k.canSign then "true" else "false") ++ ", .. \x7d"

/-! ### Loading -/

def ofSecret (secret : String) : Except Problem KeyMaterial :=
  match Secret.assess secret with
  | .ok _ =>
    let octets := Utf8.encode secret
    .ok ⟨Digest.Sha256.fingerprint octets, .shared octets⟩
  | .error w => .error (.weakSecret w)

/-- Keys from an armoured public key, which cannot sign. -/
def ofPublicArmour (armour : String) : Except Problem KeyMaterial :=
  let armour := Blank.trim armour
  if armour.isEmpty then .error .emptyPublicKey
  else
    match Rsa.keyOctets? armour with
    | none => .error .unreadablePublicKey
    | some octets =>
      .ok ⟨Digest.Sha256.fingerprint (Utf8.encode armour), .rsa (Rsa.PublicKey.ofOctets? octets) none⟩

/-- The message that tries out whether two keys form a pair. -/
def probe : List UInt8 := Utf8.encode "key-material-probe"

/-- Keys from an armoured pair, of which one must verify what the other signs. -/
def ofArmouredPair (privateArmour publicArmour : String) : Except Problem KeyMaterial :=
  match Rsa.keyOctets? (Blank.trim privateArmour) with
  | none => .error .unreadablePrivateKey
  | some octets =>
    match ofPublicArmour publicArmour with
    | .error p => .error p
    | .ok keys =>
      match Rsa.PrivateKey.ofOctets? octets, keys.scheme with
      | some signing, .rsa verifying _ =>
        match signing.sign? probe with
        | none => .error .cannotSign
        | some signature =>
          if verifying.any (·.verifies probe signature) then
            .ok { keys with scheme := .rsa verifying (some signing) }
          else .error .noPair
      | _, _ => .error .cannotSign

/-! ### Signing and verifying -/

/-- The written signature of a message. -/
def sign (k : KeyMaterial) (message : List UInt8) : Except CryptoError (List Char) :=
  match k.scheme with
  | .shared secret => .ok (Base64.encode Base64.urlSafe (Digest.Hmac.code secret message))
  | .rsa _ none => .error (Problem.error .verificationOnly)
  | .rsa _ (some signing) =>
    match signing.sign? message with
    | some signature => .ok (Base64.encode Base64.urlSafe signature)
    | none => .error (.encoding "the key does not verify its own signature")

/-- Whether a written signature is one of a message. -/
def verifies (k : KeyMaterial) (message : List UInt8) (signature : List Char) : Bool :=
  match k.scheme with
  | .shared secret => signature == Base64.encode Base64.urlSafe (Digest.Hmac.code secret message)
  | .rsa verifying _ =>
    match Base64.decode? Base64.urlSafe signature, verifying with
    | some octets, some key => key.verifies message octets
    | _, _ => false

end KeyMaterial

/-! ### Where keys come from -/

inductive KeySource where
  | secret (secret : String)
  | armouredPair (privateArmour publicArmour : String)
  | publicArmour (publicArmour : String)
deriving DecidableEq

namespace KeySource

def algorithm : KeySource → SignatureAlgorithm
  | .secret _ => .hs256
  | _ => .rs256

/-- What logs show of a source. -/
def redacted : KeySource → String
  | .secret _ => "Secret(***)"
  | .armouredPair _ _ => "RsaKeyPair \x7b private_pem: ***, .. \x7d"
  | .publicArmour _ => "RsaPublicKey"

def load : KeySource → Except CryptoError KeyMaterial
  | .secret s => (KeyMaterial.ofSecret s).mapError KeyMaterial.Problem.error
  | .armouredPair priv pub =>
    (KeyMaterial.ofArmouredPair priv pub).mapError KeyMaterial.Problem.error
  | .publicArmour pub => (KeyMaterial.ofPublicArmour pub).mapError KeyMaterial.Problem.error

end KeySource

end TokenAuthority
