import TokenAuthority.Digest.Sha256
import TokenAuthority.Key.Asn1
import TokenAuthority.Power

/-!
# RSA signatures

Signatures of PKCS #1 version 1.5 over SHA-256, with keys in the form of RFC 8017. A key is usable
only if its numbers have the sizes that are held to be safe and fit one another.
-/

namespace TokenAuthority.Rsa

/-- A key that verifies. -/
structure PublicKey where
  modulus : Nat
  exponent : Nat
deriving DecidableEq

/-- A key that signs, with the factors of the modulus and what speeds up signing. -/
structure PrivateKey where
  publicKey : PublicKey
  exponent : Nat
  primeP : Nat
  primeQ : Nat
  exponentP : Nat
  exponentQ : Nat
  inverseQ : Nat
deriving DecidableEq

/-! ### Arithmetic -/

def bits (n : Nat) : Nat := if n = 0 then 0 else n.log2 + 1

def size (n : Nat) : Nat := (bits n + 7) / 8

/-- `result * base ^ power` modulo `modulus`, by repeated squaring. -/
def powerModFrom (modulus result base power : Nat) : Nat :=
  if power = 0 then result
  else
    let result := if power % 2 = 1 then result * base % modulus else result
    powerModFrom modulus result (base * base % modulus) (power / 2)
termination_by power

def powerMod (modulus base power : Nat) : Nat :=
  powerModFrom modulus (1 % modulus) (base % modulus) power

/-- The octets of a number, the most significant first, in a given count. -/
def octetsOf : (count : Nat) → Nat → List UInt8
  | 0, _ => []
  | count + 1, n => octetsOf count (n / 256) ++ [UInt8.ofNat (n % 256)]

/-! ### Keys -/

/-- Whether a key has a size and an exponent that are accepted. -/
def PublicKey.isUsable (k : PublicKey) (largestModulus smallestExponent : Nat) : Bool :=
  256 ≤ size k.modulus && bits k.modulus ≤ largestModulus && k.modulus % 2 == 1
    && smallestExponent ≤ k.exponent && k.exponent < 2 ^ 33 && k.exponent % 2 == 1

def PublicKey.ofOctets? (octets : List UInt8) : Option PublicKey :=
  match Asn1.naturals? octets with
  | some [n, e] =>
    let key : PublicKey := ⟨n, e⟩
    if key.isUsable 8192 3 then some key else none
  | _ => none

/-- Whether the numbers of a key that signs fit one another. -/
def PrivateKey.isConsistent (k : PrivateKey) : Bool :=
  let half := (bits k.publicKey.modulus + 1) / 2
  let isFactor (prime exponent : Nat) : Bool :=
    prime % 2 == 1 && bits prime == half && exponent % 2 == 1 && exponent < prime
  half % 512 == 0 && isFactor k.primeP k.exponentP && isFactor k.primeQ k.exponentQ
    && k.primeP * k.primeQ == k.publicKey.modulus
    && half < bits k.exponent && k.exponent < k.publicKey.modulus && k.exponent % 2 == 1
    && k.inverseQ < k.primeP && k.inverseQ * k.primeQ % k.primeP == 1

def PrivateKey.ofOctets? (octets : List UInt8) : Option PrivateKey :=
  match Asn1.naturals? octets with
  | some [0, n, e, d, p, q, dP, dQ, qInv] =>
    let key : PrivateKey := ⟨⟨n, e⟩, d, p, q, dP, dQ, qInv⟩
    if key.publicKey.isUsable 4096 65537 && key.isConsistent then some key else none
  | _ => none

/-! ### Signatures -/

/-- What stands before a digest to say that it is one of SHA-256. -/
def digestLabel : List UInt8 :=
  [0x30, 0x31, 0x30, 0x0d, 0x06, 0x09, 0x60, 0x86, 0x48, 0x01, 0x65, 0x03, 0x04, 0x02, 0x01, 0x05,
   0x00, 0x04, 0x20]

/-- The digest of a message, filled up to a count of octets. -/
def paddedDigest (count : Nat) (message : List UInt8) : List UInt8 :=
  let digest := digestLabel ++ Digest.Sha256.hash message
  0 :: 1 :: (List.replicate (count - 3 - digest.length) 0xff ++ 0 :: digest)

def PublicKey.verifies (k : PublicKey) (message signature : List UInt8) : Bool :=
  let count := size k.modulus
  let s := Asn1.natural signature
  signature.length == count && s < k.modulus
    && octetsOf count (powerMod k.modulus s k.exponent) == paddedDigest count message

/-- The number that signs `m`: its power modulo each factor, put together. -/
def PrivateKey.power (k : PrivateKey) (m : Nat) : Nat :=
  let mP := powerMod k.primeP m k.exponentP
  let mQ := powerMod k.primeQ m k.exponentQ
  let h := (mP + (k.primeP - mQ % k.primeP)) * k.inverseQ % k.primeP
  mQ + h * k.primeQ

/-- The signature of a message. There is none if the key does not verify it, as when its numbers do not
belong together. -/
def PrivateKey.sign? (k : PrivateKey) (message : List UInt8) : Option (List UInt8) :=
  let count := size k.publicKey.modulus
  let signature := octetsOf count (k.power (Asn1.natural (paddedDigest count message)))
  if k.publicKey.verifies message signature then some signature else none

end TokenAuthority.Rsa
