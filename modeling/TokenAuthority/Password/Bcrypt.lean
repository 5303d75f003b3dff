import TokenAuthority.Password.Blowfish
import TokenAuthority.Text.Base64
import TokenAuthority.Text.Integer
import TokenAuthority.Text.Split
import TokenAuthority.Text.Utf8

/-!
# Password hashes

The slow hash of passwords and the text in which it is stored: version, cost, salt and digest. The
hash reads the octets of the password and one zero octet, seventy-two of them at most.
-/

namespace TokenAuthority.Bcrypt

def minCost : Nat := 4

def maxCost : Nat := 31

def saltLength : Nat := 16

/-- How many octets of a key are read. -/
def keyLimit : Nat := 72

/-- The octets that stand for a password. -/
def keyOf (password : String) : List UInt8 :=
  (Utf8.encode password ++ [0]).take keyLimit

/-- The text that is encrypted, in words. -/
def plainText : List UInt32 :=
  (Blowfish.cyclicWords (Utf8.encode "OrpheanBeholderScryDoubt") 6).toList

/-- Encrypts a block again and again. -/
def encryptTimes (s : Blowfish.State) : (times : Nat) → UInt32 × UInt32 → UInt32 × UInt32
  | 0, block => block
  | n + 1, block => encryptTimes s n (s.encrypt block.1 block.2)

/-- The blocks of two words, each encrypted sixty-four times, as octets. -/
def encryptBlocks (s : Blowfish.State) : List UInt32 → List UInt8
  | l :: r :: rest =>
    let (l, r) := encryptTimes s 64 (l, r)
    let octets (w : UInt32) : List UInt8 :=
      [(w >>> 24).toUInt8, (w >>> 16).toUInt8, (w >>> 8).toUInt8, w.toUInt8]
    octets l ++ octets r ++ encryptBlocks s rest
  | _ => []

/-- The digest of a key under a salt, of twenty-three octets. -/
def digest (cost : Nat) (salt key : List UInt8) : List UInt8 :=
  let keyWords := Blowfish.cyclicWords key 18
  let saltWords := Blowfish.cyclicWords salt 18
  let s := (Blowfish.State.initial).expand (saltWords.extract 0 4) keyWords
  let s := Blowfish.State.stretch keyWords saltWords (2 ^ cost) s
  (encryptBlocks s plainText).take 23

/-! ### Stored form -/

/-- What is stored of a password. -/
structure Stored where
  cost : Nat
  salt : List UInt8
  digest : List UInt8
deriving DecidableEq

namespace Stored

def saltText (salt : List UInt8) : String :=
  String.ofList (Base64.encode Base64.passwordHash salt)

def twoDigits (n : Nat) : List Char :=
  let ds := Nat.toDigits 10 n
  List.replicate (2 - ds.length) '0' ++ ds

def chars (s : Stored) : List Char :=
  "$2b$".toList ++ twoDigits s.cost ++ '$' :: (Base64.encode Base64.passwordHash s.salt
    ++ Base64.encode Base64.passwordHash s.digest)

/-- The stored form. -/
def text (s : Stored) : String := String.ofList s.chars

def versions : List String := ["2y", "2b", "2a", "2x"]

/-- Reads a stored form: version, cost, and salt and digest together, behind dollar signs, of which there
may be more than needed. -/
def parse? (text : String) : Option Stored := do
  match (Split.on '$' text.toList).filter (!·.isEmpty) with
  | [version, cost, rest] =>
    if versions.contains (String.ofList version) then
      let .ok cost := Integer.readUnsigned 32 (String.ofList cost) | none
      if (Utf8.encode (String.ofList rest)).length = 53 then
        let salt ← Base64.decode? Base64.passwordHash (rest.take 22)
        let digest ← Base64.decode? Base64.passwordHash (rest.drop 22)
        return { cost, salt, digest }
      else none
    else none
  | _ => none

end Stored

/-- What is stored of a password under a salt. -/
def hash (cost : Nat) (salt : List UInt8) (password : String) : Stored :=
  ⟨cost, salt, digest cost salt (keyOf password)⟩

/-- Whether a cost is one that hashes can have. -/
def isCost (cost : Nat) : Bool := minCost ≤ cost && cost ≤ maxCost

/-- Whether a password is the one that a stored form was made of. A text that is no stored form belongs
to no password. -/
def verify (password stored : String) : Bool :=
  match Stored.parse? stored with
  | some s => isCost s.cost && digest s.cost s.salt (keyOf password) == s.digest
  | none => false

end TokenAuthority.Bcrypt
