import TokenAuthority.Power

/-!
# The key schedule of password hashing

The block cipher that password hashing is made of, with the two ways in which it takes up keys: mixed
with a salt, and without one. Its tables start from the digits of π.
-/

namespace TokenAuthority.Blowfish

/-! ### Digits of π -/

/-- The sum of `scale / (n * x ^ n)` over the odd numbers `n` from `n` on, with alternating signs, given
`power = scale / x ^ n`. It ends where the terms vanish. -/
def arctanSum (square : Nat) : (fuel n power : Nat) → Int
  | 0, _, _ => 0
  | fuel + 1, n, power =>
    if power = 0 then 0 else power / n - arctanSum square fuel (n + 2) (power / square)

def piBits : Nat := 32 * (18 + 1024)

/-- How many further digits the sums are computed with, so that their rounding does not show. -/
def guardBits : Nat := 64

/-- The fraction of π in units of `2 ^ -piBits`, from Machin's formula. -/
def piFraction : Nat :=
  let scale := 2 ^ (piBits + guardBits)
  let arctan (x : Nat) : Int := arctanSum (x * x) piBits 1 (scale / x)
  let pi := 4 * (4 * arctan 5 - arctan 239)
  (pi.toNat - 3 * scale) / 2 ^ guardBits

def piWords : Array UInt32 :=
  Array.ofFn fun i : Fin (18 + 1024) => UInt32.ofNat (piFraction >>> (piBits - 32 * (i.val + 1)))

/-! ### Cipher -/

/-- The tables of the cipher. -/
structure State where
  /-- One word for each round, and two more. -/
  subkeys : Array UInt32
  /-- Four tables of two hundred and fifty-six words each. -/
  boxes : Array UInt32

/-- The tables before any key. -/
def State.initial : State := ⟨piWords.extract 0 18, piWords.extract 18 1042⟩

/-- The function of a round. -/
def mix (boxes : Array UInt32) (x : UInt32) : UInt32 :=
  let a := boxes.getD (x >>> 24).toNat 0
  let b := boxes.getD (256 + (x >>> 16 &&& 0xff).toNat) 0
  let c := boxes.getD (512 + (x >>> 8 &&& 0xff).toNat) 0
  let d := boxes.getD (768 + (x &&& 0xff).toNat) 0
  ((a + b) ^^^ c) + d

/-- The last rounds, as many as given. -/
def rounds (s : State) : (count : Nat) → UInt32 → UInt32 → UInt32 × UInt32
  | 0, l, r => (l, r)
  | n + 1, l, r =>
    let l := l ^^^ s.subkeys.getD (15 - n) 0
    rounds s n (r ^^^ mix s.boxes l) l

def State.encrypt (s : State) (l r : UInt32) : UInt32 × UInt32 :=
  let (a, b) := rounds s 16 l r
  (b ^^^ s.subkeys.getD 17 0, a ^^^ s.subkeys.getD 16 0)

/-! ### Keys -/

/-- A word from its four octets, the most significant first. -/
def word (a b c d : UInt8) : UInt32 :=
  a.toUInt32 <<< 24 ||| b.toUInt32 <<< 16 ||| c.toUInt32 <<< 8 ||| d.toUInt32

/-- As many words as asked for of octets that are repeated. -/
def cyclicWords (octets : List UInt8) (count : Nat) : Array UInt32 :=
  let a := octets.toArray
  let at_ (i : Nat) := a.getD (i % a.size) 0
  Array.ofFn fun i : Fin count =>
    word (at_ (4 * i.val)) (at_ (4 * i.val + 1)) (at_ (4 * i.val + 2)) (at_ (4 * i.val + 3))

/-- Replaces the tables pair by pair, from pair `521 - count` on, by encrypting the pair before mixed
with the halves of the salt in turn. -/
def fill (salt : Array UInt32) : (count : Nat) → UInt32 → UInt32 → State → State
  | 0, _, _, s => s
  | n + 1, l, r, s =>
    let i := 520 - n
    let half := 2 * (i % 2)
    let (l, r) := s.encrypt (l ^^^ salt.getD half 0) (r ^^^ salt.getD (half + 1) 0)
    let s : State := match s with
      | ⟨subkeys, boxes⟩ =>
        if i < 9 then ⟨(subkeys.setIfInBounds (2 * i) l).setIfInBounds (2 * i + 1) r, boxes⟩
        else ⟨subkeys, (boxes.setIfInBounds (2 * i - 18) l).setIfInBounds (2 * i - 17) r⟩
    fill salt n l r s

/-- Takes up a key of eighteen words, mixed with a salt of four. -/
def State.expand (s : State) (salt key : Array UInt32) : State :=
  fill salt 521 0 0 { s with subkeys := s.subkeys.mapIdx fun i w => w ^^^ key.getD i 0 }

/-- The salt that changes nothing. -/
def noSalt : Array UInt32 := #[0, 0, 0, 0]

/-- Takes up a key and then the salt as a key, so many times. -/
def State.stretch (key salt : Array UInt32) : (times : Nat) → State → State
  | 0, s => s
  | n + 1, s => stretch key salt n ((s.expand noSalt key).expand noSalt salt)

end TokenAuthority.Blowfish
