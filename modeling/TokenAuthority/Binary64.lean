import TokenAuthority.Time.Span

/-!
# Binary floating-point numbers

The numbers of the binary format of sixty-four bits and the few operations on them that delays are
computed with. Each operation is exact in the natural numbers and rounds once, to the nearest number
of the format and from a tie to the even one.
-/

namespace TokenAuthority

/-- A number of the format. A finite one is `mantissa * 2 ^ exponent`, negated where `negative`. -/
inductive Binary64 where
  | nan
  | infinite (negative : Bool)
  | finite (negative : Bool) (mantissa : Nat) (exponent : Int)
deriving DecidableEq

namespace Binary64

def minExponent : Int := -1074

/-- `numerator / denominator` rounded to a whole number, from a tie to the even one. -/
def nearest (numerator denominator : Nat) : Nat :=
  let q := numerator / denominator
  let r := numerator % denominator
  if 2 * r < denominator then q
  else if denominator < 2 * r then q + 1
  else if q % 2 = 0 then q else q + 1

/-- The exponent of the highest bit of a positive fraction. -/
def topBit (numerator denominator : Nat) : Int :=
  let guess : Int := (numerator.log2 : Int) - denominator.log2
  if denominator * 2 ^ guess.toNat ≤ numerator * 2 ^ (-guess).toNat then guess else guess - 1

/-- The number nearest to `numerator / denominator`. -/
def ofRatio (negative : Bool) (numerator denominator : Nat) : Binary64 :=
  if numerator = 0 then .finite negative 0 0
  else
    let e := max minExponent (topBit numerator denominator - 52)
    let m := nearest (numerator * 2 ^ (-e).toNat) (denominator * 2 ^ e.toNat)
    if 2 ^ 53 ≤ m ∧ 971 ≤ e then .infinite negative
    else if 971 < e then .infinite negative
    else .finite negative m e

def ofNat (n : Nat) : Binary64 := ofRatio false n 1

/-- The number nearest to `significand * 10 ^ exponent`. -/
def ofDecimal (negative : Bool) (significand : Nat) (exponent : Int) : Binary64 :=
  ofRatio negative (significand * 10 ^ exponent.toNat) (10 ^ (-exponent).toNat)

/-- Whether a number is less than zero; `-0` and what is no number are not. -/
def isNegative : Binary64 → Bool
  | .nan => false
  | .infinite negative => negative
  | .finite negative m _ => negative && m != 0

def mul : Binary64 → Binary64 → Binary64
  | .nan, _ => .nan
  | _, .nan => .nan
  | .infinite s, .infinite t => .infinite (s != t)
  | .infinite s, .finite t m _ => if m = 0 then .nan else .infinite (s != t)
  | .finite s m _, .infinite t => if m = 0 then .nan else .infinite (s != t)
  | .finite s m e, .finite t n f =>
    let g := e + f
    ofRatio (s != t) (m * n * 2 ^ g.toNat) (2 ^ (-g).toNat)

/-- A finite number in units of `2 ^ minExponent`. -/
def units (negative : Bool) (mantissa : Nat) (exponent : Int) : Int :=
  let size : Int := mantissa * 2 ^ (exponent - minExponent).toNat
  if negative then -size else size

def add : Binary64 → Binary64 → Binary64
  | .nan, _ => .nan
  | _, .nan => .nan
  | .infinite s, .infinite t => if s = t then .infinite s else .nan
  | .infinite s, .finite _ _ _ => .infinite s
  | .finite _ _ _, .infinite t => .infinite t
  | .finite s m e, .finite t n f =>
    let sum := units s m e + units t n f
    if sum = 0 then .finite (s && t) 0 0
    else ofRatio (sum < 0) sum.natAbs (2 ^ (-minExponent).toNat)

instance : Mul Binary64 := ⟨mul⟩
instance : Add Binary64 := ⟨add⟩

/-- Whether one number is less than another; nothing is compared with what is no number. -/
def lt : Binary64 → Binary64 → Bool
  | .nan, _ => false
  | _, .nan => false
  | .infinite s, .infinite t => s && !t
  | .infinite s, .finite _ _ _ => s
  | .finite _ _ _, .infinite t => !t
  | .finite s m e, .finite t n f => units s m e < units t n f

/-- The smaller of two numbers; what is no number gives way to the other. -/
def min : Binary64 → Binary64 → Binary64
  | .nan, y => y
  | x, .nan => x
  | x, y => if lt y x then y else x

/-- The larger of two numbers; what is no number gives way to the other. -/
def max : Binary64 → Binary64 → Binary64
  | .nan, y => y
  | x, .nan => x
  | x, y => if lt x y then y else x

/-- Repeated squaring: `result * base ^ power`, each product rounded. -/
def powerFrom (result base : Binary64) (power : Nat) : Binary64 :=
  if power = 0 then result
  else
    let result := if power % 2 = 1 then result * base else result
    if power / 2 = 0 then result else powerFrom result (base * base) (power / 2)
termination_by power

/-- A natural power by repeated squaring. -/
def power (base : Binary64) (n : Nat) : Binary64 :=
  powerFrom (ofNat 1) base n

/-! ### Spans of time -/

/-- A span in seconds: its whole seconds and its fraction, each rounded, then added. -/
def ofSpan (s : Span) : Binary64 :=
  ofNat s.secs + ofRatio false s.subsecNanos Span.nanosPerSecond

/-- Seconds as a span, rounded to the nearest nanosecond and from a tie to the even one. There is none
below zero, for what is no number, or where the seconds do not fit sixty-four bits. -/
def toSpan? : Binary64 → Option Span
  | .nan => none
  | .infinite _ => none
  | .finite negative m e =>
    if negative && m != 0 then none
    else
      let nanos := nearest (Span.nanosPerSecond * (m * 2 ^ e.toNat)) (2 ^ (-e).toNat)
      let span : Span := ⟨nanos⟩
      if span < Span.limit then some span else none

end Binary64

end TokenAuthority
