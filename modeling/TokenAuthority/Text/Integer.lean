import TokenAuthority.Power

/-!
# Whole numbers in text

Reading a whole number of a given range: a sign or none, then decimal digits and nothing else. A minus
sign is read only where the range has negative numbers. Digits are read from the left, so of two
faults the first one is reported.
-/

namespace TokenAuthority.Integer

/-- Why a text is not a number of the range. -/
inductive ReadError where
  | empty
  | invalidDigit
  | tooLarge
  | tooSmall
deriving DecidableEq

def ReadError.message : ReadError → String
  | .empty => "cannot parse integer from empty string"
  | .invalidDigit => "invalid digit found in string"
  | .tooLarge => "number too large to fit in target type"
  | .tooSmall => "number too small to fit in target type"

def digit? (c : Char) : Option Nat :=
  if '0' ≤ c ∧ c ≤ '9' then some (c.toNat - 48) else none

/-- Reads digits onto the number `value` read so far, as long as it stays within `bound`. -/
def readDigits (bound : Nat) (overflow : ReadError) : (value : Nat) → List Char → Except ReadError Nat
  | value, [] => .ok value
  | value, c :: rest =>
    match digit? c with
    | none => .error .invalidDigit
    | some d =>
      let next := 10 * value + d
      if bound < next then .error overflow else readDigits bound overflow next rest

/-- Reads a number from `-below` to `above`. -/
def read (below above : Nat) : List Char → Except ReadError Int
  | [] => .error .empty
  | [c] => (readDigits above .tooLarge 0 [c]).map Int.ofNat
  | '+' :: rest => (readDigits above .tooLarge 0 rest).map Int.ofNat
  | '-' :: rest =>
    if below = 0 then .error .invalidDigit
    else (readDigits below .tooSmall 0 rest).map fun n => -Int.ofNat n
  | cs => (readDigits above .tooLarge 0 cs).map Int.ofNat

/-- Reads a number of the unsigned word with this many bits. -/
def readUnsigned (bits : Nat) (text : String) : Except ReadError Nat :=
  (read 0 (2 ^ bits - 1) text.toList).map Int.toNat

/-- Reads a number of the signed word of sixty-four bits. -/
def readInt64 (text : String) : Except ReadError Int :=
  read (2 ^ 63) (2 ^ 63 - 1) text.toList

/-- The number of the unsigned word of sixty-four bits that a text gives, if it gives one. -/
def uint64? (text : String) : Option UInt64 :=
  match readUnsigned 64 text with
  | .ok n => some (UInt64.ofNat n)
  | .error _ => none

end TokenAuthority.Integer
