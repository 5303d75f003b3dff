/-!
# Hexadecimal text

Octets are written as two lower-case hexadecimal digits each, and read back from digits of either
case.
-/

namespace TokenAuthority.Hex

def digit (n : Nat) : Char :=
  if n < 10 then Char.ofNat (48 + n) else Char.ofNat (87 + n)

/-- The number that a hexadecimal digit of either case stands for. -/
def digit? (c : Char) : Option Nat :=
  if '0' ≤ c ∧ c ≤ '9' then some (c.toNat - 48)
  else if 'a' ≤ c ∧ c ≤ 'f' then some (c.toNat - 87)
  else if 'A' ≤ c ∧ c ≤ 'F' then some (c.toNat - 55)
  else none

def encode (octets : List UInt8) : String :=
  String.ofList (octets.flatMap fun b => [digit (b.toNat / 16), digit (b.toNat % 16)])

/-- Reads an even number of digits as octets. -/
def ofChars? : List Char → Option (List UInt8)
  | [] => some []
  | [_] => none
  | h :: l :: rest => do
    let hi ← digit? h
    let lo ← digit? l
    let tail ← ofChars? rest
    return UInt8.ofNat (16 * hi + lo) :: tail

def decode? (text : String) : Option (List UInt8) :=
  ofChars? text.toList

end TokenAuthority.Hex
