/-!
# Words of a block hash

What the block hashes share: octets as words of thirty-two bits, most significant octet first, and
the padding that brings a message to whole blocks of sixty-four octets.
-/

namespace TokenAuthority.Digest

/-- A word from its four octets, the most significant first. -/
def word (a b c d : UInt8) : UInt32 :=
  a.toUInt32 <<< 24 ||| b.toUInt32 <<< 16 ||| c.toUInt32 <<< 8 ||| d.toUInt32

/-- Octets as words; fewer than four octets at the end are left out. -/
def words : List UInt8 → List UInt32
  | a :: b :: c :: d :: rest => word a b c d :: words rest
  | _ => []

/-- The four octets of a word, the most significant first. -/
def wordOctets (w : UInt32) : List UInt8 :=
  [(w >>> 24).toUInt8, (w >>> 16).toUInt8, (w >>> 8).toUInt8, w.toUInt8]

def rotateLeft (w : UInt32) (by_ : UInt32) : UInt32 :=
  w <<< by_ ||| w >>> (32 - by_)

def rotateRight (w : UInt32) (by_ : UInt32) : UInt32 :=
  w >>> by_ ||| w <<< (32 - by_)

/-- The eight octets of a number, the most significant first. -/
def lengthOctets (n : Nat) : List UInt8 :=
  [56, 48, 40, 32, 24, 16, 8, 0].map fun shift => UInt8.ofNat (n >>> shift)

/-- A message, one set bit, as few zeros as fill the last block, and the length in bits. -/
def pad (message : List UInt8) : List UInt8 :=
  let zeros := (119 - message.length % 64) % 64
  message ++ 0x80 :: (List.replicate zeros 0 ++ lengthOctets (8 * message.length))

/-- Words in blocks of sixteen. -/
def blocks (ws : List UInt32) : List (List UInt32) :=
  match ws with
  | [] => []
  | w :: rest => (w :: rest).take 16 :: blocks (rest.drop 15)
termination_by ws.length
decreasing_by simp only [List.length_drop, List.length_cons]; omega

end TokenAuthority.Digest
