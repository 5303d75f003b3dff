import TokenAuthority.Digest.Words
import TokenAuthority.Text.Hex

/-!
# SHA-1

The hash function of FIPS 180-4 with digests of twenty octets. Servers name stored scripts by it.
-/

namespace TokenAuthority.Digest.Sha1

/-- The five words that a block changes. -/
structure State where
  a : UInt32
  b : UInt32
  c : UInt32
  d : UInt32
  e : UInt32

def initial : State :=
  ⟨0x67452301, 0xefcdab89, 0x98badcfe, 0x10325476, 0xc3d2e1f0⟩

/-- The eighty words of a block: its own sixteen, each later one made from those before. -/
def schedule (block : List UInt32) : Array UInt32 :=
  (List.range 64).foldl
    (fun ws _ =>
      let n := ws.size
      ws.push <| rotateLeft
        (ws.getD (n - 3) 0 ^^^ ws.getD (n - 8) 0 ^^^ ws.getD (n - 14) 0 ^^^ ws.getD (n - 16) 0) 1)
    block.toArray

def mix (i : Nat) (b c d : UInt32) : UInt32 :=
  if i < 20 then ((b &&& c) ||| (~~~b &&& d)) + 0x5a827999
  else if i < 40 then (b ^^^ c ^^^ d) + 0x6ed9eba1
  else if i < 60 then ((b &&& c) ||| (b &&& d) ||| (c &&& d)) + 0x8f1bbcdc
  else (b ^^^ c ^^^ d) + 0xca62c1d6

def compress (s : State) (block : List UInt32) : State :=
  let t := (schedule block).toList.zipIdx.foldl
    (fun t wi =>
      let sum := rotateLeft t.a 5 + mix wi.2 t.b t.c t.d + t.e + wi.1
      ⟨sum, t.a, rotateLeft t.b 30, t.c, t.d⟩)
    s
  ⟨s.a + t.a, s.b + t.b, s.c + t.c, s.d + t.d, s.e + t.e⟩

def hash (message : List UInt8) : List UInt8 :=
  let s := (blocks (words (pad message))).foldl compress initial
  [s.a, s.b, s.c, s.d, s.e].flatMap wordOctets

def hexHash (message : List UInt8) : String :=
  Hex.encode (hash message)

end TokenAuthority.Digest.Sha1
