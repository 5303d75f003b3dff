import TokenAuthority.Digest.Sha256
import TokenAuthority.Effect.World
import TokenAuthority.Text.Utf8

/-!
# Seeded randomness

Random values that are fixed by a seed, so that a run can be repeated: the octets of a draw are digests
of the seed, the number of the draw and the number of the block.
-/

namespace TokenAuthority

namespace Randomness

/-- One block of thirty-two octets. -/
def block (seed draw index : Nat) : List UInt8 :=
  Digest.Sha256.hash (Utf8.encode (":".intercalate ([seed, draw, index].map toString)))

/-- The octets of a draw. -/
def seededOctets (seed draw count : Nat) : List UInt8 :=
  ((List.range ((count + 31) / 32)).flatMap (block seed draw)).take count

/-- Randomness from a seed. The factors lie between four fifths and six fifths. -/
def seeded (seed : Nat) : Randomness where
  octets := seededOctets seed
  factor draw :=
    let n := (seededOctets seed draw 4).foldl (fun n b => 256 * n + b.toNat) 0
    Binary64.ofRatio false (8 * 2 ^ 32 + 4 * n) (10 * 2 ^ 32)

end Randomness

/-- A world at the start of its timer, whose service clock stands still. -/
def World.atStart {σ : Type} (cache : σ) (clock : Int64) (breaker : Breaker) (random : Randomness) :
    World σ where
  now := Instant.start
  clock _ := clock
  random
  draws := 0
  breaker
  counts := []
  cache

end TokenAuthority
