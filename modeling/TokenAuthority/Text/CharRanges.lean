/-!
# Classes of characters as ranges

A class of characters is given by the ranges that it consists of, in rising order and each with both
ends.
-/

namespace TokenAuthority.CharRanges

/-- Whether a character lies in one of the ranges. The first range that does not end before it
decides, for all later ones start after it. -/
def covers (ranges : List (Nat × Nat)) (c : Char) : Bool :=
  match ranges.find? (c.toNat ≤ ·.2) with
  | some r => r.1 ≤ c.toNat
  | none => false

end TokenAuthority.CharRanges
