import TokenAuthority.Power

/-!
# Seconds as signed words

Points of time on tokens are seconds since the start of 1970 in a signed word of sixty-four bits.
Sums that leave its range stay at its nearest end.
-/

namespace TokenAuthority.Seconds

def nearest (n : Int) : Int64 :=
  Int64.ofInt (max (-2 ^ 63) (min n (2 ^ 63 - 1)))

def ofInt? (n : Int) : Option Int64 :=
  if (Int64.ofInt n).toInt = n then some (Int64.ofInt n) else none

/-- A sum that stays at the nearest end of the range. -/
def plus (a b : Int64) : Int64 := nearest (a.toInt + b.toInt)

/-- A difference that stays at the nearest end of the range. -/
def minus (a b : Int64) : Int64 := nearest (a.toInt - b.toInt)

/-- The word nearest to a number. -/
theorem toInt_nearest_eq (n : Int) : (nearest n).toInt = max (-2 ^ 63) (min n (2 ^ 63 - 1)) := by
  unfold nearest
  exact Int64.toInt_ofInt_of_le (by omega) (by omega)

end TokenAuthority.Seconds
