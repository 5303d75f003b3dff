import TokenAuthority.Power

/-!
# Spans of time

A span is a whole number of nanoseconds. Readers that know seconds and the rest get them from
`secs` and `subsecNanos`; `limit` is the first span whose seconds no longer fit an unsigned word of
sixty-four bits.
-/

namespace TokenAuthority

/-- A length of time. -/
structure Span where
  nanoseconds : Nat
deriving DecidableEq

namespace Span

def nanosPerSecond : Nat := 1000000000

def nanosPerMilli : Nat := 1000000

def ofSecs (n : Nat) : Span := ⟨nanosPerSecond * n⟩

def ofMillis (n : Nat) : Span := ⟨nanosPerMilli * n⟩

def ofParts (secs nanos : Nat) : Span := ⟨nanosPerSecond * secs + nanos⟩

def zero : Span := ⟨0⟩

def secs (s : Span) : Nat := s.nanoseconds / nanosPerSecond

/-- The nanoseconds beyond the whole seconds. -/
def subsecNanos (s : Span) : Nat := s.nanoseconds % nanosPerSecond

def millis (s : Span) : Nat := s.nanoseconds / nanosPerMilli

/-- The first span whose seconds do not fit sixty-four bits. -/
def limit : Span := ofSecs (2 ^ 64)

instance : LE Span := ⟨fun a b => a.nanoseconds ≤ b.nanoseconds⟩
instance : LT Span := ⟨fun a b => a.nanoseconds < b.nanoseconds⟩

instance (a b : Span) : Decidable (a ≤ b) := inferInstanceAs (Decidable (a.nanoseconds ≤ b.nanoseconds))
instance (a b : Span) : Decidable (a < b) := inferInstanceAs (Decidable (a.nanoseconds < b.nanoseconds))

/-- Two spans one after the other, when the seconds still fit. -/
def add? (a b : Span) : Option Span :=
  let sum : Span := ⟨a.nanoseconds + b.nanoseconds⟩
  if sum < limit then some sum else none

/-- A span repeated, when the seconds still fit. -/
def times? (a : Span) (n : Nat) : Option Span :=
  let product : Span := ⟨a.nanoseconds * n⟩
  if product < limit then some product else none

/-- A time to live in whole seconds: what is below a second is cut off, but at least one second is
left. -/
def lifetimeSecs (s : Span) : Nat := max s.secs 1

@[simp]
theorem secs_ofSecs (n : Nat) : (ofSecs n).secs = n :=
  Nat.mul_div_cancel_left n (by decide)

@[simp]
theorem lifetimeSecs_ofSecs (n : Nat) : (ofSecs n).lifetimeSecs = max n 1 := by
  rw [lifetimeSecs, secs_ofSecs]

/-! ### Text -/

/-- The digits of a fraction of `10 ^ places`, without zeros at the end. -/
def fractionDigits (places fraction : Nat) : List Char :=
  let ds := Nat.toDigits 10 fraction
  let all := List.replicate (places - ds.length) '0' ++ ds
  (all.reverse.dropWhile (· == '0')).reverse

/-- A number of units with a fraction of `10 ^ places` and the name of the unit. -/
def inUnit (whole places fraction : Nat) (unit : String) : String :=
  let digits := if fraction = 0 then [] else fractionDigits places fraction
  let point := if digits.isEmpty then [] else '.' :: digits
  toString whole ++ String.ofList point ++ unit

/-- A span in the largest unit of which it holds at least one, in as many decimals as it needs. -/
def text (s : Span) : String :=
  if 0 < s.secs then inUnit s.secs 9 s.subsecNanos "s"
  else if nanosPerMilli ≤ s.nanoseconds then
    inUnit (s.nanoseconds / nanosPerMilli) 6 (s.nanoseconds % nanosPerMilli) "ms"
  else if 1000 ≤ s.nanoseconds then inUnit (s.nanoseconds / 1000) 3 (s.nanoseconds % 1000) "µs"
  else inUnit s.nanoseconds 0 0 "ns"

end Span

end TokenAuthority
