import TokenAuthority.Time.Span

/-!
# Instants of the timer

The timer counts nanoseconds from its start. Deadlines lie on its ticks of one millisecond: a
deadline between two ticks is kept at the later one (`Instant.deadlineTick`), and the timer has
reached a tick once its own time is not before it.
-/

namespace TokenAuthority

/-- A reading of the timer. -/
structure Instant where
  nanoseconds : Nat
deriving DecidableEq

namespace Instant

def start : Instant := ⟨0⟩

instance : LE Instant := ⟨fun a b => a.nanoseconds ≤ b.nanoseconds⟩
instance : LT Instant := ⟨fun a b => a.nanoseconds < b.nanoseconds⟩

instance (a b : Instant) : Decidable (a ≤ b) :=
  inferInstanceAs (Decidable (a.nanoseconds ≤ b.nanoseconds))
instance (a b : Instant) : Decidable (a < b) :=
  inferInstanceAs (Decidable (a.nanoseconds < b.nanoseconds))

def after (t : Instant) (s : Span) : Instant := ⟨t.nanoseconds + s.nanoseconds⟩

/-- The span from one instant to a later one, empty if it is not later. -/
def since (t earlier : Instant) : Span := ⟨t.nanoseconds - earlier.nanoseconds⟩

/-- The instant a span later, as long as its seconds stay below the largest signed word of sixty-four
bits. -/
def after? (t : Instant) (s : Span) : Option Instant :=
  if (t.nanoseconds + s.nanoseconds) / Span.nanosPerSecond < 2 ^ 63 - 1 then some (t.after s)
  else none

/-- The last tick that has been reached. -/
def tick (t : Instant) : Nat := t.nanoseconds / Span.nanosPerMilli

/-- The first tick that is not before the instant. -/
def ceilTick (t : Instant) : Nat :=
  (t.nanoseconds + (Span.nanosPerMilli - 1)) / Span.nanosPerMilli

/-- A span that no caller waits out: thirty years. It stands in for one whose end is no instant. -/
def farFuture : Span := Span.ofSecs (86400 * 365 * 30)

/-- The tick on which a deadline falls that is set for a span from now. -/
def deadlineTick (t : Instant) (s : Span) : Nat :=
  ((t.after? s).getD (t.after farFuture)).ceilTick

/-- Moves the timer by whole ticks until it has reached a tick. -/
def advanceTo (t : Instant) (tick : Nat) : Instant :=
  ⟨t.nanoseconds + Span.nanosPerMilli * (tick - t.tick)⟩

/-- Each instant of a list is not before any that stands in front of it. -/
def InOrder (times : List Instant) : Prop := times.Pairwise (· ≤ ·)

instance (times : List Instant) : Decidable (InOrder times) :=
  inferInstanceAs (Decidable (times.Pairwise (· ≤ ·)))

theorem after?_eq_some {t : Instant} {s : Span} (inRange : (t.after? s).isSome) :
    t.after? s = some (t.after s) := by
  unfold after? at inRange ⊢
  split at inRange
  · rw [if_pos ‹_›]
  · cases inRange

/-- What lies in the range of the timer from an instant on does so from an earlier one on. -/
theorem isSome_after?_of_le {t t' : Instant} {s : Span} (le : t ≤ t') (inRange : (t'.after? s).isSome) :
    (t.after? s).isSome := by
  unfold after? at inRange ⊢
  split at inRange
  · rename_i below
    rw [if_pos]
    · rfl
    · exact Nat.lt_of_le_of_lt (Nat.div_le_div_right (Nat.add_le_add_right le _)) below
  · cases inRange

/-- Moving to a tick reaches it, or stays where the tick had been reached before. -/
theorem tick_advanceTo (t : Instant) (k : Nat) : (t.advanceTo k).tick = max t.tick k := by
  simp only [advanceTo, tick, Span.nanosPerMilli]
  omega

/-- Moving to a tick never goes back. -/
theorem le_advanceTo (t : Instant) (k : Nat) : t ≤ t.advanceTo k :=
  Nat.le_add_right _ _

end Instant

end TokenAuthority
