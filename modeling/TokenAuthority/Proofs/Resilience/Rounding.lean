import TokenAuthority.Binary64

/-!
# Bounds that rounding keeps

Every finite number is a whole number of units of `2 ^ minExponent`, so numbers are compared with bounds in
these units. An exact value that is no more than a number of the format is not rounded beyond it, and
therefore a bound that is such a number can be carried through a whole computation: nothing under it ever
becomes infinite or ceases to be a number.

* `Binary64.Representable` — a bound that is a number of the format.
* `Binary64.UpTo` — a number from zero to a bound.
* `upTo_ofRatio`, `UpTo.add`, `UpTo.clamp` — what is computed under a bound stays there.
* `UpTo.toSpan?` — a number of seconds under a bound that fits sixty-four bits is a span.
-/

namespace TokenAuthority.Binary64

/-- How many units make one. -/
def unitsOfOne : Nat := 2 ^ (-minExponent).toNat

/-- Whether a bound, in units, is a number of the format. -/
def Representable (bound : Nat) : Prop := ∃ c k, bound = c * 2 ^ k ∧ c < 2 ^ 53 ∧ k ≤ 2045

/-- Whether a number lies between zero and a bound in units. -/
def UpTo (bound : Nat) : Binary64 → Prop
  | .nan => False
  | .infinite _ => False
  | .finite negative m e => 0 ≤ units negative m e ∧ units negative m e ≤ bound

variable {a b bound numerator denominator : Nat} {x y : Binary64}

theorem unitsOfOne_pos : 0 < unitsOfOne := Nat.two_pow_pos _

/-- A few bits of a whole number of seconds. -/
theorem representable_seconds {c k : Nat} (short : c < 2 ^ 53) (small : k ≤ 971) :
    Representable (c * 2 ^ k * unitsOfOne) := by
  refine ⟨c, k + (-minExponent).toNat, ?_, short, ?_⟩
  · rw [unitsOfOne, Nat.pow_add, Nat.mul_assoc]
  · simp only [minExponent]
    omega

theorem UpTo.mono (upTo : UpTo a x) (le : a ≤ b) : UpTo b x := by
  cases x with
  | nan => exact upTo
  | infinite negative => exact upTo
  | finite negative m e => exact ⟨upTo.1, Int.le_trans upTo.2 (Int.ofNat_le.mpr le)⟩

@[simp]
theorem units_zero (e : Int) : units false 0 e = 0 := by
  simp [units]

theorem upTo_zero : UpTo bound (.finite false 0 0) := by
  constructor <;> simp

theorem ofNat_zero : ofNat 0 = .finite false 0 0 := by
  unfold ofNat ofRatio
  rw [if_pos rfl]

/-- A number from zero to a bound has a sign only where it is zero, and its mantissa at its scale is no more
than the bound. -/
theorem UpTo.size {negative : Bool} {m : Nat} {e : Int} (upTo : UpTo bound (.finite negative m e)) :
    (negative && m != 0) = false ∧ m * 2 ^ (e - minExponent).toNat ≤ bound := by
  obtain ⟨nonneg, le⟩ := upTo
  cases negative with
  | false =>
    change (m : Int) * 2 ^ (e - minExponent).toNat ≤ bound at le
    exact ⟨rfl, by exact_mod_cast le⟩
  | true =>
    change 0 ≤ -((m : Int) * 2 ^ (e - minExponent).toNat) at nonneg
    have nonpos : (m : Int) * 2 ^ (e - minExponent).toNat ≤ 0 := by omega
    have zero : m * 2 ^ (e - minExponent).toNat = 0 := Nat.le_zero.mp (by exact_mod_cast nonpos)
    constructor
    · rcases Nat.mul_eq_zero.mp zero with none | power
      · simp [none]
      · exact absurd power (Nat.ne_of_gt (Nat.two_pow_pos _))
    · rw [zero]
      exact Nat.zero_le bound

/-! ### Rounding -/

/-- No whole number that bounds a fraction is passed by rounding it. -/
theorem nearest_le (le : numerator ≤ bound * denominator) : nearest numerator denominator ≤ bound := by
  rcases Nat.eq_zero_or_pos denominator with rfl | positive
  · have zero : numerator = 0 := by omega
    subst zero
    exact Nat.zero_le bound
  have q_le : numerator / denominator ≤ bound := Nat.div_le_of_le_mul (Nat.mul_comm bound _ ▸ le)
  have parts := Nat.div_add_mod numerator denominator
  unfold nearest
  dsimp only
  by_cases reached : numerator / denominator = bound
  · -- Nothing is left over beyond the bound, so the value is not rounded up.
    have rest : numerator % denominator = 0 := by
      rw [reached, Nat.mul_comm] at parts
      omega
    rw [if_pos (by omega)]
    exact q_le
  · split
    · exact q_le
    · split
      · omega
      · split
        · exact q_le
        · omega

/-- The power of two at the highest bit of a fraction is no more than the fraction. -/
theorem topBit_le (positive : numerator ≠ 0) :
    denominator * 2 ^ (topBit numerator denominator).toNat ≤
      numerator * 2 ^ (-topBit numerator denominator).toNat := by
  unfold topBit
  dsimp only
  split
  · assumption
  · have above : denominator ≤ 2 ^ (denominator.log2 + 1) := Nat.le_of_lt Nat.lt_log2_self
    have below : 2 ^ numerator.log2 ≤ numerator := Nat.log2_self_le positive
    generalize guessed : (numerator.log2 : Int) - denominator.log2 - 1 = g
    calc denominator * 2 ^ g.toNat
      _ ≤ 2 ^ (denominator.log2 + 1) * 2 ^ g.toNat := Nat.mul_le_mul_right _ above
      _ = 2 ^ numerator.log2 * 2 ^ (-g).toNat := by
        rw [← Nat.pow_add, ← Nat.pow_add]
        congr 1
        omega
      _ ≤ numerator * 2 ^ (-g).toNat := Nat.mul_le_mul_right _ below

/-- The scale of a number against the units: its exponent, split into a factor and a divisor. -/
theorem scale_eq {e : Int} (least : minExponent ≤ e) :
    2 ^ (-e).toNat * 2 ^ (e - minExponent).toNat = unitsOfOne * 2 ^ e.toNat := by
  rw [unitsOfOne, ← Nat.pow_add, ← Nat.pow_add]
  congr 1
  simp only [minExponent] at least ⊢
  omega

/-- A fraction under a bound of at most fifty-three bits, the last of them at `k`, has its own last bit at
`k` or below it. -/
theorem lastBit_le {c k : Nat} (positive : numerator ≠ 0) (denominator_pos : 0 < denominator)
    (short : c < 2 ^ 53) (le : numerator * unitsOfOne ≤ c * 2 ^ k * denominator) :
    (Max.max minExponent (topBit numerator denominator - 52) - minExponent).toNat ≤ k := by
  have top : denominator * 2 ^ (topBit numerator denominator).toNat ≤
      numerator * 2 ^ (-topBit numerator denominator).toNat := topBit_le positive
  generalize topBit numerator denominator = t at top ⊢
  rcases Nat.lt_or_ge k (Max.max minExponent (t - 52) - minExponent).toNat with beyond | within
  · -- The highest bit alone would then be more than the bound.
    have least : minExponent ≤ t - 52 := by omega
    have shift : t.toNat + (-minExponent).toNat = 52 + (t - 52 - minExponent).toNat + (-t).toNat := by
      simp only [minExponent] at least ⊢
      omega
    have := calc denominator * (2 ^ t.toNat * unitsOfOne)
      _ = denominator * 2 ^ t.toNat * unitsOfOne := by rw [Nat.mul_assoc]
      _ ≤ numerator * 2 ^ (-t).toNat * unitsOfOne := Nat.mul_le_mul_right _ top
      _ = numerator * unitsOfOne * 2 ^ (-t).toNat := Nat.mul_right_comm ..
      _ ≤ c * 2 ^ k * denominator * 2 ^ (-t).toNat := Nat.mul_le_mul_right _ le
      _ = denominator * (c * 2 ^ k * 2 ^ (-t).toNat) := by ac_rfl
    have := Nat.le_of_mul_le_mul_left this denominator_pos
    rw [unitsOfOne, ← Nat.pow_add, shift] at this
    have strict : c * 2 ^ k * 2 ^ (-t).toNat < 2 ^ 53 * 2 ^ k * 2 ^ (-t).toNat := by
      apply Nat.mul_lt_mul_of_pos_right _ (Nat.two_pow_pos _)
      exact Nat.mul_lt_mul_of_pos_right short (Nat.two_pow_pos _)
    have wide : 2 ^ 53 * 2 ^ k * 2 ^ (-t).toNat ≤
        2 ^ (52 + (t - 52 - minExponent).toNat + (-t).toNat) := by
      rw [← Nat.pow_add, ← Nat.pow_add]
      apply Nat.pow_le_pow_right (by decide)
      omega
    omega
  · exact within

/-- A bound that is a whole multiple of the last bit bounds the rounded mantissa too. -/
theorem mantissa_le {c k : Nat} {e : Int} (least : minExponent ≤ e) (last : (e - minExponent).toNat ≤ k)
    (le : numerator * unitsOfOne ≤ c * 2 ^ k * denominator) :
    nearest (numerator * 2 ^ (-e).toNat) (denominator * 2 ^ e.toNat) ≤
      c * 2 ^ (k - (e - minExponent).toNat) := by
  apply nearest_le
  have := calc numerator * 2 ^ (-e).toNat * 2 ^ (e - minExponent).toNat
    _ = numerator * unitsOfOne * 2 ^ e.toNat := by rw [Nat.mul_assoc, scale_eq least, Nat.mul_assoc]
    _ ≤ c * 2 ^ k * denominator * 2 ^ e.toNat := Nat.mul_le_mul_right _ le
    _ = c * (2 ^ (k - (e - minExponent).toNat) * 2 ^ (e - minExponent).toNat) *
          denominator * 2 ^ e.toNat := by rw [← Nat.pow_add, Nat.sub_add_cancel last]
    _ = c * 2 ^ (k - (e - minExponent).toNat) * (denominator * 2 ^ e.toNat) *
          2 ^ (e - minExponent).toNat := by ac_rfl
  exact Nat.le_of_mul_le_mul_right this (Nat.two_pow_pos _)

/-- A fraction that is no more than a number of the format is not rounded beyond it. -/
theorem upTo_ofRatio (representable : Representable bound) (denominator_pos : 0 < denominator)
    (le : numerator * unitsOfOne ≤ bound * denominator) :
    UpTo bound (ofRatio false numerator denominator) := by
  obtain ⟨c, k, rfl, short, small⟩ := representable
  unfold ofRatio
  by_cases zero : numerator = 0
  · rw [if_pos zero]
    exact upTo_zero
  rw [if_neg zero]
  dsimp only
  have last := lastBit_le zero denominator_pos short le
  have least : minExponent ≤ Max.max minExponent (topBit numerator denominator - 52) := by omega
  generalize Max.max minExponent (topBit numerator denominator - 52) = e at last least ⊢
  have mantissa := mantissa_le least last le
  generalize nearest (numerator * 2 ^ (-e).toNat) (denominator * 2 ^ e.toNat) = m at mantissa ⊢
  have finite : ¬971 < e := by
    simp only [minExponent] at last
    omega
  have short' : ¬(2 ^ 53 ≤ m ∧ 971 ≤ e) := by
    rintro ⟨long, high⟩
    have whole : k - (e - minExponent).toNat = 0 := by
      simp only [minExponent] at last ⊢
      omega
    rw [whole] at mantissa
    omega
  rw [if_neg short', if_neg finite]
  constructor
  · simp only [units]
    exact Int.natCast_nonneg _
  · change (m : Int) * 2 ^ (e - minExponent).toNat ≤ ((c * 2 ^ k : Nat) : Int)
    have := calc m * 2 ^ (e - minExponent).toNat
      _ ≤ c * 2 ^ (k - (e - minExponent).toNat) * 2 ^ (e - minExponent).toNat :=
        Nat.mul_le_mul_right _ mantissa
      _ = c * 2 ^ k := by rw [Nat.mul_assoc, ← Nat.pow_add, Nat.sub_add_cancel last]
    exact_mod_cast this

theorem upTo_ofNat {n : Nat} (representable : Representable bound) (le : n * unitsOfOne ≤ bound) :
    UpTo bound (ofNat n) :=
  upTo_ofRatio representable Nat.one_pos (by rwa [Nat.mul_one])

/-- A sum is under every number of the format that is no less than the sum of the bounds. -/
theorem UpTo.add (upTo : UpTo a x) (upTo' : UpTo b y) (representable : Representable bound)
    (le : a + b ≤ bound) : UpTo bound (x + y) := by
  cases x with
  | nan => exact upTo.elim
  | infinite s => exact upTo.elim
  | finite s m e =>
    cases y with
    | nan => exact upTo'.elim
    | infinite t => exact upTo'.elim
    | finite t n f =>
      obtain ⟨nonneg, le_a⟩ := upTo
      obtain ⟨nonneg', le_b⟩ := upTo'
      change UpTo bound (if units s m e + units t n f = 0 then .finite (s && t) 0 0
        else ofRatio (units s m e + units t n f < 0) (units s m e + units t n f).natAbs unitsOfOne)
      split
      · constructor
        · simp [units]
        · simp only [units]
          omega
      · rw [decide_eq_false (by omega)]
        apply upTo_ofRatio representable unitsOfOne_pos
        apply Nat.mul_le_mul_right
        omega

/-- Whatever is cut to the range from zero to a number under a bound lies under the bound. -/
theorem UpTo.clamp (upTo : UpTo bound y) : UpTo bound ((x.min y).max (ofNat 0)) := by
  -- The smaller of the two is no more than the bound, though it may still be negative.
  have raise : ∀ {s m e}, units s m e ≤ bound → UpTo bound ((Binary64.finite s m e).max (ofNat 0)) := by
    intro s m e le
    simp only [ofNat_zero, Binary64.max, lt, units_zero, decide_eq_true_eq]
    split
    · exact upTo_zero
    · constructor
      · omega
      · exact le
  cases y with
  | nan => exact upTo.elim
  | infinite t => exact upTo.elim
  | finite t n f =>
    cases x with
    | nan => exact raise upTo.2
    | infinite s =>
      cases s with
      | false => exact raise upTo.2
      | true =>
        rw [ofNat_zero]
        exact upTo_zero
    | finite s m e =>
      simp only [Binary64.min, lt, decide_eq_true_eq]
      split
      · exact raise upTo.2
      · apply raise
        have := upTo.2
        omega

/-! ### Spans -/

/-- The length of a span in seconds is under every number of the format that is more than its whole
seconds, where these are counted up to a number of the format themselves. -/
theorem upTo_ofSpan {s : Span} {seconds ceiling : Nat} (le : s.secs ≤ seconds) (above : seconds < ceiling)
    (whole : Representable (seconds * unitsOfOne)) (representable : Representable (ceiling * unitsOfOne)) :
    UpTo (ceiling * unitsOfOne) (ofSpan s) := by
  have fraction : UpTo unitsOfOne (ofRatio false s.subsecNanos Span.nanosPerSecond) := by
    have one : Representable unitsOfOne := by
      simpa using representable_seconds (c := 1) (k := 0) (by decide) (by decide)
    apply upTo_ofRatio one (by decide)
    rw [Nat.mul_comm]
    exact Nat.mul_le_mul_left _ (Nat.le_of_lt (Nat.mod_lt _ (by decide)))
  have secs : UpTo (seconds * unitsOfOne) (ofNat s.secs) :=
    upTo_ofNat whole (Nat.mul_le_mul_right _ le)
  apply secs.add fraction representable
  rw [← Nat.succ_mul]
  exact Nat.mul_le_mul_right _ above

/-- Seconds under a bound that fits sixty-four bits are a span, no longer than the bound. -/
theorem UpTo.toSpan? {seconds : Nat} (upTo : UpTo (seconds * unitsOfOne) x) (fits : seconds < 2 ^ 64) :
    ∃ span, x.toSpan? = some span ∧ span ≤ Span.ofSecs seconds := by
  cases x with
  | nan => exact upTo.elim
  | infinite negative => exact upTo.elim
  | finite negative m e =>
    obtain ⟨unsigned, size⟩ := upTo.size
    have whole : m * 2 ^ e.toNat ≤ seconds * 2 ^ (-e).toNat := by
      have scaled : 2 ^ e.toNat * unitsOfOne ≤ 2 ^ (-e).toNat * 2 ^ (e - minExponent).toNat := by
        rw [unitsOfOne, ← Nat.pow_add, ← Nat.pow_add]
        apply Nat.pow_le_pow_right (by decide)
        simp only [minExponent]
        omega
      have := calc m * 2 ^ e.toNat * unitsOfOne
        _ ≤ m * (2 ^ (-e).toNat * 2 ^ (e - minExponent).toNat) := by
          rw [Nat.mul_assoc]
          exact Nat.mul_le_mul_left _ scaled
        _ = m * 2 ^ (e - minExponent).toNat * 2 ^ (-e).toNat := by ac_rfl
        _ ≤ seconds * unitsOfOne * 2 ^ (-e).toNat := Nat.mul_le_mul_right _ size
        _ = seconds * 2 ^ (-e).toNat * unitsOfOne := Nat.mul_right_comm ..
      exact Nat.le_of_mul_le_mul_right this unitsOfOne_pos
    have nanos : nearest (Span.nanosPerSecond * (m * 2 ^ e.toNat)) (2 ^ (-e).toNat) ≤
        Span.nanosPerSecond * seconds := by
      apply nearest_le
      rw [Nat.mul_assoc]
      exact Nat.mul_le_mul_left _ whole
    refine ⟨⟨nearest (Span.nanosPerSecond * (m * 2 ^ e.toNat)) (2 ^ (-e).toNat)⟩, ?_, nanos⟩
    simp only [Binary64.toSpan?, unsigned]
    rw [if_neg Bool.false_ne_true, if_pos]
    apply Nat.lt_of_le_of_lt nanos
    exact Nat.mul_lt_mul_of_pos_left fits (by decide)

end TokenAuthority.Binary64
