import Mathlib.Data.List.Chain
import Mathlib.Order.MinMax
import TokenAuthority.Key.Material

/-!
# Which secrets are refused

A run in a secret is found by counting along its octets; the count begins anew where an octet does not
continue the one before it. Runs are told here without counting, as pieces of the octets.

* `Secret.le_longestRun_iff` — the count finds a run of some length exactly where there is one, be it at the
  front, at the end or right after another run.
* `Secret.occursIn_iff` — a marker is found wherever it stands.
* `Secret.Passes`, `Secret.HasRefusedRun` — what is asked of a secret before runs are looked for, and the runs.
* `Secret.assess_tells` — the assessment answers by these, for every figure that the entropy may have.
-/

namespace TokenAuthority.Secret

/-! ### Runs -/

section Runs

variable {continues : UInt8 → UInt8 → Bool} {b : UInt8} {octets run : List UInt8} {k : Nat}

/-- Octets each of which continues the one before it. -/
def IsRun (continues : UInt8 → UInt8 → Bool) (run : List UInt8) : Prop :=
  run.IsChain fun a b => continues a b = true

/-- How many octets go on with the run that has come to `last`. -/
def lead (continues : UInt8 → UInt8 → Bool) : (last : UInt8) → List UInt8 → Nat
  | _, [] => 0
  | last, b :: rest => if continues last b then lead continues b rest + 1 else 0

theorem lead_cons (last : UInt8) : lead continues last (b :: octets) =
    if continues last b then lead continues b octets + 1 else 0 := rfl

/-- The count along octets, without its state: the run that it stands in may go on, or a later run is longer. -/
theorem longestRunFrom_eq (continues : UInt8 → UInt8 → Bool) (octets : List UInt8) :
    ∀ {longest current : Nat} {last : UInt8}, 1 ≤ longest → current ≤ longest →
      longestRunFrom continues longest current last octets =
        max longest (max (current + lead continues last octets) (longestRun continues octets)) := by
  induction octets with
  | nil =>
      intro longest current last _ within
      simp only [longestRunFrom, lead, longestRun]
      omega
  | cons b rest ih =>
      intro longest current last started within
      have anew : longestRun continues (b :: rest) = _ := ih (Nat.le_refl 1) (Nat.le_refl 1)
      rw [anew, lead_cons]
      unfold longestRunFrom
      split
      · rw [ih (by omega) (by omega)]
        omega
      · rw [ih started started]
        omega

theorem longestRun_cons : longestRun continues (b :: octets) =
    max (1 + lead continues b octets) (longestRun continues octets) := by
  have counted : longestRun continues (b :: octets) = _ :=
    longestRunFrom_eq continues octets (Nat.le_refl 1) (Nat.le_refl 1)
  omega

theorem isRun_take_lead : IsRun continues (b :: octets.take (lead continues b octets)) := by
  induction octets generalizing b with
  | nil => exact List.isChain_singleton b
  | cons c rest ih =>
      rw [lead_cons]
      split
      · rename_i goesOn
        exact List.isChain_cons_cons.mpr ⟨goesOn, ih⟩
      · exact List.isChain_singleton b

theorem lead_le_length : lead continues b octets ≤ octets.length := by
  induction octets generalizing b with
  | nil => exact Nat.le_refl 0
  | cons c rest ih =>
      rw [lead_cons]
      split
      · exact Nat.succ_le_succ ih
      · exact Nat.zero_le _

/-- A run goes no further than the octets that go on with its first one. -/
theorem length_le_of_isRun (front : run <+: b :: octets) (chained : IsRun continues run) :
    run.length ≤ 1 + lead continues b octets := by
  induction octets generalizing b run with
  | nil => exact front.length_le
  | cons c rest ih =>
      rcases List.prefix_cons_iff.mp front with rfl | ⟨tail, rfl, ahead⟩
      · exact Nat.zero_le _
      · rcases List.prefix_cons_iff.mp ahead with rfl | ⟨others, rfl, _⟩
        · exact Nat.le_add_right 1 _
        · obtain ⟨goesOn, chained⟩ := List.isChain_cons_cons.mp chained
          have reach := ih ahead chained
          rw [lead_cons, if_pos goesOn]
          rw [List.length_cons]
          omega

/-- The runs that begin at an octet. -/
theorem exists_run_prefix_iff : (∃ run, run <+: b :: octets ∧ run.length = k ∧ IsRun continues run) ↔
    k ≤ 1 + lead continues b octets := by
  constructor
  · rintro ⟨run, front, rfl, chained⟩
    exact length_le_of_isRun front chained
  · intro reach
    have longest : b :: octets.take (lead continues b octets) <+: b :: octets :=
      (List.prefix_cons_inj b).mpr (List.take_prefix _ _)
    refine ⟨(b :: octets.take (lead continues b octets)).take k, (List.take_prefix _ _).trans longest, ?_,
      isRun_take_lead.take k⟩
    have within : lead continues b octets ≤ octets.length := lead_le_length
    rw [List.length_take, List.length_cons, List.length_take]
    omega

/-- The count finds a run of `k` octets exactly where some `k` octets in a row are one. -/
theorem le_longestRun_iff (continues : UInt8 → UInt8 → Bool) (octets : List UInt8) (k : Nat) :
    k ≤ longestRun continues octets ↔
      ∃ run, run <:+: octets ∧ run.length = k ∧ IsRun continues run := by
  induction octets with
  | nil =>
      simp only [longestRun, Nat.le_zero, List.infix_nil]
      constructor
      · rintro rfl
        exact ⟨[], rfl, rfl, List.isChain_nil⟩
      · rintro ⟨run, rfl, rfl, _⟩
        rfl
  | cons b rest ih =>
      rw [longestRun_cons, le_max_iff, ← exists_run_prefix_iff, ih]
      simp only [List.infix_cons_iff, or_and_right, exists_or]

end Runs

/-! ### Markers -/

/-- A text is found wherever it stands in another one. -/
theorem occursIn_iff {part text : List Char} : occursIn part text = true ↔ part <:+: text := by
  induction text with
  | nil => rw [occursIn, List.isEmpty_iff, List.infix_nil]
  | cons c rest ih =>
      rw [occursIn, Bool.or_eq_true, List.isPrefixOf_iff_prefix, ih, List.infix_cons_iff]

/-- Whether a piece of a text is a marker, but for the case of ASCII letters. -/
def Mentions (secret marker : String) : Prop :=
  ∃ piece, piece <:+: secret.toList ∧ piece.map Char.toLower = marker.toList

theorem isPlaceholder_iff {secret : String} :
    isPlaceholder secret = true ↔ ∃ marker ∈ placeholderMarkers, Mentions secret marker := by
  unfold isPlaceholder Mentions
  simp only [List.any_eq_true, occursIn_iff, List.infix_map_iff]
  simp only [eq_comm]

/-! ### Figures -/

section Figures

open Float.Model

/-- Two figures compare alike from either side. -/
theorem compare_swap (a b : UnpackedFloat) : a.compare b = (b.compare a).map Ordering.swap := by
  have exponents (e f : Int) : compare e f = (compare f e).swap := Std.OrientedCmp.eq_swap
  have mantissas (m n : Nat) : compare m n = (compare n m).swap := Std.OrientedCmp.eq_swap
  rcases a with (_ | _) | _ | (_ | _) | ⟨_ | _, m, e, _⟩ <;>
    rcases b with (_ | _) | _ | (_ | _) | ⟨_ | _, n, f, _⟩ <;>
      first
      | rfl
      | exact congrArg some (by simp only [Ordering.swap_then, ← exponents, ← mantissas])

theorem compare_isSome {a b : UnpackedFloat} (number : a.isNaN = false) (number' : b.isNaN = false) :
    (a.compare b).isSome := by
  rcases a with (_ | _) | _ | (_ | _) | ⟨_ | _, _⟩ <;>
    rcases b with (_ | _) | _ | (_ | _) | ⟨_ | _, _⟩ <;>
      first
      | rfl
      | contradiction

theorem compare_of_isNaN {a b : UnpackedFloat} (odd : a.isNaN = true) : a.compare b = none := by
  cases a with
  | notANumber => rfl
  | infinity | zero | finite => cases odd

theorem lt_iff_compare {a b : Float} :
    a < b ↔ a.toModel.unpack.compare b.toModel.unpack = some .lt := by
  change decide ((a.toModel.unpack.compare b.toModel.unpack == some .lt) = true) = true ↔ _
  rw [decide_eq_true_eq, beq_iff_eq]

theorem le_iff_compare {a b : Float} :
    a ≤ b ↔ (a.toModel.unpack.compare b.toModel.unpack).any Ordering.isLE = true := by
  change decide ((a.toModel.unpack.compare b.toModel.unpack).any (·.isLE) = true) = true ↔ _
  rw [decide_eq_true_eq]

/-- A figure is not less than a number exactly if it is at least that, or is no number. -/
theorem not_lt_iff {a b : Float} (number : b.isNaN = false) : ¬ a < b ↔ (a.isNaN = false → b ≤ a) := by
  rw [lt_iff_compare, le_iff_compare, compare_swap b.toModel.unpack]
  cases odd : a.isNaN with
  | true => simp [compare_of_isNaN odd]
  | false =>
      obtain ⟨order, eq⟩ := Option.isSome_iff_exists.mp (compare_isSome odd number)
      rw [eq]
      cases order <;> decide

end Figures

/-! ### Assessment -/

/-- What is asked of a secret before runs are looked for: that it is long enough, mentions no marker, and has
enough entropy, as far as the figure for that is a number. -/
structure Passes (entropy : Float) (secret : String) : Prop where
  long : 32 ≤ (Utf8.encode secret).length
  unmarked : ∀ marker ∈ placeholderMarkers, ¬ Mentions secret marker
  dense : entropy.isNaN = false → 4 ≤ entropy

/-- Whether four octets in a row are all the same, or each is one more than the one before it. -/
def HasRefusedRun (secret : String) : Prop :=
  ∃ run, run <:+: Utf8.encode secret ∧ run.length = 4 ∧
    (run.IsChain (· = ·) ∨ run.IsChain fun a b => b.toNat = a.toNat + 1)

theorem hasRefusedRun_iff {secret : String} : HasRefusedRun secret ↔
    refusedRun ≤ longestRun repeats (Utf8.encode secret) ∨
      refusedRun ≤ longestRun countsUp (Utf8.encode secret) := by
  simp only [le_longestRun_iff, IsRun, repeats, countsUp, beq_iff_eq, HasRefusedRun, refusedRun,
    ← exists_or, ← and_or_left]

theorem passes_iff {entropy : Float} {secret : String} : Passes entropy secret ↔
    ¬ (Utf8.encode secret).length < minLength ∧ ¬ isPlaceholder secret = true ∧
      ¬ entropy < minEntropy := by
  rw [not_lt_iff (by decide), isPlaceholder_iff, Nat.not_lt]
  constructor
  · rintro ⟨long, unmarked, dense⟩
    exact ⟨long, fun ⟨marker, known, mentions⟩ => unmarked marker known mentions, dense⟩
  · rintro ⟨long, unmarked, dense⟩
    exact ⟨long, fun marker known mentions => unmarked ⟨marker, known, mentions⟩, dense⟩

/-- The ways in which an assessment ends. -/
theorem assessWith_cases (entropy : Float) (secret : String) :
    (¬ Passes entropy secret ∧
      ∃ weakness, weakness ≠ .repeatingOrSequential ∧ assessWith entropy secret = .error weakness) ∨
    (Passes entropy secret ∧ HasRefusedRun secret ∧
      assessWith entropy secret = .error .repeatingOrSequential) ∨
    (Passes entropy secret ∧ ¬ HasRefusedRun secret ∧
      ∃ strength, assessWith entropy secret = .ok strength) := by
  rw [passes_iff, hasRefusedRun_iff]
  unfold assessWith
  by_cases short : (Utf8.encode secret).length < minLength
  · exact .inl ⟨fun passes => passes.1 short, .tooShort, by decide, if_pos short⟩
  rw [if_neg short]
  by_cases marked : isPlaceholder secret = true
  · exact .inl ⟨fun passes => passes.2.1 marked, .placeholder, by decide, if_pos marked⟩
  rw [if_neg marked]
  by_cases thin : entropy < minEntropy
  · exact .inl ⟨fun passes => passes.2.2 thin, .lowEntropy, by decide, if_pos thin⟩
  rw [if_neg thin]
  -- From here on the first three tests are passed.
  refine .inr ?_
  by_cases run : refusedRun ≤ longestRun repeats (Utf8.encode secret) ∨
      refusedRun ≤ longestRun countsUp (Utf8.encode secret)
  · exact .inl ⟨⟨short, marked, thin⟩, run, if_pos run⟩
  · rw [if_neg run]
    refine .inr ⟨⟨short, marked, thin⟩, run, ?_⟩
    split
    · exact ⟨.strong, rfl⟩
    · exact ⟨.acceptable, rfl⟩

theorem accepted_iff {figure : Float} {secret : String} :
    (∃ strength, assessWith figure secret = .ok strength) ↔
      Passes figure secret ∧ ¬ HasRefusedRun secret := by
  rcases assessWith_cases figure secret with
    ⟨fails, weakness, _, refused⟩ | ⟨passes, run, refused⟩ | ⟨passes, none, accepted⟩
  · simp [refused, fails]
  · simp [refused, run]
  · simp [accepted, passes, none]

theorem refusedForRun_iff {figure : Float} {secret : String} :
    assessWith figure secret = .error .repeatingOrSequential ↔
      Passes figure secret ∧ HasRefusedRun secret := by
  rcases assessWith_cases figure secret with
    ⟨fails, weakness, other, refused⟩ | ⟨passes, run, refused⟩ | ⟨passes, none, strength, accepted⟩
  · simp [refused, fails, other]
  · simp [refused, passes, run]
  · simp [accepted, none]

theorem exists_keys_iff {secret : String} : (∃ keys, KeyMaterial.ofSecret secret = .ok keys) ↔
    ∃ strength, assess secret = .ok strength := by
  unfold KeyMaterial.ofSecret
  cases assess secret <;> simp

/-- The assessment accepts a secret exactly if it passes the first three tests and has no run that is refused,
and tells of a run exactly if there is one in a secret that passes them, whatever figure is taken for the
entropy. Keys are made of exactly the secrets that are accepted with their own entropy. Runs of any kind are
found wherever they stand. -/
theorem assess_tells (figure : Float) (secret : String) :
    ((∃ strength, assessWith figure secret = .ok strength) ↔
      Passes figure secret ∧ ¬ HasRefusedRun secret) ∧
    (assessWith figure secret = .error .repeatingOrSequential ↔
      Passes figure secret ∧ HasRefusedRun secret) ∧
    ((∃ keys, KeyMaterial.ofSecret secret = .ok keys) ↔
      Passes (entropy (Utf8.encode secret)) secret ∧ ¬ HasRefusedRun secret) ∧
    ∀ (continues : UInt8 → UInt8 → Bool) (octets : List UInt8) (k : Nat),
      k ≤ longestRun continues octets ↔
        ∃ run, run <:+: octets ∧ run.length = k ∧ run.IsChain fun a b => continues a b = true := by
  refine ⟨accepted_iff, refusedForRun_iff, ?_, le_longestRun_iff⟩
  rw [exists_keys_iff]
  exact accepted_iff

end TokenAuthority.Secret
