import TokenAuthority.Json.Parser
import TokenAuthority.Json.Printer

/-!
# Strings and numbers are read back

What `quoted` and `Number.chars` write, `stringBody` and `number?` read. A string is closed by its own
quote; a number has no end of its own, so what follows it must not go on with it (`Apart`).

* `stringBody_quoted` — every string is read back, whatever characters it holds.
* `number?_chars` — every number within the limits of the reader (`Number.Fits`) is read back.
-/

namespace TokenAuthority.Json

/-! ### Strings -/

theorem digit?_digit {v : Nat} (lt : v < 16) : Hex.digit? (Hex.digit v) = some v := by
  have all : ∀ v : Fin 16, Hex.digit? (Hex.digit v) = some v.val := by decide +kernel
  exact all ⟨v, lt⟩

/-- The number of a character below 256 is read back from four digits. -/
theorem hex4?_digits {n : Nat} (lt : n < 256) :
    hex4? '0' '0' (Hex.digit (n / 16)) (Hex.digit (n % 16)) = some n := by
  have zero : Hex.digit? '0' = some 0 := by decide +kernel
  simp only [hex4?, zero, digit?_digit (show n / 16 < 16 by omega),
    digit?_digit (show n % 16 < 16 by omega), Option.bind_eq_bind, Option.bind_some, Option.pure_def]
  rw [show ((0 * 16 + 0) * 16 + n / 16) * 16 + n % 16 = n by omega]

/-- A control character is read back from the escape by its number. -/
theorem stringBody_control {c : Char} (rest : List Char) (control : c.toNat < 32) :
    stringBody ('\\' :: 'u' :: '0' :: '0' :: Hex.digit (c.toNat / 16) :: Hex.digit (c.toNat % 16)
      :: rest) = (stringBody rest).map fun r => (c :: r.1, r.2) := by
  have high : isHighSurrogate c.toNat = false := by
    simp only [isHighSurrogate, Bool.and_eq_false_iff, decide_eq_false_iff_not]
    omega
  have low : isLowSurrogate c.toNat = false := by
    simp only [isLowSurrogate, Bool.and_eq_false_iff, decide_eq_false_iff_not]
    omega
  rw [stringBody.eq_3]
  simp [hex4?_digits (show c.toNat < 256 by omega), high, low, Char.ofNat_toNat]

/-- A character that is written as it is is read as it is. -/
theorem stringBody_plain {c : Char} (rest : List Char) (quote : c ≠ '"') (escape : c ≠ '\\')
    (control : ¬ c.toNat < 32) :
    stringBody (c :: rest) = (stringBody rest).map fun r => (c :: r.1, r.2) := by
  rw [stringBody.eq_5]
  · rw [if_neg control]
  · exact quote
  · intro _ _ _ _ _ same _
    exact escape same
  · intro _ _ same _
    exact escape same

/-- Every character of a string is read back. -/
theorem stringBody_escapedChar (c : Char) (rest : List Char) :
    stringBody (escapedChar c ++ rest) = (stringBody rest).map fun r => (c :: r.1, r.2) := by
  unfold escapedChar
  split
  · subst c; simp [stringBody, simpleEscape?]
  split
  · subst c; simp [stringBody, simpleEscape?]
  split
  · subst c; simp [stringBody, simpleEscape?]
  split
  · subst c; simp [stringBody, simpleEscape?]
  split
  · subst c; simp [stringBody, simpleEscape?]
  split
  · subst c; simp [stringBody, simpleEscape?]
  split
  · subst c; simp [stringBody, simpleEscape?]
  split
  · exact stringBody_control rest ‹_›
  · exact stringBody_plain rest ‹_› ‹_› ‹_›

/-- A string is read back up to the quote that closes it. -/
theorem stringBody_quoted (text rest : List Char) :
    stringBody (text.flatMap escapedChar ++ '"' :: rest) = some (text, rest) := by
  induction text with
  | nil => simp [stringBody]
  | cons c text ih =>
      rw [List.flatMap_cons, List.append_assoc, stringBody_escapedChar, ih]
      rfl

/-! ### Digits -/

/-- A text does not begin with a digit. -/
def NoDigit (rest : List Char) : Prop := ∀ c ∈ rest.head?, c.isDigit = false

theorem isDigit_of_mem_naturalChars {n : Nat} {c : Char} (mem : c ∈ naturalChars n) :
    c.isDigit = true :=
  Nat.isDigit_of_mem_toDigits (by decide) (by decide) mem

/-- The digits of a number are cut off where they end. -/
theorem digits_naturalChars (n : Nat) {rest : List Char} (noDigit : NoDigit rest) :
    digits (naturalChars n ++ rest) = (naturalChars n, rest) := by
  have all : ∀ c ∈ naturalChars n, c.isDigit = true := fun c => isDigit_of_mem_naturalChars
  unfold digits
  rw [List.takeWhile_append_of_pos all, List.dropWhile_append_of_pos all]
  cases rest with
  | nil => simp
  | cons c rest => simp [noDigit c rfl]

theorem ofDigits_naturalChars (n : Nat) : ofDigits (naturalChars n) = n := by
  have value : Nat.ofDigitChars 10 (Nat.toDigits 10 n) 0 = n := Nat.ofDigitChars_ten_toDigits
  rw [Nat.ofDigitChars_eq_foldl] at value
  exact value

/-- Only zero is written with a zero in front. -/
theorem head?_naturalChars {n : Nat} (positive : 0 < n) : (naturalChars n).head? ≠ some '0' := by
  induction n using Nat.strongRecOn with
  | ind n ih =>
      unfold naturalChars at ih ⊢
      rw [Nat.toDigits_eq_if (by decide)]
      by_cases small : n < 10
      · rw [if_pos small]
        have all : ∀ n : Fin 10, 0 < n.val → [n.val.digitChar].head? ≠ some '0' := by decide
        exact all ⟨n, small⟩ positive
      · rw [if_neg small, List.head?_append]
        intro zero
        rcases Option.or_eq_some_iff.mp zero with front | ⟨empty, _⟩
        · exact ih (n / 10) (by omega) (by omega) front
        · exact Nat.toDigits_ne_nil (List.head?_eq_none_iff.mp empty)

/-- The digits that are written are those that may be read. -/
theorem wellFormed_naturalChars (n : Nat) : ¬ ((naturalChars n).isEmpty ∨
    ((naturalChars n).head? = some '0' ∧ 1 < (naturalChars n).length)) := by
  rintro (empty | ⟨zero, long⟩)
  · exact Nat.toDigits_ne_nil (List.isEmpty_iff.mp empty)
  · cases n with
    | zero => simp [naturalChars, Nat.toDigits_zero] at long
    | succ n => exact head?_naturalChars (Nat.succ_pos n) zero

/-! ### Numbers -/

/-- What follows a number does not go on with it. -/
def Apart (rest : List Char) : Prop :=
  ∀ c ∈ rest.head?, c.isDigit = false ∧ c ≠ '.' ∧ c ≠ 'e' ∧ c ≠ 'E'

theorem Apart.noDigit {rest : List Char} (apart : Apart rest) : NoDigit rest :=
  fun c here => (apart c here).1

/-- The reader can give the number: a whole number fits sixty-four bits, any other one is not too large. -/
def Number.Fits : Number → Prop
  | .whole n => -2 ^ 63 ≤ n ∧ n < 2 ^ 64
  | .decimal _ significand exponent => inRange significand exponent = true

theorem fraction?_apart {rest : List Char} (noPoint : rest.head? ≠ some '.') :
    fraction? rest = some (none, rest) := by
  cases rest with
  | nil => rfl
  | cons c rest =>
      refine fraction?.eq_2 _ ?_
      rintro _ same
      cases same
      exact noPoint rfl

theorem exponent?_apart {rest : List Char} (apart : Apart rest) :
    exponent? rest = some (none, rest) := by
  cases rest with
  | nil => rfl
  | cons c rest =>
      obtain ⟨_, _, lower, upper⟩ := apart c rfl
      simp [exponent?, lower, upper]

/-- The digits of a number begin with a digit, so with no sign. -/
theorem exists_naturalChars (n : Nat) :
    ∃ d ds, naturalChars n = d :: ds ∧ d.isDigit = true ∧ d ≠ '-' ∧ d ≠ '+' := by
  cases written : naturalChars n with
  | nil => exact absurd written Nat.toDigits_ne_nil
  | cons d ds =>
      have isDigit : d.isDigit = true :=
        isDigit_of_mem_naturalChars (n := n) (written ▸ List.mem_cons_self)
      refine ⟨d, ds, rfl, isDigit, ?_, ?_⟩
      · rintro rfl
        exact absurd isDigit (by decide)
      · rintro rfl
        exact absurd isDigit (by decide)

/-- An exponent is read back with its sign. -/
theorem exponent?_intChars (n : Int) {rest : List Char} (apart : Apart rest) :
    exponent? ('e' :: (intChars n ++ rest)) = some (some n, rest) := by
  have some : (naturalChars n.natAbs).isEmpty = false :=
    Bool.eq_false_iff.mpr fun empty => wellFormed_naturalChars n.natAbs (.inl empty)
  have read := digits_naturalChars n.natAbs apart.noDigit
  unfold intChars
  by_cases negative : n < 0
  · rw [if_pos negative]
    simp only [exponent?, List.cons_append, if_true, true_or, read, some, Bool.false_eq_true, if_false,
      ofDigits_naturalChars]
    rw [show -(n.natAbs : Int) = n by omega]
  · rw [if_neg negative]
    obtain ⟨d, ds, written, _, minus, plus⟩ := exists_naturalChars n.natAbs
    have value := ofDigits_naturalChars n.natAbs
    rw [written] at read some value ⊢
    rw [List.cons_append] at read ⊢
    simp only [exponent?, true_or, if_true]
    split
    · rename_i same
      exact absurd (List.cons.inj same).1 minus
    · rename_i same
      exact absurd (List.cons.inj same).1 plus
    · simp only [read, some, Bool.false_eq_true, if_false, value]
      rw [show (n.natAbs : Int) = n by omega]

/-- A whole number is read back after its sign. -/
theorem unsigned?_whole {n : Int} (fits : (Number.whole n).Fits) {rest : List Char}
    (apart : Apart rest) :
    unsigned? (n < 0) (naturalChars n.natAbs ++ rest) = some (.whole n, rest) := by
  obtain ⟨least, greatest⟩ := fits
  have point : rest.head? ≠ some '.' := fun here => (apart _ here).2.1 rfl
  unfold unsigned?
  rw [digits_naturalChars _ apart.noDigit]
  simp only [if_neg (wellFormed_naturalChars n.natAbs), fraction?_apart point, exponent?_apart apart,
    Option.bind_eq_bind, Option.bind_some, ofDigits_naturalChars, Option.isNone_none, true_and,
    decide_eq_true_eq]
  by_cases negative : n < 0
  · rw [if_pos ⟨negative, by omega, by omega⟩, show -(n.natAbs : Int) = n by omega]
    rfl
  · rw [if_neg (fun both => negative both.1), if_pos ⟨by simpa using negative, by omega⟩,
      show (n.natAbs : Int) = n by omega]
    rfl

/-- Any other number is read back after its sign. -/
theorem unsigned?_decimal {negative : Bool} {significand : Nat} {exponent : Int}
    (fits : (Number.decimal negative significand exponent).Fits) {rest : List Char}
    (apart : Apart rest) :
    unsigned? negative (naturalChars significand ++ 'e' :: (intChars exponent ++ rest)) =
      some (.decimal negative significand exponent, rest) := by
  have noDigit : NoDigit ('e' :: (intChars exponent ++ rest)) := by
    rintro c here
    cases here
    decide
  have point : ('e' :: (intChars exponent ++ rest)).head? ≠ some '.' := by simp
  unfold unsigned?
  rw [digits_naturalChars _ noDigit]
  simp only [if_neg (wellFormed_naturalChars significand), fraction?_apart point,
    exponent?_intChars exponent apart, Option.bind_eq_bind, Option.bind_some, ofDigits_naturalChars,
    Option.isNone_some, Bool.false_eq_true, false_and, and_false, if_false, Option.getD_none,
    List.append_nil, Option.getD_some, List.length_nil, Int.natCast_zero, Int.sub_zero]
  exact if_pos fits

/-- A number begins with its sign or with a digit. -/
theorem Number.exists_chars (n : Number) :
    ∃ c cs, n.chars = c :: cs ∧ (c = '-' ∨ c.isDigit = true) := by
  cases n with
  | whole n =>
      obtain ⟨d, ds, written, isDigit, _⟩ := exists_naturalChars n.natAbs
      by_cases negative : n < 0
      · exact ⟨'-', _, by rw [chars, intChars, if_pos negative], .inl rfl⟩
      · exact ⟨d, ds, by rw [chars, intChars, if_neg negative, written], .inr isDigit⟩
  | decimal negative significand exponent =>
      obtain ⟨d, ds, written, isDigit, _⟩ := exists_naturalChars significand
      cases negative with
      | true => exact ⟨'-', _, rfl, .inl rfl⟩
      | false => exact ⟨d, ds ++ 'e' :: intChars exponent, by simp [chars, written], .inr isDigit⟩

theorem number?_unsigned {cs : List Char} (unsigned : cs.head? ≠ some '-') :
    number? cs = unsigned? false cs := by
  cases cs with
  | nil => rfl
  | cons c cs =>
      refine number?.eq_2 _ ?_
      rintro _ same
      cases same
      exact unsigned rfl

theorem number?_chars {n : Number} (fits : n.Fits) {rest : List Char} (apart : Apart rest) :
    number? (n.chars ++ rest) = some (n, rest) := by
  have noSign : ∀ (n : Nat) (rest : List Char), (naturalChars n ++ rest).head? ≠ some '-' := by
    intro n rest
    obtain ⟨d, ds, written, _, minus, _⟩ := exists_naturalChars n
    rw [written]
    exact fun same => minus (Option.some.inj same)
  cases n with
  | whole n =>
      have read := unsigned?_whole fits apart
      simp only [Number.chars, intChars]
      by_cases negative : n < 0
      · rw [if_pos negative, List.cons_append, number?]
        rwa [decide_eq_true negative] at read
      · rw [if_neg negative, number?_unsigned (noSign _ _)]
        rwa [decide_eq_false negative] at read
  | decimal negative significand exponent =>
      have read := unsigned?_decimal fits apart
      unfold Number.chars
      cases negative with
      | true =>
          simp only [if_true, List.cons_append, List.nil_append, List.append_assoc, number?]
          exact read
      | false =>
          simp only [Bool.false_eq_true, if_false, List.nil_append, List.append_assoc, List.cons_append]
          rw [number?_unsigned (noSign _ _)]
          exact read

end TokenAuthority.Json
