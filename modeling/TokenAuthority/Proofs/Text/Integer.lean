import TokenAuthority.Text.Integer

/-!
# Whole numbers are read back

* `readDigits_of_isDigit` — digits are read as the number that they write, if that stays within the bound.
* `readUnsigned_of_isDigit`, `uint64?_toString` — so the text of a word is read as that word.
* `readUnsigned_lt` — nothing is read that its word cannot hold.
* `Numeral`, `read_eq_ok_iff` — what is read is a numeral of the range, and every such numeral is read.
-/

namespace TokenAuthority.Integer

variable {bound : Nat} {overflow : ReadError} {cs : List Char}

/-- Each digit adds to the number that was read before it. -/
theorem le_ofDigitChars (value : Nat) : value ≤ Nat.ofDigitChars 10 cs value := by
  induction cs generalizing value with
  | nil => exact Nat.le_refl value
  | cons c cs ih =>
      rw [Nat.ofDigitChars_cons]
      have rest := ih (10 * value + (c.toNat - '0'.toNat))
      omega

theorem digit?_of_isDigit {c : Char} (isDigit : c.isDigit = true) :
    digit? c = some (c.toNat - '0'.toNat) := by
  have range : '0'.val ≤ c.val ∧ c.val ≤ '9'.val := by simpa [Char.isDigit] using isDigit
  exact if_pos range

/-- Digits are read as the number that they write, if that stays within the bound. -/
theorem readDigits_of_isDigit {value : Nat} (digits : ∀ c ∈ cs, c.isDigit = true)
    (within : Nat.ofDigitChars 10 cs value ≤ bound) :
    readDigits bound overflow value cs = .ok (Nat.ofDigitChars 10 cs value) := by
  induction cs generalizing value with
  | nil => rfl
  | cons c cs ih =>
      obtain ⟨isDigit, digits⟩ := List.forall_mem_cons.mp digits
      rw [Nat.ofDigitChars_cons] at within ⊢
      have fits : ¬ bound < 10 * value + (c.toNat - '0'.toNat) := by
        have rest : 10 * value + (c.toNat - '0'.toNat) ≤ Nat.ofDigitChars 10 cs _ := le_ofDigitChars _
        omega
      simp only [readDigits, digit?_of_isDigit isDigit, if_neg fits]
      exact ih digits within

/-- Digits without a sign are read by themselves. -/
theorem read_of_isDigit {below above : Nat} (some : cs ≠ []) (digits : ∀ c ∈ cs, c.isDigit = true) :
    read below above cs = (readDigits above .tooLarge 0 cs).map Int.ofNat := by
  match cs with
  | [] => exact absurd rfl some
  | [c] => rfl
  | c :: d :: rest =>
      have isDigit := digits c List.mem_cons_self
      have plus : c ≠ '+' := by
        rintro rfl
        revert isDigit
        decide
      have minus : c ≠ '-' := by
        rintro rfl
        revert isDigit
        decide
      simp [read, plus, minus]

/-- Digits are read as an unsigned word that holds the number that they write. -/
theorem readUnsigned_of_isDigit {bits : Nat} (some : cs ≠ []) (digits : ∀ c ∈ cs, c.isDigit = true)
    (within : Nat.ofDigitChars 10 cs 0 < 2 ^ bits) :
    readUnsigned bits (String.ofList cs) = .ok (Nat.ofDigitChars 10 cs 0) := by
  rw [readUnsigned, String.toList_ofList, read_of_isDigit some digits,
    readDigits_of_isDigit digits (Nat.le_sub_one_of_lt within)]
  rfl

theorem isDigit_of_mem_toDigits {n : Nat} {c : Char} (mem : c ∈ Nat.toDigits 10 n) : c.isDigit = true :=
  Nat.isDigit_of_mem_toDigits (by decide) (by decide) mem

/-- The text of a word is read as that word. -/
theorem uint64?_toString {n : Nat} (fits : n < 2 ^ 64) :
    uint64? (toString n) = some (UInt64.ofNat n) := by
  have text : toString n = String.ofList (Nat.toDigits 10 n) := String.toList_injective (by simp)
  have value : Nat.ofDigitChars 10 (Nat.toDigits 10 n) 0 = n := Nat.ofDigitChars_ten_toDigits
  rw [uint64?, text, readUnsigned_of_isDigit Nat.toDigits_ne_nil (fun _ => isDigit_of_mem_toDigits)
    (value.symm ▸ fits), value]

/-! ### The range of what is read -/

/-- Reading digits never passes the bound. -/
theorem readDigits_le {value n : Nat} (start : value ≤ bound)
    (got : readDigits bound overflow value cs = .ok n) : n ≤ bound := by
  induction cs generalizing value with
  | nil =>
      cases got
      exact start
  | cons c cs ih =>
      unfold readDigits at got
      split at got
      · cases got
      · dsimp only at got
        split at got
        · cases got
        · exact ih (by omega) got

/-- The result of a step that a later one needs. -/
theorem eq_ok_of_bind {ε α β : Type} {x : Except ε α} {f : α → Except ε β} {b : β}
    (eq : x >>= f = .ok b) : ∃ a, x = .ok a ∧ f a = .ok b := by
  cases x with
  | error e => cases eq
  | ok a => exact ⟨a, rfl, eq⟩

theorem eq_ok_of_map {ε α β : Type} {x : Except ε α} {f : α → β} {b : β} (eq : x.map f = .ok b) :
    ∃ a, x = .ok a ∧ f a = b := by
  cases x with
  | error e => cases eq
  | ok a =>
      cases eq
      exact ⟨a, rfl, rfl⟩

theorem read_le {below above : Nat} {n : Int} (got : read below above cs = .ok n) : n ≤ above := by
  have ofDigits : ∀ {cs}, (readDigits above .tooLarge 0 cs).map Int.ofNat = .ok n → n ≤ above := by
    intro cs got
    obtain ⟨k, digits, rfl⟩ := eq_ok_of_map got
    exact Int.ofNat_le.mpr (readDigits_le (Nat.zero_le above) digits)
  unfold read at got
  split at got
  · cases got
  · exact ofDigits got
  · exact ofDigits got
  · split at got
    · cases got
    · obtain ⟨k, -, rfl⟩ := eq_ok_of_map got
      simp only [Int.ofNat_eq_natCast]
      omega
  · exact ofDigits got

theorem readUnsigned_lt {bits n : Nat} {text : String} (got : readUnsigned bits text = .ok n) :
    n < 2 ^ bits := by
  obtain ⟨k, eq, rfl⟩ := eq_ok_of_map got
  have le := read_le eq
  have := Nat.two_pow_pos bits
  omega

/-! ### Numerals -/

/-- A text writes a whole number: decimal digits, after a sign or none. A minus sign is for signed ones. -/
inductive Numeral (signed : Bool) : List Char → Int → Prop where
  | bare {digits : List Char} : digits ≠ [] → (∀ c ∈ digits, c.isDigit = true) →
      Numeral signed digits (Nat.ofDigitChars 10 digits 0)
  | plus {digits : List Char} : digits ≠ [] → (∀ c ∈ digits, c.isDigit = true) →
      Numeral signed ('+' :: digits) (Nat.ofDigitChars 10 digits 0)
  | minus {digits : List Char} : signed = true → digits ≠ [] → (∀ c ∈ digits, c.isDigit = true) →
      Numeral signed ('-' :: digits) (-(Nat.ofDigitChars 10 digits 0 : Int))

theorem eq_of_digit? {c : Char} {d : Nat} (eq : digit? c = some d) :
    c.isDigit = true ∧ d = c.toNat - '0'.toNat := by
  unfold digit? at eq
  split at eq
  · rename_i range
    cases eq
    have values : '0'.val ≤ c.val ∧ c.val ≤ '9'.val := range
    exact ⟨by simpa [Char.isDigit] using values, rfl⟩
  · cases eq

/-- What is read as a number are the digits that write it. -/
theorem digits_of_readDigits {value n : Nat} (got : readDigits bound overflow value cs = .ok n) :
    (∀ c ∈ cs, c.isDigit = true) ∧ n = Nat.ofDigitChars 10 cs value := by
  induction cs generalizing value with
  | nil =>
      cases got
      exact ⟨by simp, rfl⟩
  | cons c cs ih =>
      unfold readDigits at got
      split at got
      · cases got
      · rename_i isDigit
        dsimp only at got
        split at got
        · cases got
        · obtain ⟨first, rfl⟩ := eq_of_digit? isDigit
          obtain ⟨digits, rfl⟩ := ih got
          exact ⟨List.forall_mem_cons.mpr ⟨first, digits⟩, Nat.ofDigitChars_cons.symm⟩

/-- Digits are read exactly if they stay within the bound, as the number that they write. -/
theorem readDigits_eq_ok_iff {n : Nat} : readDigits bound overflow 0 cs = .ok n ↔
    (∀ c ∈ cs, c.isDigit = true) ∧ n = Nat.ofDigitChars 10 cs 0 ∧ n ≤ bound := by
  constructor
  · intro got
    obtain ⟨digits, value⟩ := digits_of_readDigits got
    exact ⟨digits, value, readDigits_le (Nat.zero_le bound) got⟩
  · rintro ⟨digits, rfl, within⟩
    exact readDigits_of_isDigit digits within

/-- Digits without a minus sign are read from zero up. -/
theorem readUp_eq_ok_iff {n : Int} : (readDigits bound overflow 0 cs).map Int.ofNat = .ok n ↔
    (∀ c ∈ cs, c.isDigit = true) ∧ n = Nat.ofDigitChars 10 cs 0 ∧ n ≤ bound := by
  constructor
  · intro got
    obtain ⟨k, read, rfl⟩ := eq_ok_of_map got
    obtain ⟨digits, value, within⟩ := readDigits_eq_ok_iff.mp read
    exact ⟨digits, congrArg Int.ofNat value, Int.ofNat_le.mpr within⟩
  · rintro ⟨digits, rfl, within⟩
    rw [readDigits_eq_ok_iff.mpr ⟨digits, rfl, Int.ofNat_le.mp within⟩]
    rfl

/-- Digits after a minus sign are read from zero down. -/
theorem readDown_eq_ok_iff {n : Int} : ((readDigits bound overflow 0 cs).map fun n => -Int.ofNat n) = .ok n ↔
    (∀ c ∈ cs, c.isDigit = true) ∧ n = -(Nat.ofDigitChars 10 cs 0 : Int) ∧ -(bound : Int) ≤ n := by
  constructor
  · intro got
    obtain ⟨k, read, rfl⟩ := eq_ok_of_map got
    obtain ⟨digits, value, within⟩ := readDigits_eq_ok_iff.mp read
    exact ⟨digits, congrArg (fun k : Nat => -(k : Int)) value, Int.neg_le_neg (Int.ofNat_le.mpr within)⟩
  · rintro ⟨digits, rfl, within⟩
    rw [readDigits_eq_ok_iff.mpr ⟨digits, rfl, Int.ofNat_le.mp (Int.neg_le_neg_iff.mp within)⟩]
    rfl

/-- What is read is a numeral of the range, and every such numeral is read. -/
theorem read_eq_ok_iff {signed : Bool} {below above : Nat} {n : Int} (signs : signed = true ↔ below ≠ 0) :
    read below above cs = .ok n ↔ Numeral signed cs n ∧ -(below : Int) ≤ n ∧ n ≤ above := by
  constructor
  · intro got
    unfold read at got
    split at got
    · cases got
    · obtain ⟨digits, rfl, within⟩ := readUp_eq_ok_iff.mp got
      exact ⟨.bare (by simp) digits, by omega, within⟩
    · rename_i some
      obtain ⟨digits, rfl, within⟩ := readUp_eq_ok_iff.mp got
      exact ⟨.plus some digits, by omega, within⟩
    · rename_i some
      split at got
      · cases got
      · rename_i below
        obtain ⟨digits, rfl, within⟩ := readDown_eq_ok_iff.mp got
        exact ⟨.minus (signs.mpr below) some digits, within, by omega⟩
    · rename_i empty _ _ _
      obtain ⟨digits, rfl, within⟩ := readUp_eq_ok_iff.mp got
      exact ⟨.bare empty digits, by omega, within⟩
  · rintro ⟨numeral, least, most⟩
    cases numeral with
    | bare some digits =>
        rw [read_of_isDigit some digits]
        exact readUp_eq_ok_iff.mpr ⟨digits, rfl, most⟩
    | @plus rest some digits =>
        cases rest with
        | nil => exact absurd rfl some
        | cons => exact readUp_eq_ok_iff.mpr ⟨digits, rfl, most⟩
    | @minus rest isSigned some digits =>
        cases rest with
        | nil => exact absurd rfl some
        | cons =>
            refine (if_neg (signs.mp isSigned)).trans ?_
            exact readDown_eq_ok_iff.mpr ⟨digits, rfl, least⟩

theorem numeral_toString (n : Int) : Numeral true (toString n).toList n := by
  have digits (k : Nat) : ∀ c ∈ Nat.toDigits 10 k, c.isDigit = true := fun _ => isDigit_of_mem_toDigits
  have value (k : Nat) : Nat.ofDigitChars 10 (Nat.toDigits 10 k) 0 = k := Nat.ofDigitChars_ten_toDigits
  have text (k : Nat) : (toString k).toList = Nat.toDigits 10 k := by simp
  cases n with
  | ofNat k =>
      have numeral : Numeral true (Nat.toDigits 10 k) _ := .bare Nat.toDigits_ne_nil (digits k)
      rw [value] at numeral
      change Numeral true (toString k).toList k
      rwa [text]
  | negSucc k =>
      have numeral : Numeral true ('-' :: Nat.toDigits 10 (k + 1)) _ :=
        .minus rfl Nat.toDigits_ne_nil (digits (k + 1))
      rw [value] at numeral
      change Numeral true ("-" ++ toString (k + 1)).toList (-((k + 1 : Nat) : Int))
      rwa [String.toList_append, text]

theorem Numeral.unique {signed : Bool} {m n : Int} (first : Numeral signed cs m) (second : Numeral signed cs n) :
    m = n := by
  have signs : signed = true ↔ (if signed then m.natAbs + n.natAbs + 1 else 0) ≠ 0 := by
    cases signed <;> simp
  have least {k : Int} (numeral : Numeral signed cs k) : signed = false → 0 ≤ k := by
    rintro rfl
    cases numeral with
    | bare | plus => omega
    | minus isSigned => cases isSigned
  have reads {k : Int} (numeral : Numeral signed cs k) (within : k.natAbs ≤ m.natAbs + n.natAbs) :
      read (if signed then m.natAbs + n.natAbs + 1 else 0) (m.natAbs + n.natAbs) cs = .ok k := by
    refine (read_eq_ok_iff signs).mpr ⟨numeral, ?_, by omega⟩
    cases signed with
    | false => simpa using least numeral rfl
    | true =>
        simp only [if_true]
        omega
  have same := (reads first (by omega)).symm.trans (reads second (by omega))
  exact Except.ok.inj same

/-- Reading an unsigned word reads the numerals of its range, which have no minus sign. -/
theorem readUnsigned_eq_ok_iff {bits n : Nat} {text : String} :
    readUnsigned bits text = .ok n ↔ Numeral false text.toList n ∧ n < 2 ^ bits := by
  have signs : false = true ↔ 0 ≠ 0 := by simp
  have positive := Nat.two_pow_pos bits
  constructor
  · intro got
    obtain ⟨k, got', rfl⟩ := eq_ok_of_map got
    obtain ⟨numeral, least, _⟩ := (read_eq_ok_iff signs).mp got'
    rw [Int.toNat_of_nonneg (by simpa using least)]
    exact ⟨numeral, readUnsigned_lt got⟩
  · rintro ⟨numeral, fits⟩
    rw [readUnsigned, (read_eq_ok_iff signs).mpr ⟨numeral, by omega, by omega⟩]
    rfl

/-- Reading a signed word reads the numerals of its range. -/
theorem readInt64_eq_ok_iff {n : Int} {text : String} :
    readInt64 text = .ok n ↔ Numeral true text.toList n ∧ -2 ^ 63 ≤ n ∧ n < 2 ^ 63 := by
  have signs : true = true ↔ 2 ^ 63 ≠ 0 := by decide
  rw [readInt64, read_eq_ok_iff signs]
  refine and_congr_right fun _ => ⟨fun range => ?_, fun range => ?_⟩
  all_goals omega

end TokenAuthority.Integer
