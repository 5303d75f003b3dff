import TokenAuthority.Password.Bcrypt
import TokenAuthority.Proofs.Text.Base64
import TokenAuthority.Proofs.Text.Integer

/-!
# The stored form of a password is read back

* `length_digest` — each digest has twenty-three octets.
* `Stored.parse?_text` — what is stored is read back from its text, if salt and digest have the lengths that
  they have.
* `verify_text_hash` — a password verifies against what is stored of another one exactly if it has the same
  digest under the same salt.
-/

namespace TokenAuthority.Bcrypt

/-! ### Digests -/

theorem length_encryptBlocks (s : Blowfish.State) (words : List UInt32) :
    (encryptBlocks s words).length = 8 * (words.length / 2) := by
  fun_induction encryptBlocks s words with
  | case1 l r rest l' r' encrypted octets ih =>
      simp only [List.length_append, List.length_cons, ih]
      simp [octets]
      omega
  | case2 words short =>
      match words with
      | [] => rfl
      | [w] => simp
      | l :: r :: rest => exact (short l r rest rfl).elim

theorem length_digest (cost : Nat) (salt key : List UInt8) : (digest cost salt key).length = 23 := by
  unfold digest
  have words : plainText.length = 6 := Array.length_toList.trans Array.size_ofFn
  rw [List.length_take, length_encryptBlocks, words]
  rfl

/-! ### Texts -/

namespace Stored

variable {s : Stored} {cs : List Char} {n : Nat}

/-- Text of small characters has as many octets as characters. -/
theorem length_encode_ofList (small : ∀ c ∈ cs, c.utf8Size = 1) :
    (Utf8.encode (String.ofList cs)).length = cs.length := by
  change (String.ofList cs).toByteArray.size = cs.length
  rw [String.toByteArray_ofList]
  induction cs with
  | nil => rfl
  | cons c cs ih =>
      obtain ⟨one, rest⟩ := List.forall_mem_cons.mp small
      have first : [c].utf8Encode.size = 1 := by simp [List.utf8Encode, one]
      rw [List.utf8Encode_cons, ByteArray.size_append, ih rest, first, List.length_cons, Nat.add_comm]

theorem isDigit_of_mem_twoDigits {c : Char} (mem : c ∈ twoDigits n) : c.isDigit = true := by
  rcases List.mem_append.mp mem with zero | digit
  · rw [(List.mem_replicate.mp zero).2]
    rfl
  · exact Integer.isDigit_of_mem_toDigits digit

theorem twoDigits_ne_nil : twoDigits n ≠ [] := List.append_ne_nil_of_right_ne_nil _ Nat.toDigits_ne_nil

/-- The zero in front of a number does not change it. -/
theorem readUnsigned_twoDigits (fits : n < 2 ^ 32) :
    Integer.readUnsigned 32 (String.ofList (twoDigits n)) = .ok n := by
  have value : Nat.ofDigitChars 10 (twoDigits n) 0 = n := by
    unfold twoDigits
    rw [Nat.ofDigitChars_append, Nat.ofDigitChars_replicate_zero, Nat.mul_zero]
    exact Nat.ofDigitChars_ten_toDigits
  rw [Integer.readUnsigned_of_isDigit twoDigits_ne_nil (fun _ => isDigit_of_mem_twoDigits)
    (value.symm ▸ fits), value]

/-- Salt and digest as they are written. -/
def body (s : Stored) : List Char :=
  Base64.encode Base64.passwordHash s.salt ++ Base64.encode Base64.passwordHash s.digest

theorem mem_body {c : Char} (mem : c ∈ s.body) : c ∈ Base64.passwordHash.digits := by
  rcases List.mem_append.mp mem with salt | digest
  · exact Base64.readable_passwordHash.mem_encode salt
  · exact Base64.readable_passwordHash.mem_encode digest

/-- The parts of a stored form; the one before the first dollar sign is empty. -/
theorem parts_text : Split.on '$' s.text.toList = [[], "2b".toList, twoDigits s.cost, s.body] := by
  have version : '$' ∉ "2b".toList := by decide
  have cost : '$' ∉ twoDigits s.cost := fun mem => by
    have isDigit := isDigit_of_mem_twoDigits mem
    revert isDigit
    decide
  have body : '$' ∉ s.body := fun mem => by
    have none : '$' ∉ Base64.passwordHash.digits := by decide +kernel
    exact none (mem_body mem)
  have written : s.text.toList =
      [] ++ '$' :: ("2b".toList ++ '$' :: (twoDigits s.cost ++ '$' :: s.body)) := by
    rw [text, String.toList_ofList]
    rfl
  rw [written, Split.on_append _ List.not_mem_nil, Split.on_append _ version, Split.on_append _ cost,
    Split.on_of_not_mem body]

theorem length_encode_salt (salt : s.salt.length = saltLength) :
    (Base64.encode Base64.passwordHash s.salt).length = 22 := by
  rw [Base64.length_encode, salt, saltLength]

theorem length_body (salt : s.salt.length = saltLength) (digest : s.digest.length = 23) :
    s.body.length = 53 := by
  rw [body, List.length_append, length_encode_salt salt, Base64.length_encode, digest]

/-- All digits are small characters. -/
theorem length_encode_body : (Utf8.encode (String.ofList s.body)).length = s.body.length := by
  have small : (Base64.passwordHash.digits.all fun c => c.utf8Size == 1) = true := by decide +kernel
  exact length_encode_ofList fun c mem => eq_of_beq (List.all_eq_true.mp small c (mem_body mem))

/-- What is stored is read back from its text. -/
theorem parse?_text (cost : s.cost < 2 ^ 32) (salt : s.salt.length = saltLength)
    (digest : s.digest.length = 23) : parse? s.text = some s := by
  have length := length_body salt digest
  have some : s.body ≠ [] := List.ne_nil_of_length_pos (by omega)
  have parts : (Split.on '$' s.text.toList).filter (!·.isEmpty) =
      ["2b".toList, twoDigits s.cost, s.body] := by
    rw [parts_text]
    simp [twoDigits_ne_nil, some]
  have version : versions.contains (String.ofList "2b".toList) = true := by decide
  have octets : (Utf8.encode (String.ofList s.body)).length = 53 := length_encode_body.trans length
  have first : s.body.take 22 = Base64.encode Base64.passwordHash s.salt :=
    List.take_left' (length_encode_salt salt)
  have second : s.body.drop 22 = Base64.encode Base64.passwordHash s.digest :=
    List.drop_left' (length_encode_salt salt)
  unfold parse?
  rw [parts]
  simp only [version, if_true, readUnsigned_twoDigits cost, octets, first, second,
    Base64.readable_passwordHash.decode?_encode, bind, Option.bind]
  rfl

end Stored

/-! ### Verifying -/

/-- A password verifies against what is stored of one if it has the same digest. -/
theorem verify_text_hash {cost : Nat} {salt : List UInt8} {p q : String} (valid : isCost cost = true)
    (length : salt.length = saltLength) : verify q (hash cost salt p).text = true ↔
      digest cost salt (keyOf q) = digest cost salt (keyOf p) := by
  have atMost : cost ≤ maxCost := by
    simp only [isCost, Bool.and_eq_true, decide_eq_true_eq] at valid
    exact valid.2
  have read : Stored.parse? (hash cost salt p).text = some (hash cost salt p) :=
    Stored.parse?_text (Nat.lt_of_le_of_lt atMost (by decide)) length (length_digest ..)
  unfold verify
  rw [read]
  simp only [hash, valid, Bool.true_and, beq_iff_eq]

end TokenAuthority.Bcrypt
