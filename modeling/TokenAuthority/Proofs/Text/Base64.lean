import TokenAuthority.Text.Base64

/-!
# What is written in sextet text is read back

* `Alphabet.Readable` — each value of six bits is read back from its digit. So it is in all alphabets in use.
* `Alphabet.Readable.decode?_encode` — octets are read back from their written form.
* `Alphabet.Readable.mem_encode` — nothing but digits is written.
* `length_encode` — how many digits that takes.
-/

namespace TokenAuthority.Base64

/-- A value of six bits is read back from its digit. -/
def Alphabet.Readable (α : Alphabet) : Prop := ∀ v : Fin 64, α.value? (α.digit v) = some v.val

theorem readable_urlSafe : urlSafe.Readable := by
  unfold Alphabet.Readable
  decide +kernel

theorem readable_passwordHash : passwordHash.Readable := by
  unfold Alphabet.Readable
  decide +kernel

namespace Alphabet.Readable

variable {α : Alphabet} (readable : α.Readable)
include readable

/-- Values of six bits are read back from their digits. -/
theorem mapM_value? {vs : List Nat} (lt : ∀ v ∈ vs, v < 64) :
    (vs.map α.digit).mapM α.value? = some vs := by
  induction vs with
  | nil => rfl
  | cons v vs ih =>
      have head := readable ⟨v, lt v List.mem_cons_self⟩
      have tail := ih fun v mem => lt v (List.mem_cons_of_mem _ mem)
      simp [List.mapM_cons, head, tail]

theorem decode?_encode (octets : List UInt8) : decode? α (encode α octets) = some octets := by
  unfold decode? encode
  rw [readable.mapM_value? (sextets_lt octets)]
  exact octets?_sextets octets

theorem mem_encode {octets : List UInt8} {c : Char} (mem : c ∈ encode α octets) : c ∈ α.digits := by
  obtain ⟨v, here, rfl⟩ := List.mem_map.mp mem
  obtain ⟨within, digit, _⟩ := List.idxOf?_eq_some_iff.mp (readable ⟨v, sextets_lt octets v here⟩)
  rw [← digit]
  exact List.getElem_mem within

end Alphabet.Readable

/-- Each value of six bits takes up a digit, also the last one, which may have fewer bits. -/
theorem length_encode (α : Alphabet) (octets : List UInt8) :
    (encode α octets).length = (8 * octets.length + 5) / 6 := by
  unfold encode
  rw [List.length_map]
  fun_induction sextets octets with
  | case1 a b c rest ih =>
      simp only [List.length_cons, ih]
      omega
  | case2 a b => simp
  | case3 a => simp
  | case4 => rfl

end TokenAuthority.Base64
