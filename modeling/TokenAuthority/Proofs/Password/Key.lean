import TokenAuthority.Cache.Memory
import TokenAuthority.Effect.World
import TokenAuthority.Password.Hasher
import TokenAuthority.Proofs.Password.Stored

/-!
# The octets of a password that are read

Hashing reads seventy-two octets: those of the password and a zero octet, cut off there, or repeated until there
are so many. Passwords that have these in common are the same to it.

* `Blowfish.cycle` — octets that are repeated, or cut off.
* `Bcrypt.octetsRead` — what is read of a password. The digest depends on nothing else.
* `Bcrypt.octetsRead_eq_iff` — passwords without a zero octet are read alike if their first seventy-two octets
  are the same.
* `PasswordHasher.verify_hash` — which passwords verify against what was stored of one.
-/

namespace TokenAuthority

namespace Blowfish

variable {octets : List UInt8} {count : Nat}

/-- As many octets as asked for, by repeating those that there are. -/
def cycle (octets : List UInt8) (count : Nat) : List UInt8 :=
  List.ofFn fun i : Fin count => octets.getD (i % octets.length) 0

theorem length_cycle : (cycle octets count).length = count := List.length_ofFn

/-- Octets that are repeated begin with themselves. -/
theorem take_cycle (enough : octets.length ≤ count) : (cycle octets count).take octets.length = octets := by
  refine List.ext_getElem ?_ fun i before within => ?_
  · rw [List.length_take, length_cycle, Nat.min_eq_left enough]
  · simp [cycle, Nat.mod_eq_of_lt within, List.getElem?_eq_getElem within]

/-- Repeating octets does not change what is found at a place up to the end. -/
theorem getD_cycle {i : Nat} (lt : i < count) :
    (cycle octets count).toArray.getD (i % (cycle octets count).toArray.size) 0 =
      octets.toArray.getD (i % octets.toArray.size) 0 := by
  simp only [List.size_toArray, length_cycle, Nat.mod_eq_of_lt lt]
  simp [cycle, lt]

/-- The words that are made of octets do not show whether these were repeated. -/
theorem cyclicWords_cycle : cyclicWords (cycle octets (4 * count)) count = cyclicWords octets count := by
  unfold cyclicWords
  refine congrArg Array.ofFn (funext fun i => ?_)
  dsimp only
  have within := i.isLt
  have first : 4 * i.val < 4 * count := by omega
  have second : 4 * i.val + 1 < 4 * count := by omega
  have third : 4 * i.val + 2 < 4 * count := by omega
  have fourth : 4 * i.val + 3 < 4 * count := by omega
  rw [getD_cycle first, getD_cycle second, getD_cycle third, getD_cycle fourth]

end Blowfish

namespace Bcrypt

variable {p q : String}

/-- The octets that are read of a password. -/
def octetsRead (password : String) : List UInt8 := Blowfish.cycle (keyOf password) keyLimit

/-- Nothing else of a password matters to its digest. -/
theorem digest_eq_of_octetsRead (cost : Nat) (salt : List UInt8) (same : octetsRead q = octetsRead p) :
    digest cost salt (keyOf q) = digest cost salt (keyOf p) := by
  have words (password : String) : Blowfish.cyclicWords (keyOf password) 18 =
      Blowfish.cyclicWords (octetsRead password) 18 := Blowfish.cyclicWords_cycle.symm
  unfold digest
  rw [words p, words q, same]

theorem keyOf_of_short (short : (Utf8.encode p).length < keyLimit) : keyOf p = Utf8.encode p ++ [0] := by
  refine List.take_of_length_le ?_
  rw [List.length_append, List.length_singleton]
  exact short

theorem keyOf_of_long (long : keyLimit ≤ (Utf8.encode p).length) : keyOf p = (Utf8.encode p).take keyLimit :=
  List.take_append_of_le_length long

/-- What is read of a password begins with what stands for it. -/
theorem keyOf_append_drop : keyOf p ++ (octetsRead p).drop (keyOf p).length = octetsRead p := by
  have begins : (octetsRead p).take (keyOf p).length = keyOf p :=
    Blowfish.take_cycle (List.length_take_le ..)
  have whole := List.take_append_drop (keyOf p).length (octetsRead p)
  rwa [begins] at whole

/-- The first zero octet that is read of a password without one is the one that was added. -/
theorem takeWhile_octetsRead (free : 0 ∉ Utf8.encode p) :
    (octetsRead p).takeWhile (· ≠ 0) = (Utf8.encode p).take keyLimit := by
  have nonzero : ∀ b ∈ Utf8.encode p, decide (b ≠ 0) = true := fun b mem =>
    decide_eq_true fun zero => free (zero ▸ mem)
  rw [← keyOf_append_drop]
  rcases Nat.lt_or_ge (Utf8.encode p).length keyLimit with short | long
  · rw [keyOf_of_short short, List.append_assoc, List.takeWhile_append_of_pos nonzero,
      List.take_of_length_le (Nat.le_of_lt short)]
    simp
  · -- The key fills all that is read, so it is not repeated.
    have all : (keyOf p).length = keyLimit := by
      rw [keyOf_of_long long, List.length_take, Nat.min_eq_left long]
    have none : (octetsRead p).drop (keyOf p).length = [] := by
      rw [all]
      exact List.drop_eq_nil_of_le (Nat.le_of_eq Blowfish.length_cycle)
    rw [none, keyOf_of_long long,
      List.takeWhile_append_of_pos fun b mem => nonzero b (List.mem_of_mem_take mem), List.takeWhile_nil,
      List.append_nil]

/-- Nothing behind the octets that are read shows in what stands for a password. -/
theorem keyOf_eq_take : keyOf p = ((Utf8.encode p).take keyLimit ++ [0]).take keyLimit := by
  rcases Nat.lt_or_ge (Utf8.encode p).length keyLimit with short | long
  · rw [List.take_of_length_le (Nat.le_of_lt short)]
    rfl
  · have full : keyLimit ≤ ((Utf8.encode p).take keyLimit).length :=
      Nat.le_of_eq (List.length_take.trans (Nat.min_eq_left long)).symm
    rw [keyOf_of_long long, List.take_append_of_le_length full, List.take_take, Nat.min_self]

/-- Passwords without a zero octet are read alike if they are the same as far as they are read. -/
theorem octetsRead_eq_iff (freeP : 0 ∉ Utf8.encode p) (freeQ : 0 ∉ Utf8.encode q) :
    octetsRead q = octetsRead p ↔ (Utf8.encode q).take keyLimit = (Utf8.encode p).take keyLimit := by
  constructor
  · intro same
    rw [← takeWhile_octetsRead freeQ, same, takeWhile_octetsRead freeP]
  · intro same
    rw [octetsRead, keyOf_eq_take, same, ← keyOf_eq_take, octetsRead]

/-- A password that is read as a whole is no other one. -/
theorem take_eq_iff_of_short (short : (Utf8.encode p).length < keyLimit ∨ (Utf8.encode q).length < keyLimit) :
    (Utf8.encode q).take keyLimit = (Utf8.encode p).take keyLimit ↔ q = p := by
  constructor
  · intro same
    have lengths := congrArg List.length same
    simp only [List.length_take] at lengths
    rw [List.take_of_length_le (by omega), List.take_of_length_le (by omega)] at same
    have texts := congrArg Utf8.decode? same
    rwa [Utf8.decode?_encode, Utf8.decode?_encode, Option.some.injEq] at texts
  · intro same
    rw [same]

end Bcrypt

/-! ### Verifying what was hashed -/

namespace PasswordHasher

open Bcrypt

variable {h : PasswordHasher} {p q : String} {salt : List UInt8} {σ : Type}

theorem run_hash (backend : Cache.Backend σ) (w : World σ) : ∃ w', (h.hash p).run backend w =
    (.value (h.hashWith (w.random.octets w.draws saltLength) p), w') :=
  ⟨_, rfl⟩

/-- A password is hashed under whatever salt is drawn, and verifies against what is stored of it. If the digests of
passwords that are read differently differ, another one verifies exactly if it is read alike. Without zero
octets, that is if the first seventy-two octets are the same, and if either is shorter, then it is no other one. -/
theorem verify_hash (length : salt.length = saltLength)
    (apart : digest h.cost salt (keyOf q) = digest h.cost salt (keyOf p) → octetsRead q = octetsRead p)
    (backend : Cache.Backend σ) (w : World σ) (drawn : w.random.octets w.draws saltLength = salt) :
    ∃ made w', (h.hash p).run backend w = (.value made, w') ∧ made.salt = Stored.saltText salt ∧
      h.verify p made.hash = true ∧ (h.verify q made.hash = true ↔ octetsRead q = octetsRead p) ∧
      (0 ∉ Utf8.encode p → 0 ∉ Utf8.encode q →
        (h.verify q made.hash = true ↔ (Utf8.encode q).take keyLimit = (Utf8.encode p).take keyLimit) ∧
        ((Utf8.encode p).length < keyLimit ∨ (Utf8.encode q).length < keyLimit →
          (h.verify q made.hash = true ↔ q = p))) := by
  obtain ⟨w', ran⟩ := run_hash (h := h) (p := p) backend w
  rw [drawn] at ran
  have verifies : h.verify q (h.hashWith salt p).hash = true ↔ octetsRead q = octetsRead p :=
    (verify_text_hash h.isCost length).trans ⟨apart, digest_eq_of_octetsRead h.cost salt⟩
  refine ⟨_, w', ran, rfl, (verify_text_hash h.isCost length).mpr rfl, verifies, fun freeP freeQ => ?_⟩
  have first := verifies.trans (octetsRead_eq_iff freeP freeQ)
  exact ⟨first, fun short => first.trans (take_eq_iff_of_short short)⟩

end PasswordHasher

/-! ### Passwords with the same beginning -/

namespace Sample

/-- Seventy-two letters with another one behind them. -/
def lengthy (last : Char) : String := String.ofList (List.replicate 72 'a' ++ [last])

/-- A world in which all that is drawn is the same. -/
def constant : World Cache.Memory :=
  ⟨.start, fun _ => 0, ⟨fun _ count => List.replicate count 7, fun _ => Binary64.ofNat 1⟩, 0,
    ⟨"", {}, .initial⟩, [], .empty⟩

/-- The last letter is not read, so the password with another one verifies. -/
theorem verify_lengthy : Bcrypt.octetsRead (lengthy 'c') = Bcrypt.octetsRead (lengthy 'b') ∧
    ∃ made w', (PasswordHasher.standard.hash (lengthy 'b')).run Cache.Memory.backend constant =
        (.value made, w') ∧
      lengthy 'c' ≠ lengthy 'b' ∧ PasswordHasher.standard.verify (lengthy 'c') made.hash = true := by
  have alike : Bcrypt.octetsRead (lengthy 'c') = Bcrypt.octetsRead (lengthy 'b') := by decide +kernel
  obtain ⟨made, w', ran, _, _, verifies, _⟩ := @PasswordHasher.verify_hash .standard (lengthy 'b') (lengthy 'c')
    (List.replicate 16 7) _ rfl (fun _ => alike) Cache.Memory.backend constant rfl
  exact ⟨alike, made, w', ran, by decide +kernel, verifies.mpr alike⟩

end Sample

end TokenAuthority
