/-!
# Sextet text

Octets written in digits of six bits. An `Alphabet` gives the sixty-four digits; the last group is
either left short (`encode`) or filled up with `=` (`encodePadded`). Reading is strict: it accepts
only digits of the alphabet, exactly the padding the form asks for, and no set bit beyond the last
octet, so each sequence of octets has one written form.
-/

namespace TokenAuthority.Base64

/-- Sixty-four digits, in the order of the values they stand for. -/
structure Alphabet where
  digits : List Char

def standard : Alphabet :=
  ⟨"ABCDEFGHIJKLMNOPQRSTUVWXYZabcdefghijklmnopqrstuvwxyz0123456789+/".toList⟩

/-- The digits that need no escaping in a URL or a file name. -/
def urlSafe : Alphabet :=
  ⟨"ABCDEFGHIJKLMNOPQRSTUVWXYZabcdefghijklmnopqrstuvwxyz0123456789-_".toList⟩

/-- The digits that password hashes are written in. -/
def passwordHash : Alphabet :=
  ⟨"./ABCDEFGHIJKLMNOPQRSTUVWXYZabcdefghijklmnopqrstuvwxyz0123456789".toList⟩

def Alphabet.digit (α : Alphabet) (value : Nat) : Char :=
  α.digits.getD value '='

def Alphabet.value? (α : Alphabet) (digit : Char) : Option Nat :=
  α.digits.idxOf? digit

/-! ### Octets and sextets -/

/-- Cuts octets into values of six bits; a short last group is filled up with zero bits. -/
def sextets : List UInt8 → List Nat
  | a :: b :: c :: rest =>
    a.toNat / 4 :: (a.toNat % 4 * 16 + b.toNat / 16)
      :: (b.toNat % 16 * 4 + c.toNat / 64) :: c.toNat % 64 :: sextets rest
  | [a, b] => [a.toNat / 4, a.toNat % 4 * 16 + b.toNat / 16, b.toNat % 16 * 4]
  | [a] => [a.toNat / 4, a.toNat % 4 * 16]
  | [] => []

/-- Joins values of six bits into octets. A last group of one value, or one whose filling bits are
not zero, has no reading. -/
def octets? : List Nat → Option (List UInt8)
  | w :: x :: y :: z :: rest =>
    (octets? rest).map fun tail =>
      UInt8.ofNat (w * 4 + x / 16) :: UInt8.ofNat (x % 16 * 16 + y / 4)
        :: UInt8.ofNat (y % 4 * 64 + z) :: tail
  | [w, x, y] =>
    if y % 4 = 0 then some [UInt8.ofNat (w * 4 + x / 16), UInt8.ofNat (x % 16 * 16 + y / 4)]
    else none
  | [w, x] => if x % 16 = 0 then some [UInt8.ofNat (w * 4 + x / 16)] else none
  | [_] => none
  | [] => some []

/-! ### Written forms -/

/-- Writes octets without padding. -/
def encode (α : Alphabet) (octets : List UInt8) : List Char :=
  (sextets octets).map α.digit

/-- Writes octets and fills the last group of four digits up with `=`. -/
def encodePadded (α : Alphabet) (octets : List UInt8) : List Char :=
  let digits := encode α octets
  digits ++ List.replicate ((4 - digits.length % 4) % 4) '='

/-- Reads text written by `encode`. -/
def decode? (α : Alphabet) (text : List Char) : Option (List UInt8) :=
  (text.mapM α.value?).bind octets?

/-- Reads text written by `encodePadded`. -/
def decodePadded? (α : Alphabet) (text : List Char) : Option (List UInt8) :=
  let digits := text.takeWhile (· != '=')
  let padding := text.dropWhile (· != '=')
  if padding = List.replicate ((4 - digits.length % 4) % 4) '=' then decode? α digits else none

/-! ### Sextets determine octets -/

private theorem octet_of_parts (b : UInt8) (k : Nat) (hk : k = b.toNat) : UInt8.ofNat k = b := by
  subst hk; simp

theorem octets?_sextets (octets : List UInt8) : octets? (sextets octets) = some octets := by
  fun_induction sextets octets with
  | case1 a b c rest ih =>
    have ha := a.toNat_lt; have hb := b.toNat_lt; have hc := c.toNat_lt
    simp only [octets?, ih, Option.map_some]
    rw [octet_of_parts a _ (by omega), octet_of_parts b _ (by omega), octet_of_parts c _ (by omega)]
  | case2 a b =>
    have ha := a.toNat_lt; have hb := b.toNat_lt
    simp only [octets?]
    rw [if_pos (by omega), octet_of_parts a _ (by omega), octet_of_parts b _ (by omega)]
  | case3 a =>
    have ha := a.toNat_lt
    simp only [octets?]
    rw [if_pos (by omega), octet_of_parts a _ (by omega)]
  | case4 => rfl

theorem sextets_lt (octets : List UInt8) : ∀ v ∈ sextets octets, v < 64 := by
  fun_induction sextets octets with
  | case1 a b c rest ih =>
    have ha := a.toNat_lt; have hb := b.toNat_lt; have hc := c.toNat_lt
    intro v hv
    simp only [List.mem_cons] at hv
    rcases hv with rfl | rfl | rfl | rfl | hv
    · omega
    · omega
    · omega
    · omega
    · exact ih v hv
  | case2 a b =>
    have ha := a.toNat_lt; have hb := b.toNat_lt
    intro v hv
    simp only [List.mem_cons, List.not_mem_nil, or_false] at hv
    rcases hv with rfl | rfl | rfl <;> omega
  | case3 a =>
    have ha := a.toNat_lt
    intro v hv
    simp only [List.mem_cons, List.not_mem_nil, or_false] at hv
    rcases hv with rfl | rfl <;> omega
  | case4 => simp

end TokenAuthority.Base64
