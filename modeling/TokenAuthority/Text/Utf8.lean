/-!
# Text as octets

Text is kept as `String` and read or written as the octets of its UTF-8 form.
`decode?_encode` says that writing loses nothing.
-/

namespace TokenAuthority.Utf8

def encode (text : String) : List UInt8 :=
  text.toByteArray.data.toList

/-- The text of a sequence of octets, when they are well-formed UTF-8. -/
def decode? (octets : List UInt8) : Option String :=
  String.fromUTF8? ⟨octets.toArray⟩

/-! ### Ill-formed octets -/

/-- How many octets follow a first octet, and the range of the second one. -/
def follow? (first : UInt8) : Option (Nat × UInt8 × UInt8) :=
  if 0xc2 ≤ first ∧ first ≤ 0xdf then some (1, 0x80, 0xbf)
  else if first = 0xe0 then some (2, 0xa0, 0xbf)
  else if first = 0xed then some (2, 0x80, 0x9f)
  else if 0xe1 ≤ first ∧ first ≤ 0xef then some (2, 0x80, 0xbf)
  else if first = 0xf0 then some (3, 0x90, 0xbf)
  else if first = 0xf4 then some (3, 0x80, 0x8f)
  else if 0xf1 ≤ first ∧ first ≤ 0xf3 then some (3, 0x80, 0xbf)
  else none

/-- How many of the octets after the first one belong to the character that it begins. -/
def followLength (first : UInt8) (rest : List UInt8) : Nat :=
  match follow? first with
  | none => 0
  | some (count, low, high) =>
    let window := rest.take count
    match window with
    | [] => 0
    | second :: others =>
      if low ≤ second ∧ second ≤ high then
        1 + (others.takeWhile fun b => 0x80 ≤ b && b ≤ 0xbf).length
      else 0

/-- The text of a sequence of octets, with the replacement character for each longest piece that begins
like a character and is none. -/
def decodeLenient (octets : List UInt8) : String :=
  go octets.length octets
where
  /-- `fuel` is at least the number of octets. -/
  go : (fuel : Nat) → List UInt8 → String
    | 0, _ => ""
    | _, [] => ""
    | fuel + 1, b :: rest =>
      let count := followLength b rest
      (decode? (b :: rest.take count)).getD "\uFFFD" ++ go fuel (rest.drop count)

/-! ### Laws -/

@[simp]
theorem decode?_encode (text : String) : decode? (encode text) = some text := by
  have h : (⟨(encode text).toArray⟩ : ByteArray) = text.toByteArray := by
    simp [encode]
  unfold decode?
  rw [h]
  unfold String.fromUTF8?
  rw [dif_pos text.isValidUTF8]
  rfl

end TokenAuthority.Utf8
