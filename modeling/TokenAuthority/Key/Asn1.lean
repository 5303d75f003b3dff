import TokenAuthority.Text.Utf8

/-!
# Structured octets

Keys and certificates are octets in the tagged form of X.690. `Block.parse?` reads all of it leniently
and keeps what tells keys apart; `naturals?` reads strictly the one shape that RSA keys have, a
sequence of whole numbers.
-/

namespace TokenAuthority.Asn1

/-! ### Lenient reading -/

/-- A piece of tagged octets. -/
inductive Block where
  | sequence (items : List Block)
  | bitString (octets : List UInt8)
  | octetString (octets : List UInt8)
  | objectIdentifier (arcs : List Nat)
  | other

/-- A number in digits of seven bits, the last of which has its high bit clear. -/
def base128? (value : Nat) : List UInt8 → Option (Nat × List UInt8)
  | [] => none
  | b :: rest =>
    let value := value * 128 + b.toNat % 128
    if b.toNat < 128 then some (value, rest) else base128? value rest

/-- A number in a given count of octets. -/
def base256? (value : Nat) : (count : Nat) → List UInt8 → Option (Nat × List UInt8)
  | 0, rest => some (value, rest)
  | _ + 1, [] => none
  | count + 1, b :: rest => base256? (value * 256 + b.toNat) count rest

/-- A length: one octet, or the count of octets that hold it, of which there are at most eight. -/
def length? : List UInt8 → Option (Nat × List UInt8)
  | [] => none
  | b :: rest =>
    if b.toNat < 128 then some (b.toNat, rest)
    else if 8 < b.toNat % 128 then none
    else base256? 0 (b.toNat % 128) rest

/-- A number in digits of seven bits shortens the octets. -/
theorem length_base128 {value : Nat} {octets : List UInt8} {r : Nat × List UInt8}
    (h : base128? value octets = some r) : r.2.length < octets.length := by
  induction octets generalizing value with
  | nil => cases h
  | cons b rest ih =>
    simp only [base128?] at h
    split at h
    · cases h; simp
    · exact Nat.lt_succ_of_lt (ih h)

/-- A number of a given count of octets does not lengthen them. -/
theorem length_base256 {value count : Nat} {octets : List UInt8} {r : Nat × List UInt8}
    (h : base256? value count octets = some r) : r.2.length ≤ octets.length := by
  induction octets generalizing value count with
  | nil =>
    cases count with
    | zero => cases h; simp
    | succ n => cases h
  | cons b rest ih =>
    cases count with
    | zero => cases h; simp
    | succ n => exact Nat.le_succ_of_le (ih h)

theorem length_length {octets : List UInt8} {r : Nat × List UInt8}
    (h : length? octets = some r) : r.2.length < octets.length := by
  cases octets with
  | nil => cases h
  | cons b rest =>
    simp only [length?] at h
    split at h
    · cases h; simp
    · split at h
      · cases h
      · exact Nat.lt_succ_of_le (length_base256 h)

/-- What stands in front of a piece: its tag, and whether it is of the universal class and made of
other pieces. -/
structure Tag where
  number : Nat
  isUniversal : Bool
  isConstructed : Bool

/-- The tag at the front. -/
def tag? : List UInt8 → Option (Tag × List UInt8)
  | [] => none
  | b :: rest =>
    let tag (n : Nat) : Tag := ⟨n, b.toNat < 64, b.toNat / 32 % 2 = 1⟩
    if b.toNat % 32 = 31 then (base128? 0 rest).map fun r => (tag r.1, r.2)
    else some (tag (b.toNat % 32), rest)

theorem length_tag {octets : List UInt8} {r : Tag × List UInt8}
    (h : tag? octets = some r) : r.2.length < octets.length := by
  cases octets with
  | nil => cases h
  | cons b rest =>
    simp only [tag?] at h
    split at h
    · simp only [Option.map_eq_some_iff] at h
      obtain ⟨x, hx, rfl⟩ := h
      exact Nat.lt_succ_of_lt (length_base128 hx)
    · cases h; simp

/-- The numbers of an object identifier; the first octet holds two of them. -/
def arcs? : List UInt8 → Option (List Nat)
  | [] => none
  | b :: rest =>
    let first := Nat.min (b.toNat / 40) 2
    (more rest.length rest).map fun arcs => first :: (b.toNat - 40 * first) :: arcs
where
  /-- The numbers after the first two. -/
  more : Nat → List UInt8 → Option (List Nat)
    | _, [] => some []
    | 0, _ => none
    | fuel + 1, octets =>
      match base128? 0 octets with
      | none => none
      | some (arc, rest) => (more fuel rest).map (arc :: ·)

/-- The characters that a printable string may have. -/
def isPrintable (b : UInt8) : Bool :=
  let c := Char.ofNat b.toNat
  c.isAlphanum || " '()+,-./:=?".toList.contains c

/-- Whether digits, as octets, are a time of the form `YYYYMMDDhhmmss`. -/
def isTime (octets : List UInt8) : Bool :=
  let number (start count : Nat) : Nat :=
    ((octets.drop start).take count).foldl (fun n b => 10 * n + (b.toNat - 48)) 0
  let year := number 0 4
  let month := number 4 2
  let day := number 6 2
  let daysInMonth :=
    if month = 2 then
      if year % 4 = 0 ∧ (year % 100 ≠ 0 ∨ year % 400 = 0) then 29 else 28
    else if [4, 6, 9, 11].contains month then 30 else 31
  octets.length = 14 && octets.all (fun b => 48 ≤ b.toNat && b.toNat ≤ 57)
    && 1 ≤ month && month ≤ 12 && 1 ≤ day && day ≤ daysInMonth
    && number 8 2 < 24 && number 10 2 < 60 && number 12 2 < 60

/-- Whether octets are a time in universal time with two digits for the year. -/
def isShortTime (octets : List UInt8) : Bool :=
  let century : List UInt8 := if octets.take 1 < [53] then [50, 48] else [49, 57]
  octets.length = 13 && octets.getLast? = some 90 && isTime (century ++ octets.dropLast)

/-- Whether octets are a time in universal time with four digits for the year, and a fraction of a
second of at most nine digits. -/
def isLongTime (octets : List UInt8) : Bool :=
  let fraction := (octets.drop 14).dropLast
  15 ≤ octets.length && octets.getLast? = some 90 && isTime (octets.take 14)
    && (fraction.isEmpty || (fraction.head? = some 46 && fraction.length ≤ 10
      && fraction.tail.all fun b => 48 ≤ b.toNat && b.toNat ≤ 57))

/-- Octets in pairs as units of sixteen bits make well-formed text. -/
def isWideText : List UInt8 → Bool
  | [] => true
  | [_] => false
  | a :: _ :: rest =>
    if 0xD8 ≤ a.toNat ∧ a.toNat < 0xDC then
      match rest with
      | c :: _ :: rest => 0xDC ≤ c.toNat && c.toNat < 0xE0 && isWideText rest
      | _ => false
    else !(0xDC ≤ a.toNat && a.toNat < 0xE0) && isWideText rest

/-- A piece of the universal class that is not made of other pieces, given its tag. -/
def primitive? (tag : Nat) (body : List UInt8) : Option Block :=
  match tag with
  | 0x01 => if body.length = 1 then some .other else none
  | 0x03 =>
    match body with
    | [] => some (.bitString [])
    | unused :: octets => if unused.toNat ≤ 8 * octets.length then some (.bitString octets) else none
  | 0x04 => some (.octetString body)
  | 0x06 => (arcs? body).map .objectIdentifier
  | 0x0C => (Utf8.decode? body).map fun _ => .other
  | 0x13 => if body.all isPrintable then some .other else none
  | 0x14 => (Utf8.decode? body).map fun _ => .other
  | 0x16 => if body.all (·.toNat < 128) then some .other else none
  | 0x17 => if isShortTime body then some .other else none
  | 0x18 => if isLongTime body then some .other else none
  | 0x1C => (Utf8.decode? body).map fun _ => .other
  | 0x1E => if isWideText body then some .other else none
  | _ => some .other

/-- Reads octets as pieces one after the other; there must be at least one. What is inside a piece of
another class is not looked at. -/
def parse? (octets : List UInt8) : Option (List Block) :=
  match _h : tag? octets with
  | none => none
  | some (tag, afterTag) =>
    match _h' : length? afterTag with
    | none => none
    | some (length, contents) =>
      if contents.length < length then none
      else
        let body := contents.take length
        let rest := contents.drop length
        let block :=
          if tag.isUniversal ∧ (tag.number = 0x10 ∨ tag.number = 0x11) then
            (parse? body).map fun items => if tag.number = 0x10 then .sequence items else .other
          else if tag.isUniversal then primitive? tag.number body
          else some .other
        match block with
        | none => none
        | some block => if rest.isEmpty then some [block] else (parse? rest).map (block :: ·)
termination_by octets.length
decreasing_by
  · have h1 := length_tag _h
    have h2 := length_length _h'
    simp only at h1 h2
    simp only [List.length_take]
    omega
  · have h1 := length_tag _h
    have h2 := length_length _h'
    simp only at h1 h2
    simp only [List.length_drop]
    omega

mutual

/-- The object identifiers of a piece, in order, of its sequences too. -/
def Block.identifiers : Block → List (List Nat)
  | .sequence items => identifiersOf items
  | .objectIdentifier arcs => [arcs]
  | _ => []

def identifiersOf : List Block → List (List Nat)
  | [] => []
  | block :: rest => block.identifiers ++ identifiersOf rest

end

mutual

/-- The bit strings and octet strings of a piece, in order, of its sequences too. -/
def Block.strings : Block → List (List UInt8)
  | .sequence items => stringsOf items
  | .bitString octets => [octets]
  | .octetString octets => [octets]
  | _ => []

def stringsOf : List Block → List (List UInt8)
  | [] => []
  | block :: rest => block.strings ++ stringsOf rest

end

/-! ### Strict reading -/

/-- A piece with a given tag octet and the shortest form of its length, which fits two octets. -/
def strict? (tag : UInt8) : List UInt8 → Option (List UInt8 × List UInt8)
  | t :: rest =>
    if t ≠ tag then none
    else
      let length := match rest with
        | 0x81 :: a :: rest => if 0x80 ≤ a.toNat then some (a.toNat, rest) else none
        | 0x82 :: a :: b :: rest =>
          if a.toNat = 0 then none else some (256 * a.toNat + b.toNat, rest)
        | a :: rest => if a.toNat < 0x80 then some (a.toNat, rest) else none
        | [] => none
      match length with
      | none => none
      | some (n, contents) =>
        if contents.length < n then none else some (contents.take n, contents.drop n)
  | [] => none

def natural (octets : List UInt8) : Nat :=
  octets.foldl (fun n b => 256 * n + b.toNat) 0

/-- A whole number that is not negative, in as few octets as it needs. -/
def natural? : List UInt8 → Option Nat
  | [] => none
  | [b] => if b.toNat < 128 then some b.toNat else none
  | a :: b :: rest =>
    if 128 ≤ a.toNat ∨ (a.toNat = 0 ∧ b.toNat < 128) then none else some (natural (a :: b :: rest))

/-- Whole numbers one after the other. `fuel` is at least the length of the octets. -/
def naturalsFrom? : (fuel : Nat) → List UInt8 → Option (List Nat)
  | _, [] => some []
  | 0, _ => none
  | fuel + 1, octets =>
    match strict? 0x02 octets with
    | none => none
    | some (body, rest) =>
      match natural? body with
      | none => none
      | some n => (naturalsFrom? fuel rest).map (n :: ·)

/-- A sequence of whole numbers and nothing behind it. -/
def naturals? (octets : List UInt8) : Option (List Nat) :=
  match strict? 0x30 octets with
  | some (body, []) => naturalsFrom? body.length body
  | _ => none

end TokenAuthority.Asn1
