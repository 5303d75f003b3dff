import TokenAuthority.Text.Hex
import TokenAuthority.Text.Split
import TokenAuthority.Text.Utf8

/-!
# Percent encoding

Octets that a URL cannot hold stand in it as a percent sign and two hexadecimal digits. A query is a
list of names and values with such octets in them, in which a plus sign stands for a blank.
-/

namespace TokenAuthority.Percent

/-- The octets that a text stands for. A percent sign without two digits after it stands for itself. -/
def octets : List Char → List UInt8
  | [] => []
  | '%' :: a :: b :: rest =>
    match Hex.ofChars? [a, b] with
    | some coded => coded ++ octets rest
    | none => Utf8.encode "%" ++ octets (a :: b :: rest)
  | c :: rest => Utf8.encode (String.singleton c) ++ octets rest

/-- The text that a text stands for, if its octets are a text. -/
def decode? (text : List Char) : Option String := Utf8.decode? (octets text)

/-- The form of an octet that cannot stand for itself. -/
def encodeOctet (b : UInt8) : List Char :=
  '%' :: [b.toNat / 16, b.toNat % 16].map fun n => (Hex.digit n).toUpper

/-- A text with control characters and all beyond ASCII encoded. -/
def encodeControls (text : List Char) : List Char :=
  text.flatMap fun c =>
    if c.toNat < 0x20 ∨ 0x7f ≤ c.toNat then
      (Utf8.encode (String.singleton c)).flatMap encodeOctet
    else [c]

/-! ### Queries -/

/-- A name or a value in a query. -/
def queryText (part : List Char) : String :=
  Utf8.decodeLenient (octets (part.map fun c => if c = '+' then ' ' else c))

/-- The names and values of a query, in their order. -/
def queryPairs (query : List Char) : List (String × String) :=
  ((Split.on '&' query).filter fun part => !part.isEmpty).map fun part =>
    (queryText (part.takeWhile (· ≠ '=')), queryText ((part.dropWhile (· ≠ '=')).drop 1))

/-- The value of a name in a query; the last one counts. -/
def queryValue? (query : List Char) (name : String) : Option String :=
  ((queryPairs query).reverse.find? (·.1 = name)).map Prod.snd

end TokenAuthority.Percent
