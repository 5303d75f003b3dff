import TokenAuthority.Json.Basic
import TokenAuthority.Text.Hex

/-!
# JSON text

The compact written form: no blanks, members in order, and in strings only the quote, the reverse
solidus and the control characters escaped.
-/

namespace TokenAuthority.Json

def escapedChar (c : Char) : List Char :=
  if c = '"' then ['\\', '"']
  else if c = '\\' then ['\\', '\\']
  else if c = '\n' then ['\\', 'n']
  else if c = '\r' then ['\\', 'r']
  else if c = '\t' then ['\\', 't']
  else if c = '\x08' then ['\\', 'b']
  else if c = '\x0c' then ['\\', 'f']
  else if c.toNat < 32 then
    ['\\', 'u', '0', '0', Hex.digit (c.toNat / 16), Hex.digit (c.toNat % 16)]
  else [c]

def quoted (text : List Char) : List Char :=
  '"' :: (text.flatMap escapedChar ++ ['"'])

def naturalChars (n : Nat) : List Char :=
  Nat.toDigits 10 n

def intChars (n : Int) : List Char :=
  if n < 0 then '-' :: naturalChars n.natAbs else naturalChars n.natAbs

/-- A number; one that is not whole is written with its exponent. -/
def Number.chars : Number → List Char
  | .whole n => intChars n
  | .decimal negative significand exponent =>
    (if negative then ['-'] else []) ++ naturalChars significand ++ 'e' :: intChars exponent

mutual

def chars : Json → List Char
  | .null => ['n', 'u', 'l', 'l']
  | .bool true => ['t', 'r', 'u', 'e']
  | .bool false => ['f', 'a', 'l', 's', 'e']
  | .number n => n.chars
  | .string s => quoted s.toList
  | .array [] => ['[', ']']
  | .array (item :: rest) => '[' :: (chars item ++ itemsChars rest)
  | .object [] => ['{', '}']
  | .object ((name, value) :: rest) =>
    '{' :: (quoted name.toList ++ ':' :: (chars value ++ membersChars rest))

/-- The items after the first, and the closing bracket. -/
def itemsChars : List Json → List Char
  | [] => [']']
  | item :: rest => ',' :: (chars item ++ itemsChars rest)

/-- The members after the first, and the closing brace. -/
def membersChars : List (String × Json) → List Char
  | [] => ['}']
  | (name, value) :: rest =>
    ',' :: (quoted name.toList ++ ':' :: (chars value ++ membersChars rest))

end

def render (value : Json) : String :=
  String.ofList value.chars

end TokenAuthority.Json
