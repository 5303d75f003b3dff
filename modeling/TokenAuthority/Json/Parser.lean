import TokenAuthority.Json.Basic
import TokenAuthority.Text.Hex
import TokenAuthority.Text.Utf8

/-!
# Reading JSON text

The grammar of RFC 8259 with two limits: arrays and objects may not stand more than `maxDepth` deep
in one another, and a number may not be larger than the binary floating-point format of sixty-four
bits can hold.
-/

namespace TokenAuthority.Json

def maxDepth : Nat := 127

/-- Blanks between the parts of a text. -/
def isSpace (c : Char) : Bool :=
  c = ' ' || c = '\n' || c = '\t' || c = '\r'

def skipSpace (cs : List Char) : List Char :=
  cs.dropWhile isSpace

/-! ### Strings -/

def hex4? (a b c d : Char) : Option Nat := do
  let a ← Hex.digit? a
  let b ← Hex.digit? b
  let c ← Hex.digit? c
  let d ← Hex.digit? d
  return ((a * 16 + b) * 16 + c) * 16 + d

/-- The character that a letter after a reverse solidus stands for. -/
def simpleEscape? : Char → Option Char
  | '"' => some '"'
  | '\\' => some '\\'
  | '/' => some '/'
  | 'b' => some '\x08'
  | 'f' => some '\x0c'
  | 'n' => some '\n'
  | 'r' => some '\r'
  | 't' => some '\t'
  | _ => none

/-- Whether a number is the first half of a surrogate pair. -/
def isHighSurrogate (n : Nat) : Bool := 0xD800 ≤ n && n < 0xDC00

/-- Whether a number is the second half of a surrogate pair. -/
def isLowSurrogate (n : Nat) : Bool := 0xDC00 ≤ n && n < 0xE000

/-- The characters up to the closing quote, and what follows it. A character outside the basic plane
may be escaped as a surrogate pair; half a pair has no reading. -/
def stringBody : List Char → Option (List Char × List Char)
  | [] => none
  | '"' :: rest => some ([], rest)
  | '\\' :: 'u' :: a :: b :: c :: d :: rest =>
    match hex4? a b c d with
    | none => none
    | some n =>
      if isHighSurrogate n then
        match rest with
        | '\\' :: 'u' :: e :: f :: g :: h :: tail =>
          match hex4? e f g h with
          | none => none
          | some m =>
            if isLowSurrogate m then
              (stringBody tail).map fun r =>
                (Char.ofNat (0x10000 + (n - 0xD800) * 0x400 + (m - 0xDC00)) :: r.1, r.2)
            else none
        | _ => none
      else if isLowSurrogate n then none
      else (stringBody rest).map fun r => (Char.ofNat n :: r.1, r.2)
  | '\\' :: e :: rest =>
    match simpleEscape? e with
    | none => none
    | some c => (stringBody rest).map fun r => (c :: r.1, r.2)
  | c :: rest =>
    if c.toNat < 32 then none else (stringBody rest).map fun r => (c :: r.1, r.2)

/-! ### Numbers -/

def digits (cs : List Char) : List Char × List Char :=
  (cs.takeWhile Char.isDigit, cs.dropWhile Char.isDigit)

def ofDigits (ds : List Char) : Nat :=
  ds.foldl (fun n d => 10 * n + (d.toNat - 48)) 0

/-- Whether `significand * 10 ^ exponent` is within the range of the floating-point format. Beyond
three hundred and ten digits the answer does not depend on which digits they are. -/
def inRange (significand : Nat) (exponent : Int) : Bool :=
  if significand = 0 then true
  else
    let top := (Nat.toDigits 10 significand).length + exponent
    if top < 308 then true
    else if 310 < top then false
    else
      significand * 10 ^ exponent.toNat < (2 ^ 1024 - 2 ^ 970) * 10 ^ (-exponent).toNat

/-- A fraction: a point and digits. No point means no fraction. -/
def fraction? : List Char → Option (Option (List Char) × List Char)
  | '.' :: rest =>
    let (ds, rest) := digits rest
    if ds.isEmpty then none else some (some ds, rest)
  | rest => some (none, rest)

/-- An exponent: the letter, a sign or none, and digits. No letter means no exponent. -/
def exponent? (cs : List Char) : Option (Option Int × List Char) :=
  match cs with
  | c :: rest =>
    if c = 'e' ∨ c = 'E' then
      let (negative, rest) := match rest with
        | '-' :: r => (true, r)
        | '+' :: r => (false, r)
        | r => (false, r)
      let (ds, rest) := digits rest
      if ds.isEmpty then none
      else
        let n : Int := ofDigits ds
        some (some (if negative then -n else n), rest)
    else some (none, cs)
  | [] => some (none, [])

/-- A number after its sign. -/
def unsigned? (negative : Bool) (cs : List Char) : Option (Number × List Char) := do
  let (ds, rest) := digits cs
  if ds.isEmpty ∨ (ds.head? = some '0' ∧ 1 < ds.length) then none
  else
    let (fraction, rest) ← fraction? rest
    let (exponent, rest) ← exponent? rest
    let n := ofDigits ds
    if fraction.isNone ∧ exponent.isNone ∧ negative ∧ 0 < n ∧ n ≤ 2 ^ 63 then
      return (.whole (-n), rest)
    else if fraction.isNone ∧ exponent.isNone ∧ !negative ∧ n < 2 ^ 64 then
      return (.whole n, rest)
    else
      let places := fraction.getD []
      let significand := ofDigits (ds ++ places)
      let scale := exponent.getD 0 - places.length
      if inRange significand scale then return (.decimal negative significand scale, rest) else none

/-- A number with its sign. -/
def number? : List Char → Option (Number × List Char)
  | '-' :: rest => unsigned? true rest
  | cs => unsigned? false cs

/-! ### Values -/

mutual

/-- A value after blanks, and what follows it. `fuel` is at least the length of the text, `depth` is
how many more arrays and objects may be opened. -/
def value? : (fuel depth : Nat) → List Char → Option (Json × List Char)
  | 0, _, _ => none
  | fuel + 1, depth, cs =>
    match skipSpace cs with
    | 'n' :: 'u' :: 'l' :: 'l' :: rest => some (.null, rest)
    | 't' :: 'r' :: 'u' :: 'e' :: rest => some (.bool true, rest)
    | 'f' :: 'a' :: 'l' :: 's' :: 'e' :: rest => some (.bool false, rest)
    | '"' :: rest => (stringBody rest).map fun r => (.string (String.ofList r.1), r.2)
    | '[' :: rest =>
      if depth = 0 then none
      else
        match skipSpace rest with
        | ']' :: rest => some (.array [], rest)
        | rest => (items? fuel (depth - 1) rest).map fun r => (.array r.1, r.2)
    | '{' :: rest =>
      if depth = 0 then none
      else
        match skipSpace rest with
        | '}' :: rest => some (.object [], rest)
        | rest => (members? fuel (depth - 1) rest).map fun r => (.object r.1, r.2)
    | cs => (number? cs).map fun r => (.number r.1, r.2)

/-- One item or more, and the closing bracket. -/
def items? : (fuel depth : Nat) → List Char → Option (List Json × List Char)
  | 0, _, _ => none
  | fuel + 1, depth, cs =>
    match value? fuel depth cs with
    | none => none
    | some (item, rest) =>
      match skipSpace rest with
      | ']' :: rest => some ([item], rest)
      | ',' :: rest => (items? fuel depth rest).map fun r => (item :: r.1, r.2)
      | _ => none

/-- One member or more, and the closing brace. -/
def members? : (fuel depth : Nat) → List Char → Option (List (String × Json) × List Char)
  | 0, _, _ => none
  | fuel + 1, depth, cs =>
    match skipSpace cs with
    | '"' :: rest =>
      match stringBody rest with
      | none => none
      | some (name, rest) =>
        match skipSpace rest with
        | ':' :: rest =>
          match value? fuel depth rest with
          | none => none
          | some (value, rest) =>
            match skipSpace rest with
            | '}' :: rest => some ([(String.ofList name, value)], rest)
            | ',' :: rest =>
              (members? fuel depth rest).map fun r => ((String.ofList name, value) :: r.1, r.2)
            | _ => none
        | _ => none
    | _ => none

end

/-- The value of a whole text. -/
def ofChars? (cs : List Char) : Option Json := do
  let (value, rest) ← value? (2 * cs.length + 2) maxDepth cs
  if (skipSpace rest).isEmpty then return value else none

def parse? (text : String) : Option Json :=
  ofChars? text.toList

def ofOctets? (octets : List UInt8) : Option Json :=
  (Utf8.decode? octets).bind parse?

end TokenAuthority.Json
