import TokenAuthority.Url.Ipv6
import TokenAuthority.Url.Percent

/-!
# URLs

Reading a URL whose scheme has no rules of its own: user and password, host and port, path, query. Parts
are kept as they are written, still percent-encoded; dot segments of a path are resolved.
-/

namespace TokenAuthority

inductive Url.Path where
  /-- Segments, each after a slash. -/
  | segments (segments : List (List Char))
  /-- A text that is no sequence of segments. -/
  | plain (text : List Char)
deriving DecidableEq

inductive Url.Host where
  | name (text : String)
  | ipv6 (groups : List Nat)
deriving DecidableEq

structure Url where
  scheme : String
  /-- The user, empty if there is none. -/
  username : List Char := []
  /-- The password; an empty one counts as none. -/
  password : Option (List Char) := none
  host : Option Url.Host := none
  port : Option Nat := none
  path : Url.Path
  query : Option (List Char)
deriving DecidableEq

namespace Url

/-! ### Characters -/

/-- Whether a character is dropped from the ends of a text. -/
def isPadding (c : Char) : Bool := c.toNat ≤ 0x20

/-- A text without padding at its ends, and without tabs and ends of lines anywhere. -/
def cleaned (text : String) : List Char :=
  let trimmed := ((text.toList.dropWhile isPadding).reverse.dropWhile isPadding).reverse
  trimmed.filter fun c => c ≠ '\t' ∧ c ≠ '\n' ∧ c ≠ '\r'

/-- Whether a character ends the part of a URL that names user and host. -/
def endsAuthority (c : Char) : Bool := c = '/' || c = '?' || c = '#'

/-- Whether a character cannot stand in the name of a host. -/
def isForbiddenInHost (c : Char) : Bool :=
  ['\x00', ' ', '#', '/', ':', '<', '>', '?', '@', '[', '\\', ']', '^', '|'].contains c

/-! ### Parts -/

/-- The scheme in lower case, and what follows the colon after it. -/
def scheme? (cs : List Char) : Option (String × List Char) :=
  let isPart (c : Char) : Bool := c.isAlphanum || c = '+' || c = '-' || c = '.'
  match cs.takeWhile isPart, cs.dropWhile isPart with
  | first :: others, ':' :: rest =>
    if first.isAlpha then some (String.ofList ((first :: others).map Char.toLower), rest) else none
  | _, _ => none

/-- The text before the last place where a character stands, and the text after it. -/
def splitLast? (separator : Char) (cs : List Char) : Option (List Char × List Char) :=
  let after := cs.reverse.takeWhile (· ≠ separator)
  match cs.reverse.dropWhile (· ≠ separator) with
  | [] => none
  | _ :: before => some (before.reverse, after.reverse)

/-- The user and the password in the part before the host. -/
def credentials (info : List Char) : List Char × Option (List Char) :=
  let username := info.takeWhile (· ≠ ':')
  match info.dropWhile (· ≠ ':') with
  | _ :: c :: rest => (username, some (c :: rest))
  | _ => (username, none)

/-- The text of a host and what follows it; a colon inside brackets does not end it. -/
def hostText : (bracketed : Bool) → List Char → List Char × List Char
  | _, [] => ([], [])
  | bracketed, c :: rest =>
    if c = ':' ∧ !bracketed then ([], c :: rest)
    else
      let (host, rest) := hostText (if c = '[' then true else if c = ']' then false else bracketed) rest
      (c :: host, rest)

/-- The host that a text names; an empty text names none. -/
def host? (text : List Char) : Option (Option Host) :=
  match text with
  | [] => some none
  | '[' :: rest =>
    if rest.getLast? = some ']' then (Ipv6.parse? rest.dropLast).map fun groups => some (.ipv6 groups)
    else none
  | _ =>
    if text.any isForbiddenInHost then none
    else some (some (.name (String.ofList (Percent.encodeControls text))))

/-- The port after a colon, which may be left empty, and what follows it. -/
def port? (cs : List Char) : Option (Option Nat × List Char) :=
  let digits := cs.takeWhile Char.isDigit
  let rest := cs.dropWhile Char.isDigit
  let number := digits.foldl (fun n c => 10 * n + (c.toNat - 48)) 0
  if rest.head?.all (· = '\\') ∧ number < 65536 then
    some (if digits.isEmpty then none else some number, rest)
  else none

/-- Whether a segment stands for the one it is in. -/
def isSingleDot (segment : List Char) : Bool :=
  [".", "%2e"].contains (String.ofList (segment.map Char.toLower))

/-- Whether a segment stands for the one above. -/
def isDoubleDot (segment : List Char) : Bool :=
  ["..", "%2e.", ".%2e", "%2e%2e"].contains (String.ofList (segment.map Char.toLower))

/-- Segments without dot segments: those above are kept in `above`, the nearest first. -/
def resolve : (above : List (List Char)) → List (List Char) → List (List Char)
  | above, [] => above.reverse
  | above, [last] =>
    if isDoubleDot last then ([] :: above.tail).reverse
    else if isSingleDot last then ([] :: above).reverse
    else (last :: above).reverse
  | above, segment :: rest =>
    if isDoubleDot segment then resolve above.tail rest
    else if isSingleDot segment then resolve above rest
    else resolve (segment :: above) rest

/-- The path of a text; one that follows a host begins with a slash even if none is written. -/
def Path.read (cs : List Char) : Path :=
  match cs with
  | [] => .plain []
  | '/' :: rest => .segments (resolve [] (Split.on '/' rest))
  | _ => .segments (resolve [] (Split.on '/' cs))

/-- The texts before a query and in it. What follows a number sign is left out. -/
def splitQuery (cs : List Char) : List Char × Option (List Char) :=
  let cs := cs.takeWhile (· ≠ '#')
  let before := cs.takeWhile (· ≠ '?')
  match cs.dropWhile (· ≠ '?') with
  | [] => (before, none)
  | _ :: query => (before, some query)

/-! ### Reading -/

/-- Reads what follows two slashes. -/
def ofAuthority? (scheme : String) (cs : List Char) : Option Url := do
  let authority := cs.takeWhile fun c => !endsAuthority c
  let (before, query) := splitQuery (cs.dropWhile fun c => !endsAuthority c)
  let info := splitLast? '@' authority
  let (username, password) := (info.map fun i => credentials i.1).getD ([], none)
  let (text, rest) := hostText false ((info.map Prod.snd).getD authority)
  let host ← host? text
  let hasCredentials := !username.isEmpty || password.isSome
  -- Credentials or a port need a host, and a lone sign for credentials stands at the very end.
  if host.isNone ∧ (hasCredentials ∨ !rest.isEmpty) then none
  else if authority = ['@'] ∧ authority.length < cs.length then none
  else
    let (port, rest) ← if rest.isEmpty then some (none, rest) else port? rest.tail
    return { scheme, username, password, host, port, path := .read (rest ++ before), query }

def parse? (text : String) : Option Url := do
  let (scheme, rest) ← scheme? (cleaned text)
  match rest with
  | '/' :: '/' :: rest => ofAuthority? scheme rest
  | '/' :: _ =>
    let (before, query) := splitQuery rest
    return { scheme, path := .read before, query }
  | _ =>
    let (before, query) := splitQuery rest
    return { scheme, path := .plain before, query }

end Url

end TokenAuthority
