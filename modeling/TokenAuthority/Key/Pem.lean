import TokenAuthority.Text.Base64
import TokenAuthority.Text.Blank
import TokenAuthority.Text.Split

/-!
# Armoured blocks

A block of octets in text: a line that names what it is, headers or none, the octets in sextet text
broken into lines, and a line that ends it. The text before the first block and after it does not
matter.
-/

namespace TokenAuthority.Pem

/-- A block: what it is said to be, and its octets. -/
structure Block where
  label : String
  octets : List UInt8

/-- Searches for a marker of which the characters `missing` are still to come and puts together the
text before it. A character that does not go on the marker starts the search again behind it. -/
def searchFrom (marker : List Char) :
    (missing : List Char) → (before : List Char) → List Char → Option (List Char × List Char)
  | [], before, rest => some (before.reverse.take (before.length - marker.length), rest)
  | _ :: _, _, [] => none
  | m :: missing, before, c :: rest =>
    searchFrom marker (if c = m then missing else marker) (c :: before) rest

/-- The text before the first place where a marker is found, and the text behind it. -/
def search (marker : String) (text : List Char) : Option (List Char × List Char) :=
  searchFrom marker.toList marker.toList [] text

def skipBlanks (text : List Char) : List Char :=
  text.dropWhile fun c => c = ' ' || c = '\t' || c = '\r' || c = '\n'

/-- Cuts the inner text of a block into headers and data, at the first empty line. -/
def headersAndData (body : List Char) : List Char × List Char :=
  match search "\n\n" body with
  | some parts => parts
  | none => (search "\r\n\r\n" body).getD ([], body)

def parse? (text : String) : Option Block := do
  let (_, rest) ← search "-----BEGIN " text.toList
  let (label, rest) ← search "-----" rest
  let (body, rest) ← search "-----END " (skipBlanks rest)
  let (endLabel, _) ← search "-----" rest
  if label.isEmpty ∨ label ≠ endLabel then none
  else
    let (headers, data) := headersAndData body
    let octets ← Base64.decodePadded? Base64.standard ((Split.lines data).flatMap Blank.trimBack)
    if (Split.lines headers).all (·.contains ':') then return ⟨String.ofList label, octets⟩ else none

end TokenAuthority.Pem
