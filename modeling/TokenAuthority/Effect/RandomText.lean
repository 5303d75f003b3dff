import TokenAuthority.Effect.Action
import TokenAuthority.Key.Error
import TokenAuthority.Text.Base64
import TokenAuthority.Text.Hex

/-!
# Random text

Identifiers and one-off secrets: fresh random octets in digits that need no escaping in a URL, and
random identifiers of version four of RFC 9562.
-/

namespace TokenAuthority.RandomText

/-- Octets in digits that need no escaping in a URL. -/
def ofOctets (octets : List UInt8) : String :=
  String.ofList (Base64.encode Base64.urlSafe octets)

/-- A text of some fresh random octets. -/
def draw (count : Nat) : Action (Except CryptoError String) := do
  if count = 0 then return .error (.hashing "secure token length must be non-zero")
  else
    let octets ← Action.query (.draw count)
    return .ok (ofOctets octets)

/-- The identifier that sixteen octets give once version and variant are set in them. -/
def identifier (octets : List UInt8) : String :=
  let marked := octets.mapIdx fun i b =>
    if i = 6 then (b &&& 0x0f) ||| 0x40 else if i = 8 then (b &&& 0x3f) ||| 0x80 else b
  let part (start count : Nat) := Hex.encode ((marked.drop start).take count)
  "-".intercalate [part 0 4, part 4 2, part 6 2, part 8 2, part 10 6]

def drawIdentifier : Action String := do
  let octets ← Action.query (.draw 16)
  return identifier octets

end TokenAuthority.RandomText
