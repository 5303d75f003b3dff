import TokenAuthority.Digest.Sha256

/-!
# Keyed digests

HMAC of RFC 2104 over SHA-256.
-/

namespace TokenAuthority.Digest.Hmac

/-- A key as one block: a longer key is hashed first, a shorter one is filled up with zeros. -/
def blockKey (key : List UInt8) : List UInt8 :=
  let short := if key.length ≤ 64 then key else Sha256.hash key
  short ++ List.replicate (64 - short.length) 0

/-- The authentication code of a message under a key. -/
def code (key message : List UInt8) : List UInt8 :=
  let block := blockKey key
  let inner := Sha256.hash (block.map (· ^^^ 0x36) ++ message)
  Sha256.hash (block.map (· ^^^ 0x5c) ++ inner)

end TokenAuthority.Digest.Hmac
