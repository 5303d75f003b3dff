/-!
# Hard failures

Failures to load keys, to make tokens or to hash. They come from wrong settings or from an unusable
environment, never from what a client presents.
-/

namespace TokenAuthority

/-- What every client is told about a failure inside. -/
def internalServerError : String := "internal server error"

/-- A failure of the cryptographic layer, with details for the logs. -/
inductive CryptoError where
  | hashing (detail : String)
  | keyLoad (detail : String)
  | encoding (detail : String)
  | invalidCredential (detail : String)
deriving DecidableEq

namespace CryptoError

def message : CryptoError → String
  | .hashing detail => "hashing error: " ++ detail
  | .keyLoad detail => "key load error: " ++ detail
  | .encoding detail => "token encoding error: " ++ detail
  | .invalidCredential detail => "invalid credential: " ++ detail

/-- What a client is told. -/
def publicMessage (_ : CryptoError) : String := internalServerError

end CryptoError

end TokenAuthority
