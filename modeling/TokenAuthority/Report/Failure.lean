import TokenAuthority.Key.Secret
import TokenAuthority.Report.Basic
import TokenAuthority.Service.Error
import TokenAuthority.Settings.Error
import TokenAuthority.Token.Codec

/-!
# Reported failures

Every error of the library can be reported as a `Failure`: the name of its kind, its words, and what
else is known about it.
-/

namespace TokenAuthority

/-- An error as it is reported. -/
structure Failure where
  kind : String
  message : Option String := none
  details : List (String × Json) := []

namespace Failure

/-- A failure with words. -/
def of (kind message : String) (details : List (String × Json)) : Failure :=
  { kind, message := some message, details }

/-- A failure of which only the kind is told. -/
def bare (kind : String) : Failure := { kind }

def toJson (f : Failure) : Json :=
  .object <|
    ("error", .string f.kind) :: (f.message.map fun m => ("message", Json.string m)).toList ++ f.details

end Failure

/-! ### Kinds -/

def CryptoError.kindName : CryptoError → String
  | .hashing _ => "Hashing"
  | .keyLoad _ => "KeyLoad"
  | .encoding _ => "Encoding"
  | .invalidCredential _ => "InvalidCredential"

def CryptoError.ofKindName? (name detail : String) : Option CryptoError :=
  [.hashing detail, .keyLoad detail, .encoding detail, .invalidCredential detail].find?
    fun e => e.kindName = name

def Secret.Weakness.kindName : Secret.Weakness → String
  | .tooShort => "TooShort"
  | .lowEntropy => "LowEntropy"
  | .repeatingOrSequential => "RepeatingOrSequential"
  | .placeholder => "Placeholder"

def DecodeError.kindName : DecodeError → String
  | .malformed _ => "Malformed"
  | .signatureInvalid => "SignatureInvalid"
  | .expired => "Expired"
  | .invalidClaims _ => "InvalidClaims"

/-- The error with a kind of this name; some kinds take no detail. -/
def DecodeError.ofKindName? (name detail : String) : Option DecodeError :=
  [.malformed detail, .signatureInvalid, .expired, .invalidClaims detail].find?
    fun e => e.kindName = name

def FailureReason.all : List FailureReason :=
  [.malformedToken, .signatureInvalid, .expiredToken, .wrongTokenType, .tokenRevoked,
   .revocationCheckUnavailable, .invalidClaims, .rateLimited]

def FailureReason.kindName : FailureReason → String
  | .malformedToken => "MalformedToken"
  | .signatureInvalid => "SignatureInvalid"
  | .expiredToken => "ExpiredToken"
  | .wrongTokenType => "WrongTokenType"
  | .tokenRevoked => "TokenRevoked"
  | .revocationCheckUnavailable => "RevocationCheckUnavailable"
  | .invalidClaims => "InvalidClaims"
  | .rateLimited => "RateLimited"

def FailureReason.ofKindName? (name : String) : Option FailureReason :=
  all.find? fun r => r.kindName = name

def Cache.Error.kindName : Cache.Error → String
  | .unavailable _ => "Unavailable"
  | .timeout _ => "Timeout"
  | .protocol _ => "Protocol"

def Revocation.Error.kindName : Revocation.Error → String
  | .unavailable _ _ => "Unavailable"
  | .circuitOpen => "CircuitOpen"
  | .invalidTokenId => "InvalidTokenId"
  | .corrupt _ => "Corrupt"

def AuthError.kindName : AuthError → String
  | .rejected _ => "Rejected"
  | .crypto _ => "Crypto"
  | .revocation _ => "Revocation"
  | .config _ => "Config"
  | .userNotFound => "UserNotFound"
  | .userInactive => "UserInactive"
  | .userLookup _ => "UserLookup"

/-! ### Failures -/

def CryptoError.failure (e : CryptoError) : Failure := .of e.kindName e.message []

def Secret.Weakness.failure (w : Secret.Weakness) : Failure := .of w.kindName w.message []

def DecodeError.failure (e : DecodeError) : Failure :=
  .of e.kindName e.message [("reason", .string e.reason.code)]

def Cache.Error.failure (e : Cache.Error) : Failure := .of e.kindName e.message []

def Revocation.Error.failure (e : Revocation.Error) : Failure := .of e.kindName e.message []

/-- A service error, as reported: with what the client is told. -/
def AuthError.failure (e : AuthError) : Failure :=
  .of e.kindName e.message <|
    ("public", .string e.publicMessage)
      :: (e.reason?.map fun r => ("reason", Json.string r.code)).toList

/-- An error of settings, as reported: with all its causes. -/
def Settings.Error.failure (e : Settings.Error) : Failure :=
  .of "Config" e.message [("chain", .string e.chain)]

end TokenAuthority
