import TokenAuthority.Key.Algorithm
import TokenAuthority.Key.Error
import TokenAuthority.Text.Integer
import TokenAuthority.Token.Kind

/-!
# Wrong settings

Why settings cannot be used. An error that was caused by another one can tell its causes.
-/

namespace TokenAuthority.Settings

/-- Why settings cannot be used. -/
inductive Error where
  /-- A variable holds no number of its range. -/
  | notANumber (name : String) (cause : Integer.ReadError)
  /-- A variable holds neither yes nor no. -/
  | notASwitch (name value : String)
  | unknownAlgorithm (cause : CryptoError)
  /-- The key that an algorithm needs is not given. -/
  | missingKey (name : String) (algorithm : SignatureAlgorithm)
  | emptyIssuerOrAudience
  | lifetimeTooShort (kind : TokenKind)
  | accessOutlivesRefresh
  | passwordCost (cause : CryptoError)
  | zeroTimeout
  | throttleWithoutLimit
deriving DecidableEq

namespace Error

/-- The error in words, without its causes. -/
def message : Error → String
  | .notANumber name _ => "Invalid " ++ name
  | .notASwitch name value => "Invalid " ++ name ++ ": " ++ value
  | .unknownAlgorithm cause => "Invalid JWT_ALGORITHM: " ++ cause.message
  | .missingKey name algorithm => name ++ " must be set for " ++ algorithm.name
  | .emptyIssuerOrAudience => "JWT issuer and audience must not be empty"
  | .lifetimeTooShort kind => "JWT " ++ kind.name ++ " TTL must be at least one second"
  | .accessOutlivesRefresh => "JWT access TTL must be shorter than refresh TTL"
  | .passwordCost _ => "invalid PASSWORD_HASH_COST"
  | .zeroTimeout => "revocation timeouts must be non-zero"
  | .throttleWithoutLimit =>
    "VERIFY_THROTTLE_MAX_FAILURES must be positive when throttling is enabled"

def causes : Error → List String
  | .notANumber _ cause => [cause.message]
  | .passwordCost cause => [cause.message]
  | _ => []

/-- The error and its causes in words. -/
def chain (e : Error) : String := ": ".intercalate (e.message :: e.causes)

end Error

end TokenAuthority.Settings
