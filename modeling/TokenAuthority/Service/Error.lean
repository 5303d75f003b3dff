import TokenAuthority.Key.Error
import TokenAuthority.Revocation.Store
import TokenAuthority.Verification.FailureReason

/-!
# Failures of the service

Why a call of the service is not carried out. What a client is told does not tell one rejection from
another.
-/

namespace TokenAuthority

/-- Why a call is not carried out. -/
inductive AuthError where
  | rejected (reason : FailureReason)
  | crypto (error : CryptoError)
  | revocation (error : Revocation.Error)
  | config (detail : String)
  | userNotFound
  | userInactive
  | userLookup (detail : String)
deriving DecidableEq

namespace AuthError

def message : AuthError → String
  | .rejected reason => "credential rejected: " ++ reason.message
  | .crypto e => e.message
  | .revocation e => e.message
  | .config detail => "configuration error: " ++ detail
  | .userNotFound => "user not found"
  | .userInactive => "user account is inactive"
  | .userLookup detail => "user lookup failed: " ++ detail

/-- What a client is told. -/
def publicMessage : AuthError → String
  | .rejected _ => FailureReason.authenticationFailed
  | .userNotFound => FailureReason.authenticationFailed
  | .userInactive => FailureReason.authenticationFailed
  | .revocation _ => "service temporarily unavailable"
  | .crypto _ => internalServerError
  | .config _ => internalServerError
  | .userLookup _ => internalServerError

def reason? : AuthError → Option FailureReason
  | .rejected reason => some reason
  | _ => none

end AuthError

end TokenAuthority
