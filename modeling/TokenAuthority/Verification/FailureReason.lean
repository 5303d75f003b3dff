/-!
# Reasons to reject a token

The closed list of reasons for which a presented token is not accepted. Logs and counters see the
code of a reason; clients see the same text for all of them.
-/

namespace TokenAuthority

/-- Why a token is rejected. -/
inductive FailureReason where
  | malformedToken
  | signatureInvalid
  | expiredToken
  | wrongTokenType
  | tokenRevoked
  | revocationCheckUnavailable
  | invalidClaims
  | rateLimited
deriving DecidableEq

namespace FailureReason

/-- The text that every rejected client sees. -/
def authenticationFailed : String := "authentication failed"

/-- The stable code for logs and counters. -/
def code : FailureReason → String
  | .malformedToken => "malformed_token"
  | .signatureInvalid => "signature_invalid"
  | .expiredToken => "expired_token"
  | .wrongTokenType => "wrong_token_type"
  | .tokenRevoked => "token_revoked"
  | .revocationCheckUnavailable => "revocation_check_unavailable"
  | .invalidClaims => "invalid_claims"
  | .rateLimited => "rate_limited"

def message : FailureReason → String
  | .malformedToken => "malformed token"
  | .signatureInvalid => "invalid token signature"
  | .expiredToken => "token expired"
  | .wrongTokenType => "unexpected token type"
  | .tokenRevoked => "token revoked"
  | .revocationCheckUnavailable => "revocation status could not be checked"
  | .invalidClaims => "invalid token claims"
  | .rateLimited => "too many failed verification attempts"

/-- What a client is told: nothing that would tell one reason from another. -/
def publicMessage (_ : FailureReason) : String := authenticationFailed

/-- Whether the reason points to a forged or garbled token rather than to an ordinary end of one.
Such failures count towards the throttle. -/
def isSuspicious : FailureReason → Bool
  | .malformedToken => true
  | .signatureInvalid => true
  | .invalidClaims => true
  | _ => false

end FailureReason

end TokenAuthority
