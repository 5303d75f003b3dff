import TokenAuthority.Effect.Action
import TokenAuthority.Key.Error
import TokenAuthority.Password.Bcrypt

/-!
# Hashing passwords

A hasher has a cost, within the range that hashes allow. Each hash has a fresh salt. Verifying never
fails: a stored form that cannot be read belongs to no password.
-/

namespace TokenAuthority

structure PasswordHasher where
  cost : Nat
  isCost : Bcrypt.isCost cost = true := by decide

/-- A stored form, and its salt once more. -/
structure PasswordHash where
  hash : String
  salt : String
deriving DecidableEq

namespace PasswordHasher

def defaultCost : Nat := 12

def standard : PasswordHasher := { cost := defaultCost }

def ofCost (cost : Nat) : Except CryptoError PasswordHasher :=
  if h : Bcrypt.isCost cost = true then .ok ⟨cost, h⟩
  else
    .error (.hashing ("bcrypt cost must be between " ++ toString Bcrypt.minCost ++ " and "
      ++ toString Bcrypt.maxCost ++ ", got " ++ toString cost))

def hashWith (h : PasswordHasher) (salt : List UInt8) (password : String) : PasswordHash where
  hash := (Bcrypt.hash h.cost salt password).text
  salt := Bcrypt.Stored.saltText salt

/-- The stored form of a password under a fresh salt. -/
def hash (h : PasswordHasher) (password : String) : Action PasswordHash := do
  let salt ← Action.query (.draw Bcrypt.saltLength)
  return h.hashWith salt password

/-- Whether a password is the one that a stored form was made of, whatever its cost. -/
def verify (_ : PasswordHasher) (password stored : String) : Bool :=
  Bcrypt.verify password stored

end PasswordHasher

end TokenAuthority
