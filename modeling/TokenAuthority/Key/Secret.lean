import TokenAuthority.Text.Utf8

/-!
# Strength of secrets

A shared secret is refused when it is short, looks like a placeholder from a sample configuration, has
little entropy, or holds a run of octets that repeat or count up.
-/

namespace TokenAuthority.Secret

/-- How good a usable secret is. -/
inductive Strength where
  | acceptable
  | strong
deriving DecidableEq

/-- Why a secret is refused. -/
inductive Weakness where
  | tooShort
  | lowEntropy
  | repeatingOrSequential
  | placeholder
deriving DecidableEq

def Weakness.message : Weakness → String
  | .tooShort => "secret must be at least 32 bytes"
  | .lowEntropy => "secret has too little entropy"
  | .repeatingOrSequential => "secret contains repeated or sequential runs"
  | .placeholder => "secret looks like a placeholder value"

/-- The fewest octets of a usable secret. -/
def minLength : Nat := 32

/-- The fewest octets of a strong secret. -/
def strongLength : Nat := 64

/-- The least entropy of a usable secret, in bits for each octet. -/
def minEntropy : Float := 4

/-- The least entropy of a strong secret. -/
def strongEntropy : Float := 5

/-- The shortest run that is refused. -/
def refusedRun : Nat := 4

/-- Texts by which placeholders are known, in lower case. -/
def placeholderMarkers : List String :=
  ["changeme", "change-me", "change_me", "your-secret", "your_secret", "replace-me", "placeholder",
   "example"]

/-! ### Measures -/

def occursIn (part : List Char) : List Char → Bool
  | [] => part.isEmpty
  | c :: rest => part.isPrefixOf (c :: rest) || occursIn part rest

/-- Whether a secret holds a marker, with ASCII letters of either case. -/
def isPlaceholder (secret : String) : Bool :=
  let lowered := secret.toList.map Char.toLower
  placeholderMarkers.any fun marker => occursIn marker.toList lowered

/-- The entropy of octets in bits for each octet, from how often each value occurs. -/
def entropy (octets : List UInt8) : Float :=
  let counts := octets.foldl (fun counts b => counts.modify b.toNat (· + 1)) (Array.replicate 256 0)
  let total := Float.ofNat octets.length
  counts.toList.foldl
    (fun sum n =>
      if n = 0 then sum
      else
        let share := Float.ofNat n / total
        sum + -share * share.log2)
    0

/-- Goes on along octets, the last of which was `last` and ended a run of `current`; `longest` is the
longest run so far. -/
def longestRunFrom (continues : UInt8 → UInt8 → Bool) :
    (longest current : Nat) → (last : UInt8) → List UInt8 → Nat
  | longest, _, _, [] => longest
  | longest, current, last, b :: rest =>
    if continues last b then
      longestRunFrom continues (max longest (current + 1)) (current + 1) b rest
    else longestRunFrom continues longest 1 b rest

/-- The length of the longest run of octets in which each continues the one before it. -/
def longestRun (continues : UInt8 → UInt8 → Bool) : List UInt8 → Nat
  | [] => 0
  | b :: rest => longestRunFrom continues 1 1 b rest

/-- Whether an octet repeats the one before it. -/
def repeats (a b : UInt8) : Bool := a == b

/-- Whether an octet is one more than the one before it. -/
def countsUp (a b : UInt8) : Bool := b.toNat == a.toNat + 1

/-! ### Assessment -/

/-- The strength of a secret with a given entropy, or the first reason to refuse it. -/
def assessWith (entropy : Float) (secret : String) : Except Weakness Strength :=
  let octets := Utf8.encode secret
  if octets.length < minLength then .error .tooShort
  else if isPlaceholder secret then .error .placeholder
  else if entropy < minEntropy then .error .lowEntropy
  else if refusedRun ≤ longestRun repeats octets ∨ refusedRun ≤ longestRun countsUp octets then
    .error .repeatingOrSequential
  else if strongLength ≤ octets.length ∧ strongEntropy ≤ entropy then .ok .strong
  else .ok .acceptable

/-- The strength of a secret, or the first reason to refuse it. -/
def assess (secret : String) : Except Weakness Strength :=
  assessWith (entropy (Utf8.encode secret)) secret

end TokenAuthority.Secret
