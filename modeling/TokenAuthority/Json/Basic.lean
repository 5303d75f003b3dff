import TokenAuthority.Power

/-!
# JSON values

Values as they are written: an object keeps its members in order and keeps repeated names, and a
number remembers whether it was written as a whole number that fits sixty-four bits.
-/

namespace TokenAuthority

/-- A number as JSON text gives it. -/
inductive Json.Number where
  /-- A whole number from `-2 ^ 63` to `2 ^ 64 - 1`, written without fraction or exponent. -/
  | whole (value : Int)
  /-- Any other number: `significand * 10 ^ exponent`, negated where `negative`. -/
  | decimal (negative : Bool) (significand : Nat) (exponent : Int)
deriving DecidableEq

inductive Json where
  | null
  | bool (value : Bool)
  | number (value : Json.Number)
  | string (value : String)
  | array (items : List Json)
  | object (members : List (String × Json))

namespace Json

def int (value : Int) : Json :=
  .number (.whole value)

def isObject : Json → Bool
  | .object _ => true
  | _ => false

/-! ### Reading -/

def text? : Json → Option String
  | .string s => some s
  | _ => none

/-- A whole number that fits a signed word of sixty-four bits. -/
def int64? : Json → Option Int
  | .number (.whole n) => if -2 ^ 63 ≤ n ∧ n < 2 ^ 63 then some n else none
  | _ => none

def texts? : Json → Option (List String)
  | .array items => items.mapM text?
  | _ => none

/-- The name of a choice without data: the bare name, or an object whose only member has that name
and the value `null`. -/
def choice? : Json → Option String
  | .string s => some s
  | .object [(name, .null)] => some name
  | _ => none

/-- A value that may be absent or `null`, else read by `read`. -/
def optional? {α : Type} (read : Json → Option α) : Option Json → Option (Option α)
  | none => some none
  | some .null => some none
  | some value => (read value).map some

/-- The values of the named fields of a record, `none` for one that is absent. An object gives them
by name and may have other members, but none of these names twice; an array gives them in order and
has no further items. -/
def fields? (names : List String) : Json → Option (List (Option Json))
  | .object members =>
    let known := (members.map Prod.fst).filter names.contains
    if known.eraseDups.length = known.length then
      some (names.map fun name => (members.find? (·.1 == name)).map Prod.snd)
    else none
  | .array items =>
    if items.length ≤ names.length then
      some (items.map some ++ List.replicate (names.length - items.length) none)
    else none
  | _ => none

end Json

end TokenAuthority
