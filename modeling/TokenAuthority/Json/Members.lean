import TokenAuthority.Json.Basic

/-!
# Members of documents

Reading the members of an object one by one. A member that is `null` counts as missing; a member that is
there must have its form.
-/

namespace TokenAuthority.Json

def whole? : Json → Option Int
  | .number (.whole n) => some n
  | _ => none

def natural? (j : Json) : Option Nat := do
  let n ← j.whole?
  if n < 0 then none else return n.toNat

def flag? : Json → Option Bool
  | .bool b => some b
  | _ => none

def array? : Json → Option (List Json)
  | .array items => some items
  | _ => none

/-- A list of values of one form. -/
def list? {α : Type} (read : Json → Option α) (j : Json) : Option (List α) :=
  j.array?.bind fun items => items.mapM read

/-- The members of an object, with values of one form. -/
def table? {α : Type} (read : Json → Option α) : Json → Option (List (String × α))
  | .object members => members.mapM fun m => (read m.2).map fun a => (m.1, a)
  | _ => none

/-- A member that is there. -/
def member? (j : Json) (name : String) : Option Json :=
  match j with
  | .object members =>
    match members.find? (·.1 = name) with
    | some (_, .null) => none
    | some (_, value) => some value
    | none => none
  | _ => none

/-- A member that may be missing, as an object without members if it is. -/
def part (j : Json) (name : String) : Json := (j.member? name).getD (.object [])

/-- A member that must be there. -/
def need {α : Type} (j : Json) (name : String) (read : Json → Option α) : Option α :=
  (j.member? name).bind read

/-- A member that may be missing. -/
def maybe {α : Type} (j : Json) (name : String) (read : Json → Option α) : Option (Option α) :=
  match j.member? name with
  | none => some none
  | some value => (read value).map some

/-- A member with a default. -/
def orElse {α : Type} (j : Json) (name : String) (read : Json → Option α) (default : α) : Option α :=
  (j.maybe name read).map (·.getD default)

end TokenAuthority.Json
