import TokenAuthority.Report.Tokens

/-!
# Names of tokens

The tokens that a scenario has made, under names, and names for the random identifiers in them. Texts
that are shown have these names in place of the identifiers, so two runs show the same.
-/

namespace TokenAuthority.Simulation

structure Names where
  /-- The tokens, the newest first. -/
  tokens : List (String × String) := []
  /-- Identifiers, each with what is shown for it, in the order in which they appeared. -/
  shown : List (String × String) := []

namespace Names

def find? (n : Names) (name : String) : Option String :=
  (n.tokens.find? (·.1 = name)).map Prod.snd

/-- What is shown for an identifier from now on, unless there is something for it already. -/
def showAs (n : Names) (identifier : Option String) (text : String) : Names :=
  match identifier with
  | none => n
  | some identifier =>
    if n.shown.any (·.1 = identifier) then n else { n with shown := n.shown ++ [(identifier, text)] }

def keep (n : Names) (name token : String) : Names :=
  let n := { n with tokens := (name, token) :: n.tokens }
  let n := n.showAs (Segments.claim? token "jti") ("<" ++ name ++ ".jti>")
  n.showAs (Segments.claim? token "sid") ("<" ++ name ++ ".sid>")

def inText (n : Names) (text : String) : String :=
  n.shown.foldl (fun s x => s.replace x.1 x.2) text

mutual

/-- A value with names in place of identifiers in all its texts. -/
def inJson (n : Names) : Json → Json
  | .string s => .string (n.inText s)
  | .array items => .array (inItems n items)
  | .object members => .object (inMembers n members)
  | value => value

/-- Items with names in place of identifiers. -/
def inItems (n : Names) : List Json → List Json
  | [] => []
  | item :: rest => inJson n item :: inItems n rest

/-- Members with names in place of identifiers. -/
def inMembers (n : Names) : List (String × Json) → List (String × Json)
  | [] => []
  | (name, value) :: rest => (name, inJson n value) :: inMembers n rest

end

end Names

end TokenAuthority.Simulation
