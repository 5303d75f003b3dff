import TokenAuthority.Settings.Environment
import TokenAuthority.Text.Alphanumeric

/-!
# Environment files

A file of assignments, one a line, that sets variables which are not set yet. A value may be quoted, may
go on over several lines inside quotes, and may refer to variables. Reading stops at the first line that
is no assignment; what was set before it stays set.
-/

namespace TokenAuthority.EnvFile

/-! ### Lines -/

/-- Where a reader stands in a line, as far as the end of the line matters. -/
inductive LineState where
  | complete
  | escape
  | strong
  | strongEscape
  | weak
  | weakEscape
  | blank
deriving DecidableEq

/-- Outside of quotes, after a character that is no blank. -/
def LineState.outside (c : Char) : LineState :=
  if c = '\\' then .escape else if c = '"' then .weak else if c = '\'' then .strong else .complete

def LineState.next (c : Char) : LineState → LineState
  | .blank => outside c
  | .escape => .complete
  | .complete => if Blank.isBlank c ∧ c ≠ '\n' ∧ c ≠ '\r' then .blank else outside c
  | .weak => if c = '\\' then .weakEscape else if c = '"' then .complete else .weak
  | .weakEscape => .weak
  | .strong => if c = '\\' then .strongEscape else if c = '\'' then .complete else .strong
  | .strongEscape => .strong

/-- Reads a line up to its end, or up to a comment in it: the text before it, and the state at the end,
none after a comment. -/
def scan : LineState → List Char → List Char × Option LineState
  | state, [] => ([], some state)
  | state, c :: rest =>
    if state = .blank ∧ c = '#' then ([], none)
    else
      let (read, final) := scan (state.next c) rest
      (c :: read, final)

def rawLines : List Char → List (List Char)
  | [] => []
  | c :: rest =>
    if c = '\n' then ['\n'] :: rawLines rest
    else
      match rawLines rest with
      | line :: lines => (c :: line) :: lines
      | [] => [[c]]

/-- A line without its end. -/
def withoutEnd (line : List Char) : List Char :=
  match line.reverse with
  | '\n' :: '\r' :: rest => rest.reverse
  | '\n' :: rest => rest.reverse
  | _ => line

/-- Joins lines that go on. The result holds one item for each logical line, none where the text ends
inside of one. -/
def logicalLines : (state : LineState) → (pending : List Char) → List (List Char) →
    List (Option (List Char))
  | state, _, [] => if state = .complete then [] else [none]
  | state, pending, line :: rest =>
    let whole := pending ++ line
    if (Blank.trimFront whole).head? = some '#' then some [] :: logicalLines .complete [] rest
    else
      match scan state line with
      | (_, some .complete) => some (withoutEnd whole) :: logicalLines .complete [] rest
      | (_, some state) => logicalLines state whole rest
      | (read, none) => some (pending ++ read) :: logicalLines .complete [] rest

/-! ### Values -/

/-- What earlier lines have given, and the environment so far. -/
structure Scope where
  env : Environment
  given : List (String × String)

/-- The text of a variable: from the environment, else from an earlier line. -/
def Scope.text (s : Scope) (name : List Char) : List Char :=
  let name := String.ofList name
  ((s.env.get? name).getD (((s.given.find? (·.1 = name)).map Prod.snd).getD "")).toList

/-- Where a reader stands in a value. -/
inductive ValueState where
  | plain
  /-- After the value, where only a comment may follow. -/
  | over
  /-- After a reverse solidus, inside weak quotes or not. -/
  | escape (weak : Bool)
  | strong
  | weak
  /-- In the name of a variable, with the characters read so far, the last one first. -/
  | name (weak : Bool) (read : List Char)
  /-- In the name of a variable in braces. -/
  | braced (weak : Bool) (read : List Char)

/-- The state outside of a name. -/
def ValueState.around (weak : Bool) : ValueState := if weak then .weak else .plain

/-- Reads a value. There is none when it is ill-formed. -/
def value? (s : Scope) : ValueState → List Char → Option (List Char)
  | .plain, [] => some []
  | .over, [] => some []
  | .escape false, [] => some []
  | .name false read, [] => some (s.text read.reverse)
  | _, [] => none
  | .over, c :: rest =>
    if c = ' ' ∨ c = '\t' then value? s .over rest else if c = '#' then some [] else none
  | .escape weak, c :: rest =>
    if ['\\', '\'', '"', '$', ' '].contains c then (value? s (.around weak) rest).map (c :: ·)
    else if c = 'n' then (value? s (.around weak) rest).map ('\n' :: ·)
    else none
  | .strong, c :: rest =>
    if c = '\'' then value? s .plain rest else (value? s .strong rest).map (c :: ·)
  | .name weak read, c :: rest =>
    if Alphanumeric.isAlphanumeric c then value? s (.name weak (c :: read)) rest
    else if c = '\x7b' ∧ read.isEmpty then value? s (.braced weak []) rest
    else if c = '$' then (value? s (.name weak []) rest).map (s.text read.reverse ++ ·)
    else (value? s (.around weak) rest).map (s.text read.reverse ++ c :: ·)
  | .braced weak read, c :: rest =>
    if c = '\x7d' then (value? s (.around weak) rest).map (s.text read.reverse ++ ·)
    else value? s (.braced weak (c :: read)) rest
  | .weak, c :: rest =>
    if c = '$' then value? s (.name true []) rest
    else if c = '"' then value? s .plain rest
    else if c = '\\' then value? s (.escape true) rest
    else (value? s .weak rest).map (c :: ·)
  | .plain, c :: rest =>
    if c = '$' then value? s (.name false []) rest
    else if c = '\'' then value? s .strong rest
    else if c = '"' then value? s .weak rest
    else if c = '\\' then value? s (.escape false) rest
    else if c = ' ' ∨ c = '\t' then value? s .over rest
    else (value? s .plain rest).map (c :: ·)

/-! ### Assignments -/

/-- The name at the front of a text, and what follows it and the blanks after it. -/
def name? (cs : List Char) : Option (List Char × List Char) :=
  let isPart (c : Char) : Bool := c.isAlphanum || c = '_' || c = '.'
  match cs.head? with
  | some c =>
    if c.isAlpha ∨ c = '_' then some (cs.takeWhile isPart, Blank.trimFront (cs.dropWhile isPart))
    else none
  | none => none

/-- The name in an assignment, which `export` may precede, and what follows the equals sign. -/
def target? (cs : List Char) : Option (List Char × List Char) := do
  match ← name? cs with
  | (name, '=' :: rest) => return (name, rest)
  | (name, rest) =>
    if name = "export".toList then
      match ← name? rest with
      | (name, '=' :: rest) => return (name, rest)
      | _ => none
    else none

/-- What a line says: nothing, or an assignment. There is no answer when it is ill-formed. -/
def assignment? (s : Scope) (line : List Char) : Option (Option (String × String)) :=
  let cs := Blank.trimFront (Blank.trimBack line)
  if cs.isEmpty ∨ cs.head? = some '#' then some none
  else do
    let (name, rest) ← target? cs
    let rest := Blank.trimFront rest
    let value ← if rest.isEmpty ∨ rest.head? = some '#' then some [] else value? s .plain rest
    return some (String.ofList name, String.ofList value)

/-- Takes the assignments of lines one after the other, up to the first ill-formed line. A variable that
is set already stays as it is. -/
def apply (s : Scope) : List (Option (List Char)) → Environment
  | [] => s.env
  | none :: _ => s.env
  | some line :: rest =>
    match assignment? s line with
    | none => s.env
    | some none => apply s rest
    | some (some (name, value)) =>
      let env := if (s.env.get? name).isSome then s.env else s.env.set name value
      apply ⟨env, (name, value) :: s.given⟩ rest

/-- The environment after a file was read. -/
def load (env : Environment) (text : String) : Environment :=
  let cs := text.toList
  let cs := if cs.head? = some '\uFEFF' then cs.tail else cs
  apply ⟨env, []⟩ (logicalLines .complete [] (rawLines cs))

end TokenAuthority.EnvFile
