/-!
# Cutting text

Text cut at every place where a character stands, and lines of text.
-/

namespace TokenAuthority.Split

/-- The parts between the places where a character stands; there is one more part than places. -/
def on (separator : Char) : List Char → List (List Char)
  | [] => [[]]
  | c :: rest =>
    if c = separator then [] :: on separator rest
    else
      match on separator rest with
      | part :: parts => (c :: part) :: parts
      | [] => [[c]]

theorem on_ne_nil (separator : Char) (cs : List Char) : on separator cs ≠ [] := by
  induction cs with
  | nil => simp [on]
  | cons c rest ih =>
    unfold on
    split
    · simp
    · split <;> simp

/-- Text without the character is one part. -/
theorem on_of_not_mem {separator : Char} {cs : List Char} (h : separator ∉ cs) :
    on separator cs = [cs] := by
  induction cs with
  | nil => rfl
  | cons c rest ih =>
    simp only [List.mem_cons, not_or] at h
    simp [on, ih h.2, Ne.symm h.1]

/-- The character ends a part. -/
theorem on_append {separator : Char} {cs : List Char} (rest : List Char) (h : separator ∉ cs) :
    on separator (cs ++ separator :: rest) = cs :: on separator rest := by
  induction cs with
  | nil => simp [on]
  | cons c cs ih =>
    simp only [List.mem_cons, not_or] at h
    simp [on, ih h.2, Ne.symm h.1]

/-- A part without the carriage return at its end. -/
def withoutReturn (part : List Char) : List Char :=
  if part.getLast? = some '\r' then part.dropLast else part

/-- The lines of a text, without their ends. A line feed at the very end starts no further line. -/
def lines (cs : List Char) : List (List Char) :=
  let parts := on '\n' cs
  let parts := if parts.getLast? = some [] then parts.dropLast else parts
  parts.map withoutReturn

end TokenAuthority.Split
