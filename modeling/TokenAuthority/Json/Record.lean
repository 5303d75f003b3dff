import TokenAuthority.Json.Parser

/-!
# Records in JSON text

A record is written as an object, or as an array of its fields in order. Members that the record does
not have are passed over: they must be well formed, but their numbers may have any size, they may be
nested to any depth, and their strings are not looked into beyond their escapes.
-/

namespace TokenAuthority.Json

/-! ### Passing over a value -/

/-- What follows the closing quote of a string. -/
def skipString? : List Char → Option (List Char)
  | [] => none
  | '"' :: rest => some rest
  | '\\' :: 'u' :: a :: b :: c :: d :: rest =>
    match hex4? a b c d with
    | none => none
    | some _ => skipString? rest
  | '\\' :: e :: rest => if (simpleEscape? e).isSome then skipString? rest else none
  | c :: rest => if c.toNat < 32 then none else skipString? rest

/-- What follows a number. -/
def skipNumber? (cs : List Char) : Option (List Char) := do
  let (ds, rest) := digits (if cs.head? = some '-' then cs.tail else cs)
  if ds.isEmpty ∨ (ds.head? = some '0' ∧ 1 < ds.length) then none
  else
    let (_, rest) ← fraction? rest
    let (_, rest) ← exponent? rest
    return rest

mutual

/-- What follows a value. `fuel` is at least the length of the text. -/
def skipValue? : (fuel : Nat) → List Char → Option (List Char)
  | 0, _ => none
  | fuel + 1, cs =>
    match skipSpace cs with
    | 'n' :: 'u' :: 'l' :: 'l' :: rest => some rest
    | 't' :: 'r' :: 'u' :: 'e' :: rest => some rest
    | 'f' :: 'a' :: 'l' :: 's' :: 'e' :: rest => some rest
    | '"' :: rest => skipString? rest
    | '[' :: rest =>
      match skipSpace rest with
      | ']' :: rest => some rest
      | rest => skipItems? fuel rest
    | '{' :: rest =>
      match skipSpace rest with
      | '}' :: rest => some rest
      | rest => skipMembers? fuel rest
    | cs => skipNumber? cs

/-- What follows one item or more and the closing bracket. -/
def skipItems? : (fuel : Nat) → List Char → Option (List Char)
  | 0, _ => none
  | fuel + 1, cs =>
    match skipValue? fuel cs with
    | none => none
    | some rest =>
      match skipSpace rest with
      | ']' :: rest => some rest
      | ',' :: rest => skipItems? fuel rest
      | _ => none

/-- What follows one member or more and the closing brace. -/
def skipMembers? : (fuel : Nat) → List Char → Option (List Char)
  | 0, _ => none
  | fuel + 1, cs =>
    match skipSpace cs with
    | '"' :: rest =>
      match (skipString? rest).map skipSpace with
      | some (':' :: rest) =>
        match (skipValue? fuel rest).map skipSpace with
        | some ('}' :: rest) => some rest
        | some (',' :: rest) => skipMembers? fuel rest
        | _ => none
      | _ => none
    | _ => none

end

/-! ### Records -/

/-- The members of an object that are among the named fields, and what follows the object. -/
def knownMembers? (names : List String) :
    (fuel : Nat) → List Char → Option (List (String × Json) × List Char)
  | 0, _ => none
  | fuel + 1, cs =>
    match skipSpace cs with
    | '"' :: rest =>
      match stringBody rest with
      | none => none
      | some (name, rest) =>
        let name := String.ofList name
        match skipSpace rest with
        | ':' :: rest =>
          let member :=
            if names.contains name then
              (value? fuel (maxDepth - 1) rest).map fun r => ([(name, r.1)], r.2)
            else (skipValue? fuel rest).map fun rest => ([], rest)
          match member with
          | none => none
          | some (member, rest) =>
            match skipSpace rest with
            | '}' :: rest => some (member, rest)
            | ',' :: rest => (knownMembers? names fuel rest).map fun r => (member ++ r.1, r.2)
            | _ => none
        | _ => none
    | _ => none

/-- The values of the named fields of a record given as text. -/
def record? (names : List String) (text : String) : Option (List (Option Json)) :=
  let cs := skipSpace text.toList
  match cs with
  | '{' :: rest =>
    match skipSpace rest with
    | '}' :: rest => if (skipSpace rest).isEmpty then fields? names (.object []) else none
    | rest => do
      let (members, rest) ← knownMembers? names (2 * cs.length + 2) rest
      if (skipSpace rest).isEmpty then fields? names (.object members) else none
  | _ => (ofChars? cs).bind (fields? names)

end TokenAuthority.Json
