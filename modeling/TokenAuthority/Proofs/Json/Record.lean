import TokenAuthority.Json.Record
import TokenAuthority.Proofs.Json.RoundTrip

/-!
# Records are read back

`record?_render`: the fields of a record that is written as an object are those of the object, if all its
members are fields of the record. Members are then read with the reader of values, so what is known of that
reader carries over; only the loop over the members is another one.
-/

namespace TokenAuthority.Json

variable {names : List String}

/-- Members that are fields are read up to their brace. -/
theorem knownMembers?_chars {fuel : Nat} {name : String} {v : Json} {ms : List (String × Json)}
    (rest : List Char) (known : ∀ member ∈ (name, v) :: ms, names.contains member.1)
    (fits : ∀ member ∈ (name, v) :: ms, member.2.Fits (maxDepth - 1))
    (long : (quoted name.toList ++ ':' :: (chars v ++ membersChars ms)).length ≤ fuel) :
    knownMembers? names fuel (quoted name.toList ++ ':' :: (chars v ++ (membersChars ms ++ rest))) =
      some ((name, v) :: ms, rest) := by
  induction fuel generalizing name v ms with
  | zero =>
      rw [List.length_append, List.length_cons] at long
      omega
  | succ fuel ih =>
      have length := length_chars_pos v
      rw [List.length_append, List.length_cons, List.length_append] at long
      have first : value? fuel (maxDepth - 1) (chars v ++ (membersChars ms ++ rest)) =
          some (v, membersChars ms ++ rest) :=
        (reads fuel).1 _ (fits (name, v) List.mem_cons_self) (by omega) (apart_membersChars ms rest)
      rw [knownMembers?, quoted, List.cons_append, List.append_assoc]
      simp only [skipSpace_cons _ (show isSpace '"' = false by decide), List.singleton_append,
        stringBody_quoted, skipSpace_cons _ (show isSpace ':' = false by decide), String.ofList_toList,
        if_pos (known (name, v) List.mem_cons_self), first, Option.map_some]
      cases ms with
      | nil => simp [membersChars, skipSpace, isSpace]
      | cons m ms =>
          obtain ⟨name', w⟩ := m
          have others := ih (fun member mem => known member (List.mem_cons_of_mem _ mem))
            (fun member mem => fits member (List.mem_cons_of_mem _ mem)) (by
              rw [membersChars, List.length_cons] at long
              omega)
          rw [membersChars, List.cons_append, List.append_assoc, List.cons_append, List.append_assoc]
          simp only [skipSpace_cons _ (show isSpace ',' = false by decide), others, Option.map_some]

/-- A record is read back from the text of its object. -/
theorem record?_render {ms : List (String × Json)} (known : ∀ member ∈ ms, names.contains member.1)
    (fits : (object ms).Fits maxDepth) :
    record? names (object ms).render = fields? names (.object ms) := by
  rw [record?, render, String.toList_ofList]
  cases ms with
  | nil => simp [chars, skipSpace, isSpace]
  | cons m ms =>
      obtain ⟨name, v⟩ := m
      cases fits with
      | object fits =>
          -- The first member begins with a quote, so the object is not empty.
          obtain ⟨tail, quote⟩ : ∃ tail, quoted name.toList ++ ':' :: (chars v ++ membersChars ms) =
              '"' :: tail := ⟨_, rfl⟩
          have read : knownMembers? names (2 * ('{' :: '"' :: tail).length + 2) ('"' :: tail) =
              some ((name, v) :: ms, []) := by
            have long : (quoted name.toList ++ ':' :: (chars v ++ membersChars ms)).length ≤
                2 * ('{' :: '"' :: tail).length + 2 := by
              rw [quote]
              simp only [List.length_cons]
              omega
            have read := knownMembers?_chars [] known fits long
            rwa [List.append_nil, quote] at read
          rw [chars, quote]
          simp only [skipSpace_cons _ (show isSpace '{' = false by decide),
            skipSpace_cons _ (show isSpace '"' = false by decide)]
          split
          · rename_i impossible
            cases impossible
          · rw [read]
            rfl

end TokenAuthority.Json
