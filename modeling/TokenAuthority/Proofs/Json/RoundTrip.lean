import TokenAuthority.Proofs.Json.Scalar

/-!
# Values are read back

`parse?_render`: the text of a value is read as that value, whatever its strings hold, as long as the
value is within the two limits of the reader (`Fits`): its numbers fit, and it is not too deep.

The reader passes one number on through all its parts, its fuel, and every part gives away one of it. So
the proof is an induction on the fuel for all three parts at once: what values, items and members each
need is that the other two are read with less.
-/

namespace TokenAuthority.Json

/-- The reader can give the value with so many more arrays and objects to open. -/
inductive Fits : (depth : Nat) → Json → Prop where
  | null {depth : Nat} : Fits depth .null
  | bool {depth : Nat} (b : Bool) : Fits depth (.bool b)
  | number {depth : Nat} {n : Number} : n.Fits → Fits depth (.number n)
  | string {depth : Nat} (s : String) : Fits depth (.string s)
  | array {depth : Nat} {items : List Json} :
      (∀ item ∈ items, Fits depth item) → Fits (depth + 1) (.array items)
  | object {depth : Nat} {members : List (String × Json)} :
      (∀ member ∈ members, Fits depth member.2) → Fits (depth + 1) (.object members)

/-! ### First characters -/

/-- A character that can begin a value. -/
def Begins (c : Char) : Prop := isSpace c = false ∧ c ≠ ']' ∧ c ≠ '}'

instance (c : Char) : Decidable (Begins c) := inferInstanceAs (Decidable (_ ∧ _))

theorem begins_of_isDigit {c : Char} (isDigit : c.isDigit = true) : Begins c := by
  refine ⟨?_, ?_, ?_⟩
  · simp only [isSpace, Bool.or_eq_false_iff, decide_eq_false_iff_not]
    refine ⟨⟨⟨?_, ?_⟩, ?_⟩, ?_⟩ <;> (rintro rfl; exact absurd isDigit (by decide))
  · rintro rfl
    exact absurd isDigit (by decide)
  · rintro rfl
    exact absurd isDigit (by decide)

theorem exists_chars (v : Json) : ∃ c cs, chars v = c :: cs ∧ Begins c := by
  cases v with
  | null => exact ⟨_, _, by rw [chars], by decide⟩
  | bool b => cases b <;> exact ⟨_, _, by rw [chars], by decide⟩
  | number n =>
      obtain ⟨c, cs, written, first⟩ := n.exists_chars
      refine ⟨c, cs, by rw [chars, written], ?_⟩
      rcases first with rfl | isDigit
      · decide
      · exact begins_of_isDigit isDigit
  | string s => exact ⟨_, _, by rw [chars, quoted], by decide⟩
  | array items => cases items <;> exact ⟨_, _, by rw [chars], by decide⟩
  | object members => cases members <;> exact ⟨_, _, by rw [chars], by decide⟩

theorem length_chars_pos (v : Json) : 0 < (chars v).length := by
  obtain ⟨c, cs, written, _⟩ := exists_chars v
  rw [written]
  exact Nat.succ_pos _

theorem skipSpace_cons {c : Char} (cs : List Char) (visible : isSpace c = false) :
    skipSpace (c :: cs) = c :: cs := by
  rw [skipSpace, List.dropWhile_cons, if_neg (Bool.eq_false_iff.mp visible)]

theorem apart_cons {c : Char} (cs : List Char)
    (apart : c.isDigit = false ∧ c ≠ '.' ∧ c ≠ 'e' ∧ c ≠ 'E') : Apart (c :: cs) := by
  rintro _ here
  cases here
  exact apart

theorem apart_itemsChars (vs : List Json) (rest : List Char) : Apart (itemsChars vs ++ rest) := by
  cases vs with
  | nil => rw [itemsChars]; exact apart_cons _ (by decide)
  | cons => rw [itemsChars]; exact apart_cons _ (by decide)

theorem apart_membersChars (ms : List (String × Json)) (rest : List Char) :
    Apart (membersChars ms ++ rest) := by
  cases ms with
  | nil => rw [membersChars]; exact apart_cons _ (by decide)
  | cons => rw [membersChars]; exact apart_cons _ (by decide)

/-! ### One step of the reader -/

/-- Values are read with so much fuel. -/
def ReadsValues (fuel : Nat) : Prop :=
  ∀ {depth : Nat} {v : Json} (rest : List Char), v.Fits depth → (chars v).length ≤ fuel → Apart rest →
    value? fuel depth (chars v ++ rest) = some (v, rest)

/-- Items are read with so much fuel, up to their bracket. -/
def ReadsItems (fuel : Nat) : Prop :=
  ∀ {depth : Nat} {v : Json} {vs : List Json} (rest : List Char), (∀ item ∈ v :: vs, item.Fits depth) →
    (chars v ++ itemsChars vs).length ≤ fuel →
    items? fuel depth (chars v ++ (itemsChars vs ++ rest)) = some (v :: vs, rest)

/-- Members are read with so much fuel, up to their brace. -/
def ReadsMembers (fuel : Nat) : Prop :=
  ∀ {depth : Nat} {name : String} {v : Json} {ms : List (String × Json)}
    (rest : List Char), (∀ member ∈ (name, v) :: ms, member.2.Fits depth) →
    (quoted name.toList ++ ':' :: (chars v ++ membersChars ms)).length ≤ fuel →
    members? fuel depth (quoted name.toList ++ ':' :: (chars v ++ (membersChars ms ++ rest))) =
      some ((name, v) :: ms, rest)

/-- What begins like a number is read as one. -/
theorem value?_number {fuel depth : Nat} {c : Char} {cs : List Char}
    (first : c = '-' ∨ c.isDigit = true) :
    value? (fuel + 1) depth (c :: cs) = (number? (c :: cs)).map fun r => (.number r.1, r.2) := by
  have visible : isSpace c = false := by
    rcases first with rfl | isDigit
    · decide
    · exact (begins_of_isDigit isDigit).1
  have other : ∀ d, d ≠ '-' → d.isDigit = false → c ≠ d := by
    rintro _ minus isDigit rfl
    rcases first with same | isDigit'
    · exact minus same
    · rw [isDigit] at isDigit'
      cases isDigit'
  rw [value?, skipSpace_cons cs visible]
  split
  · rename_i same
    exact absurd (List.cons.inj same).1 (other 'n' (by decide) (by decide))
  · rename_i same
    exact absurd (List.cons.inj same).1 (other 't' (by decide) (by decide))
  · rename_i same
    exact absurd (List.cons.inj same).1 (other 'f' (by decide) (by decide))
  · rename_i same
    exact absurd (List.cons.inj same).1 (other '"' (by decide) (by decide))
  · rename_i same
    exact absurd (List.cons.inj same).1 (other '[' (by decide) (by decide))
  · rename_i same
    exact absurd (List.cons.inj same).1 (other '{' (by decide) (by decide))
  · rfl

theorem value?_string {fuel depth : Nat} (text rest : List Char) :
    value? (fuel + 1) depth (quoted text ++ rest) = some (.string (String.ofList text), rest) := by
  rw [value?, quoted, List.cons_append, skipSpace_cons _ (by decide)]
  simp [stringBody_quoted]

/-- After an opening bracket, what does not close it is items. -/
theorem value?_array {fuel depth : Nat} {c : Char} {cs : List Char} (begins : Begins c) :
    value? (fuel + 1) (depth + 1) ('[' :: c :: cs) =
      (items? fuel depth (c :: cs)).map fun r => (.array r.1, r.2) := by
  obtain ⟨visible, bracket, _⟩ := begins
  rw [value?, skipSpace_cons _ (by decide)]
  simp only [skipSpace_cons cs visible, Nat.add_one_ne_zero, if_false, Nat.add_one_sub_one]
  split
  · rename_i same
    exact absurd (List.cons.inj same).1 bracket
  · rfl

/-- After an opening brace, a quote begins members. -/
theorem value?_object {fuel depth : Nat} {cs : List Char} :
    value? (fuel + 1) (depth + 1) ('{' :: '"' :: cs) =
      (members? fuel depth ('"' :: cs)).map fun r => (.object r.1, r.2) := by
  rw [value?, skipSpace_cons _ (by decide)]
  simp only [skipSpace_cons cs (show isSpace '"' = false by decide), Nat.add_one_ne_zero, if_false,
    Nat.add_one_sub_one]
  rfl

theorem readsValues_succ {fuel : Nat} (items : ReadsItems fuel) (members : ReadsMembers fuel) :
    ReadsValues (fuel + 1) := by
  intro depth v rest fits long apart
  cases fits with
  | null => simp [chars, value?, skipSpace, isSpace]
  | bool b => cases b <;> simp [chars, value?, skipSpace, isSpace]
  | @number _ n fits =>
      obtain ⟨c, cs, written, first⟩ := n.exists_chars
      have read := number?_chars fits apart
      rw [chars, written, List.cons_append, value?_number first, ← List.cons_append, ← written, read]
      rfl
  | string s => rw [chars, value?_string, String.ofList_toList]
  | @array depth vs fits =>
      cases vs with
      | nil => simp [chars, value?, skipSpace, isSpace]
      | cons v vs =>
          obtain ⟨c, cs, written, begins⟩ := exists_chars v
          rw [chars, List.length_cons] at long
          have read := items rest fits (Nat.le_of_succ_le_succ long)
          rw [chars, List.cons_append, List.append_assoc]
          rw [written, List.cons_append] at read ⊢
          rw [value?_array begins, read]
          rfl
  | @object depth ms fits =>
      cases ms with
      | nil => simp [chars, value?, skipSpace, isSpace]
      | cons m ms =>
          obtain ⟨name, v⟩ := m
          rw [chars, List.length_cons] at long
          have read := members rest fits (Nat.le_of_succ_le_succ long)
          rw [chars, List.cons_append, List.append_assoc, List.cons_append, List.append_assoc]
          rw [quoted, List.cons_append] at read ⊢
          rw [value?_object, read]
          rfl

theorem readsItems_succ {fuel : Nat} (values : ReadsValues fuel) (items : ReadsItems fuel) :
    ReadsItems (fuel + 1) := by
  intro depth v vs rest fits long
  have length := length_chars_pos v
  rw [List.length_append] at long
  have first : value? fuel depth (chars v ++ (itemsChars vs ++ rest)) =
      some (v, itemsChars vs ++ rest) := by
    refine values _ (fits v List.mem_cons_self) ?_ (apart_itemsChars vs rest)
    cases vs <;> rw [itemsChars] at long <;> simp only [List.length_cons] at long <;> omega
  rw [items?, first]
  cases vs with
  | nil => simp [itemsChars, skipSpace, isSpace]
  | cons w ws =>
      have others := items rest (fun item mem => fits item (List.mem_cons_of_mem _ mem)) (by
        rw [itemsChars, List.length_cons] at long
        omega)
      rw [itemsChars, List.cons_append, List.append_assoc]
      simp only [skipSpace_cons _ (show isSpace ',' = false by decide), others, Option.map_some]

theorem readsMembers_succ {fuel : Nat} (values : ReadsValues fuel) (members : ReadsMembers fuel) :
    ReadsMembers (fuel + 1) := by
  intro depth name v ms rest fits long
  have length := length_chars_pos v
  rw [List.length_append, List.length_cons, List.length_append] at long
  have first : value? fuel depth (chars v ++ (membersChars ms ++ rest)) =
      some (v, membersChars ms ++ rest) :=
    values _ (fits (name, v) List.mem_cons_self) (by omega) (apart_membersChars ms rest)
  rw [members?, quoted, List.cons_append, List.append_assoc]
  simp only [skipSpace_cons _ (show isSpace '"' = false by decide), List.singleton_append,
    stringBody_quoted, skipSpace_cons _ (show isSpace ':' = false by decide), first,
    String.ofList_toList]
  cases ms with
  | nil => simp [membersChars, skipSpace, isSpace]
  | cons m ms =>
      obtain ⟨name', w⟩ := m
      have others := members rest
        (fun member mem => fits member (List.mem_cons_of_mem _ mem)) (by
          rw [membersChars, List.length_cons] at long
          omega)
      rw [membersChars, List.cons_append, List.append_assoc, List.cons_append, List.append_assoc]
      simp only [skipSpace_cons _ (show isSpace ',' = false by decide), others, Option.map_some]

theorem reads (fuel : Nat) : ReadsValues fuel ∧ ReadsItems fuel ∧ ReadsMembers fuel := by
  induction fuel with
  | zero =>
      refine ⟨?_, ?_, ?_⟩
      · intro depth v rest _ long _
        have := length_chars_pos v
        omega
      · intro depth v vs rest _ long
        have := length_chars_pos v
        rw [List.length_append] at long
        omega
      · intro depth name v ms rest _ long
        rw [List.length_append, List.length_cons] at long
        omega
  | succ fuel ih =>
      obtain ⟨values, items, members⟩ := ih
      exact ⟨readsValues_succ items members, readsItems_succ values items,
        readsMembers_succ values members⟩

/-! ### Whole texts -/

/-- A value is read back from its characters. -/
theorem ofChars?_chars {v : Json} (fits : v.Fits maxDepth) : ofChars? (chars v) = some v := by
  have read := (reads (2 * (chars v).length + 2)).1 [] fits (by omega) (by rintro _ ⟨⟩)
  rw [List.append_nil] at read
  rw [ofChars?, read]
  rfl

theorem parse?_render {v : Json} (fits : v.Fits maxDepth) : parse? v.render = some v := by
  rw [parse?, render, String.toList_ofList]
  exact ofChars?_chars fits

end TokenAuthority.Json
