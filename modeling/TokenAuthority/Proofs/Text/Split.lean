import Mathlib.Data.List.TakeWhile
import TokenAuthority.Text.Split

/-!
# The parts of a text

* `Split.takeWhile_append`, `Split.dropWhile_append` — a text is cut where the first character of another kind
  stands, and `Split.head?_dropWhile` says that there is no other place.
* `Split.intercalate_on`, `Split.not_mem_of_mem_on` — the parts of a text make it up again, and none of them
  holds the character at which it was cut.
* `Split.on_eq_iff` — what a text is whose parts are some, a given one, and some others.
-/

namespace TokenAuthority.Split

section Span

variable {kind : Char → Bool} {front rest : List Char} (inside : ∀ c ∈ front, kind c = true)
  (stops : ∀ c ∈ rest.head?, kind c = false)

/-- What follows the characters of a kind begins with one of another kind. -/
theorem head?_dropWhile (kind : Char → Bool) (cs : List Char) :
    ∀ c ∈ (cs.dropWhile kind).head?, kind c = false := by
  intro c first
  have stops := List.head?_dropWhile_not kind cs
  rwa [Option.mem_def.mp first] at stops

include stops in
theorem dropWhile_eq_self : rest.dropWhile kind = rest := by
  cases rest with
  | nil => rfl
  | cons c rest => exact List.dropWhile_cons_of_neg (Bool.eq_false_iff.mp (stops c rfl))

include inside stops in
theorem takeWhile_append : (front ++ rest).takeWhile kind = front := by
  rw [List.takeWhile_append_of_pos inside]
  cases rest with
  | nil => simp
  | cons c rest => simp [stops c rfl]

include inside stops in
theorem dropWhile_append : (front ++ rest).dropWhile kind = rest := by
  rw [List.dropWhile_append_of_pos inside, dropWhile_eq_self stops]

end Span

/-- What a text is that is cut at the first place of a character. -/
theorem eq_of_dropWhile {separator c : Char} {cs rest : List Char}
    (cut : cs.dropWhile (· ≠ separator) = c :: rest) :
    cs = cs.takeWhile (· ≠ separator) ++ separator :: rest := by
  have same : c = separator := by
    simpa using head?_dropWhile (· ≠ separator) cs c (by rw [cut]; rfl)
  rw [← same, ← cut, same, List.takeWhile_append_dropWhile]

/-- The character does not stand before its first place. -/
theorem ne_of_mem_takeWhile {separator c : Char} {cs : List Char} (mem : c ∈ cs.takeWhile (· ≠ separator)) :
    c ≠ separator := by
  have inside := List.mem_takeWhile_imp mem
  exact of_decide_eq_true inside

/-- No part holds the character at which the text was cut. -/
theorem not_mem_of_mem_on {separator : Char} {cs part : List Char} (mem : part ∈ on separator cs) :
    separator ∉ part := by
  induction cs generalizing part with
  | nil =>
      cases List.mem_singleton.mp mem
      exact List.not_mem_nil
  | cons c rest ih =>
      unfold on at mem
      split at mem
      · rcases List.mem_cons.mp mem with rfl | mem
        · exact List.not_mem_nil
        · exact ih mem
      · rename_i other
        split at mem
        · rename_i first parts cut
          rcases List.mem_cons.mp mem with rfl | mem
          · rw [List.mem_cons, not_or]
            exact ⟨Ne.symm other, ih (cut ▸ List.mem_cons_self)⟩
          · exact ih (cut ▸ List.mem_cons_of_mem _ mem)
        · rename_i cut
          exact absurd cut (on_ne_nil separator rest)

/-- The parts with the character between them are the text. -/
theorem intercalate_on (separator : Char) (cs : List Char) :
    List.intercalate [separator] (on separator cs) = cs := by
  induction cs with
  | nil => rfl
  | cons c rest ih =>
      unfold on
      split
      · rename_i same
        rw [List.intercalate_cons_of_ne_nil (on_ne_nil separator rest), ih, same]
        rfl
      · split
        · rename_i first parts cut
          rw [cut] at ih
          rw [← ih]
          cases parts with
          | nil => simp [List.intercalate_singleton]
          | cons => simp [List.intercalate_cons_cons]
        · rename_i cut
          exact absurd cut (on_ne_nil separator rest)

/-- Parts without the character are the parts of the text that they make up. -/
theorem on_intercalate {separator : Char} {parts : List (List Char)} (some : parts ≠ [])
    (free : ∀ part ∈ parts, separator ∉ part) :
    on separator (List.intercalate [separator] parts) = parts := by
  induction parts with
  | nil => exact absurd rfl some
  | cons part later ih =>
      obtain ⟨first, free⟩ := List.forall_mem_cons.mp free
      cases later with
      | nil =>
          rw [List.intercalate_singleton]
          exact on_of_not_mem first
      | cons next later =>
          rw [List.intercalate_cons_cons, List.append_assoc, List.singleton_append, on_append _ first,
            ih (List.cons_ne_nil _ _) free]

/-- Of several parts, each one before a given one is followed by the character, and each one after it comes
after the character. -/
theorem intercalate_append_cons {separator : Char} {part : List Char} {earlier later : List (List Char)} :
    List.intercalate [separator] (earlier ++ part :: later) =
      earlier.flatMap (· ++ [separator]) ++ part ++ later.flatMap (separator :: ·) := by
  induction earlier with
  | nil =>
      rw [List.nil_append, List.flatMap_nil, List.nil_append]
      induction later generalizing part with
      | nil => simp [List.intercalate_singleton]
      | cons next later ih =>
          rw [List.intercalate_cons_cons, ih]
          simp
  | cons first earlier ih =>
      rw [List.cons_append, List.intercalate_cons_of_ne_nil (by simp), ih]
      simp

/-- What a text is that has a given part among its parts. -/
theorem on_eq_iff {separator : Char} {cs part : List Char} {earlier later : List (List Char)} :
    on separator cs = earlier ++ part :: later ↔
      cs = earlier.flatMap (· ++ [separator]) ++ part ++ later.flatMap (separator :: ·) ∧
        ∀ text ∈ earlier ++ part :: later, separator ∉ text := by
  rw [← intercalate_append_cons]
  constructor
  · intro cut
    rw [← cut, intercalate_on]
    exact ⟨rfl, fun _ => not_mem_of_mem_on⟩
  · rintro ⟨rfl, free⟩
    exact on_intercalate (by simp) free

/-- Another character stands in a text of several parts exactly if it stands in one of them. -/
theorem mem_parts_iff {separator mark : Char} (other : mark ≠ separator) {part : List Char}
    {earlier later : List (List Char)} :
    mark ∈ earlier.flatMap (· ++ [separator]) ++ part ++ later.flatMap (separator :: ·) ↔
      ∃ text ∈ earlier ++ part :: later, mark ∈ text := by
  simp only [List.mem_append, List.mem_flatMap, List.mem_cons, List.not_mem_nil, other, or_false, false_or,
    or_and_right, exists_or, exists_eq_left, or_assoc]

end TokenAuthority.Split
