import TokenAuthority.Proofs.Text.Split
import TokenAuthority.Url.Basic

/-!
# Where the parts of a URL stand

A URL is read from a text of which padding, tabs and ends of lines are dropped first. A part of what is read
has a place in the text as it was written: what stands before it, and what stands after it.

* `Url.Cleans` — a text in three pieces, and what is left of each when the text is cleaned.
* `Url.HasPassword`, `Url.password_iff` — where the password of a URL stands: after the first colon and
  before the last at sign of what names user and host.
* `Url.HasValue`, `Url.value_iff` — where the value of a name stands in the query.
* `Url.PasswordAt`, `Url.password_eq_some_iff`, `Url.ValueAt`, `Url.value_eq_some_iff` — the same of the text
  as it was written.
-/

namespace TokenAuthority.Url

/-! ### Cleaning -/

/-- A text without tabs and ends of lines. -/
def kept (cs : List Char) : List Char := cs.filter fun c => c ≠ '\t' ∧ c ≠ '\n' ∧ c ≠ '\r'

/-- Whether there is no padding at the ends of a text. -/
def Trimmed (cs : List Char) : Prop :=
  (∀ c ∈ cs.head?, isPadding c = false) ∧ ∀ c ∈ cs.getLast?, isPadding c = false

/-- What is left of three pieces of a text when it is cleaned. Padding is dropped at the front and at the back
of the whole text. -/
inductive Cleans : (before part after pre q post : List Char) → Prop where
  | intro {front b part a back : List Char} : (∀ c ∈ front, isPadding c = true) →
      (∀ c ∈ back, isPadding c = true) → Trimmed (b ++ part ++ a) →
      Cleans (front ++ b) part (a ++ back) (kept b) (kept part) (kept a)

/-- Padding at the ends of a text is dropped. -/
theorem trim_eq {front core back : List Char} (opens : ∀ c ∈ front, isPadding c = true)
    (closes : ∀ c ∈ back, isPadding c = true) (trimmed : Trimmed core) :
    (((front ++ core ++ back).dropWhile isPadding).reverse.dropWhile isPadding).reverse = core := by
  have closes' : ∀ c ∈ back.reverse, isPadding c = true := fun c mem => closes c (List.mem_reverse.mp mem)
  have last : ∀ c ∈ core.reverse.head?, isPadding c = false := by
    rw [List.head?_reverse]
    exact trimmed.2
  rw [List.append_assoc, List.dropWhile_append_of_pos opens]
  cases core with
  | nil =>
      rw [List.nil_append, List.dropWhile_eq_nil_iff.mpr closes]
      rfl
  | cons c rest =>
      have first : ∀ d ∈ (c :: rest ++ back).head?, isPadding d = false := trimmed.1
      rw [Split.dropWhile_eq_self first, List.reverse_append, Split.dropWhile_append closes' last,
        List.reverse_reverse]

theorem Cleans.cleaned {before part after pre q post : List Char}
    (cleans : Cleans before part after pre q post) :
    cleaned (String.ofList (before ++ part ++ after)) = pre ++ q ++ post := by
  obtain ⟨opens, closes, trimmed⟩ := cleans
  rename_i front b a back
  have whole : front ++ b ++ part ++ (a ++ back) = front ++ (b ++ part ++ a) ++ back := by simp
  unfold Url.cleaned
  rw [String.toList_ofList, whole, trim_eq opens closes trimmed]
  simp only [kept, List.filter_append]

/-- Every text has a core between its padding. -/
theorem exists_trimmed (cs : List Char) : ∃ front core back, cs = front ++ core ++ back ∧
    (∀ c ∈ front, isPadding c = true) ∧ (∀ c ∈ back, isPadding c = true) ∧ Trimmed core := by
  generalize eq : cs.dropWhile isPadding = rest
  have split : rest = (rest.reverse.dropWhile isPadding).reverse ++ (rest.reverse.takeWhile isPadding).reverse := by
    rw [← List.reverse_append, List.takeWhile_append_dropWhile, List.reverse_reverse]
  refine ⟨cs.takeWhile isPadding, (rest.reverse.dropWhile isPadding).reverse,
    (rest.reverse.takeWhile isPadding).reverse, ?_, ?_, ?_, ?_, ?_⟩
  · rw [List.append_assoc, ← split, ← eq, List.takeWhile_append_dropWhile]
  · exact fun c mem => List.mem_takeWhile_imp mem
  · exact fun c mem => List.mem_takeWhile_imp (List.mem_reverse.mp mem)
  · intro c first
    apply Split.head?_dropWhile isPadding cs c
    rw [eq, split, List.head?_append, Option.mem_def.mp first]
    rfl
  · rw [List.getLast?_reverse]
    exact Split.head?_dropWhile isPadding rest.reverse

/-- A piece of the cleaned text is left of a piece of the text. -/
theorem exists_cleans {text : String} {pre q post : List Char} (eq : cleaned text = pre ++ q ++ post) :
    ∃ before part after, text.toList = before ++ part ++ after ∧ Cleans before part after pre q post := by
  obtain ⟨front, core, back, whole, opens, closes, trimmed⟩ := exists_trimmed text.toList
  unfold Url.cleaned at eq
  rw [whole, trim_eq opens closes trimmed] at eq
  obtain ⟨l, a, rfl, first, rfl⟩ := List.filter_eq_append_iff.mp eq
  obtain ⟨b, part, rfl, rfl, rfl⟩ := List.filter_eq_append_iff.mp first
  exact ⟨front ++ b, part, a ++ back, by simp [whole], .intro opens closes trimmed⟩

/-- A character that is no padding stands in a piece exactly if it stands in what is left of it. -/
theorem mem_kept_iff {c : Char} (visible : isPadding c = false) {cs : List Char} : c ∈ kept cs ↔ c ∈ cs := by
  unfold kept
  rw [List.mem_filter, and_iff_left]
  rw [decide_eq_true_eq]
  refine ⟨?_, ?_, ?_⟩
  all_goals
    rintro rfl
    revert visible
    decide

theorem Cleans.mem_after_iff {before part after pre q post : List Char} {c : Char}
    (cleans : Cleans before part after pre q post) (visible : isPadding c = false) : c ∈ after ↔ c ∈ post := by
  obtain ⟨_, closes, _⟩ := cleans
  rw [mem_kept_iff visible, List.mem_append, or_iff_left]
  intro mem
  rw [closes c mem] at visible
  cases visible

/-! ### Schemes -/

/-- Whether letters write the name of a scheme, in either case. -/
structure IsScheme (letters : List Char) (scheme : String) : Prop where
  first : ∃ c ∈ letters.head?, c.isAlpha = true
  parts : ∀ c ∈ letters, (c.isAlphanum || c = '+' || c = '-' || c = '.') = true
  lower : String.ofList (letters.map Char.toLower) = scheme

/-- A scheme is what stands before the first colon. -/
theorem scheme?_eq_some_iff {cs rest : List Char} {scheme : String} : scheme? cs = some (scheme, rest) ↔
    ∃ letters, cs = letters ++ ':' :: rest ∧ IsScheme letters scheme := by
  constructor
  · intro read
    unfold scheme? at read
    dsimp only at read
    split at read
    · rename_i first others rest' front back
      split at read
      · rename_i alpha
        cases read
        refine ⟨first :: others, ?_, ⟨first, rfl, alpha⟩, ?_, rfl⟩
        · rw [← front, ← back, List.takeWhile_append_dropWhile]
        · intro c mem
          rw [← front] at mem
          have inside := List.mem_takeWhile_imp mem
          exact inside
      · cases read
    · cases read
  · rintro ⟨letters, rfl, ⟨first, isFirst, alpha⟩, parts, rfl⟩
    have colon : ∀ c ∈ (':' :: rest).head?,
        (c.isAlphanum || c = '+' || c = '-' || c = '.') = false := by
      rintro c ⟨⟩
      decide
    unfold scheme?
    dsimp only
    rw [Split.takeWhile_append parts colon, Split.dropWhile_append parts colon]
    cases letters with
    | nil => cases isFirst
    | cons c others =>
        cases isFirst
        exact if_pos alpha

/-! ### Passwords -/

/-- The last place of a character is followed by no other one. -/
theorem splitLast?_eq_some_iff {separator : Char} {cs before after : List Char} :
    splitLast? separator cs = some (before, after) ↔ cs = before ++ separator :: after ∧ separator ∉ after := by
  constructor
  · intro split
    unfold splitLast? at split
    dsimp only at split
    split at split
    · cases split
    · rename_i c back rest
      cases split
      refine ⟨?_, fun mem => Split.ne_of_mem_takeWhile (List.mem_reverse.mp mem) rfl⟩
      have shown := congrArg List.reverse (Split.eq_of_dropWhile rest)
      simpa using shown
  · rintro ⟨rfl, last⟩
    have inside : ∀ c ∈ after.reverse, decide (c ≠ separator) = true := by
      intro c mem
      rw [decide_eq_true_eq]
      rintro rfl
      exact last (List.mem_reverse.mp mem)
    have stops : ∀ c ∈ (separator :: before.reverse).head?, decide (c ≠ separator) = false := by
      rintro c ⟨⟩
      simp
    have reversed : (before ++ separator :: after).reverse = after.reverse ++ separator :: before.reverse := by
      simp
    unfold splitLast?
    dsimp only
    rw [reversed, Split.takeWhile_append inside stops, Split.dropWhile_append inside stops]
    simp

theorem splitLast?_eq_none_iff {separator : Char} {cs : List Char} :
    splitLast? separator cs = none ↔ separator ∉ cs := by
  constructor
  · intro split mem
    unfold splitLast? at split
    dsimp only at split
    split at split
    · rename_i all
      simpa using List.dropWhile_eq_nil_iff.mp all separator (List.mem_reverse.mpr mem)
    · cases split
  · intro free
    cases split : splitLast? separator cs with
    | none => rfl
    | some parts =>
        rw [(splitLast?_eq_some_iff.mp split).1] at free
        simp at free

/-- A password comes after the first colon, and is not empty. -/
theorem credentials_snd_iff {info q : List Char} : (credentials info).2 = some q ↔
    ∃ user, info = user ++ ':' :: q ∧ (∀ c ∈ user, c ≠ ':') ∧ q ≠ [] := by
  unfold credentials
  dsimp only
  constructor
  · intro given
    split at given
    · rename_i d c rest back
      cases given
      exact ⟨info.takeWhile (· ≠ ':'), Split.eq_of_dropWhile back, fun _ => Split.ne_of_mem_takeWhile,
        List.cons_ne_nil _ _⟩
    · cases given
  · rintro ⟨user, rfl, plain, some⟩
    rw [Split.dropWhile_append (fun c mem => decide_eq_true (plain c mem)) (by simp)]
    cases q with
    | nil => exact absurd rfl some
    | cons c rest => rfl

/-- A password stands between two pieces of a URL: after the colon that follows the user, and before the at
sign that the host follows. A password may hold colons and at signs itself. -/
structure HasPassword (scheme : String) (pre q post : List Char) : Prop where
  opens : ∃ letters user, IsScheme letters scheme ∧ pre = letters ++ ':' :: '/' :: '/' :: (user ++ [':']) ∧
    ∀ c ∈ user, c ≠ ':' ∧ endsAuthority c = false
  stands : q ≠ [] ∧ ∀ c ∈ q, endsAuthority c = false
  closes : ∃ host rest, post = '@' :: (host ++ rest) ∧ (∀ c ∈ host, c ≠ '@' ∧ endsAuthority c = false) ∧
    ∀ c ∈ rest.head?, endsAuthority c = true

/-- What is read of the text after two slashes. -/
theorem ofAuthority?_eq_some {scheme : String} {cs : List Char} {u : Url}
    (read : ofAuthority? scheme cs = some u) : u.scheme = scheme ∧
      u.password =
        ((splitLast? '@' (cs.takeWhile fun c => !endsAuthority c)).bind fun i => (credentials i.1).2) ∧
      u.query = (splitQuery (cs.dropWhile fun c => !endsAuthority c)).2 := by
  have password (info : Option (List Char × List Char)) :
      ((info.map fun i => credentials i.1).getD ([], none)).2 = info.bind fun i => (credentials i.1).2 := by
    cases info <;> rfl
  unfold ofAuthority? at read
  dsimp only at read
  obtain ⟨host, -, read⟩ := Option.bind_eq_some_iff.mp read
  split at read
  · cases read
  split at read
  · cases read
  split at read
  · cases read
    exact ⟨rfl, password _, rfl⟩
  · obtain ⟨⟨port, rest⟩, -, read⟩ := Option.bind_eq_some_iff.mp read
    cases read
    exact ⟨rfl, password _, rfl⟩

/-- What is read of a text: its scheme, then either an authority or a path. -/
theorem parse?_eq_some {text : String} {u : Url} (read : parse? text = some u) :
    ∃ rest, scheme? (cleaned text) = some (u.scheme, rest) ∧
      ((∃ cs, rest = '/' :: '/' :: cs ∧ ofAuthority? u.scheme cs = some u) ∨
        (∀ cs, rest ≠ '/' :: '/' :: cs) ∧ u.password = none ∧ u.query = (splitQuery rest).2) := by
  unfold parse? at read
  obtain ⟨⟨scheme, rest⟩, named, read⟩ := Option.bind_eq_some_iff.mp read
  dsimp only at read
  split at read
  · rename_i cs
    have same := (ofAuthority?_eq_some read).1
    rw [same]
    exact ⟨_, named, .inl ⟨cs, rfl, read⟩⟩
  · rename_i other
    cases read
    exact ⟨_, named, .inr ⟨by simpa using other, rfl, rfl⟩⟩
  · rename_i other _
    cases read
    exact ⟨_, named, .inr ⟨other, rfl, rfl⟩⟩

/-- The password of an authority stands between the first colon and the last at sign. -/
theorem authority_password_iff {cs q : List Char} :
    ((splitLast? '@' (cs.takeWhile fun c => !endsAuthority c)).bind fun i => (credentials i.1).2) = some q ↔
      ∃ user host more, cs = (user ++ ':' :: q ++ '@' :: host) ++ more ∧
        (∀ c ∈ user, c ≠ ':' ∧ endsAuthority c = false) ∧ (q ≠ [] ∧ ∀ c ∈ q, endsAuthority c = false) ∧
        (∀ c ∈ host, c ≠ '@' ∧ endsAuthority c = false) ∧ ∀ c ∈ more.head?, endsAuthority c = true := by
  constructor
  · intro password
    obtain ⟨⟨info, host⟩, split, password⟩ := Option.bind_eq_some_iff.mp password
    obtain ⟨user, rfl, plain, some⟩ := credentials_snd_iff.mp password
    obtain ⟨authority, last⟩ := splitLast?_eq_some_iff.mp split
    -- No character of the authority ends it.
    have inside : ∀ c ∈ user ++ ':' :: q ++ '@' :: host, endsAuthority c = false := by
      intro c mem
      rw [← authority] at mem
      have goesOn := List.mem_takeWhile_imp mem
      exact (Bool.not_eq_true' _).mp goesOn
    refine ⟨user, host, cs.dropWhile fun c => !endsAuthority c, ?_, ?_, ⟨some, ?_⟩, ?_, ?_⟩
    · rw [← authority, List.takeWhile_append_dropWhile]
    · exact fun c mem => ⟨plain c mem, inside c (by simp [mem])⟩
    · exact fun c mem => inside c (by simp [mem])
    · exact fun c mem => ⟨fun same => last (same ▸ mem), inside c (by simp [mem])⟩
    · intro c first
      have stops := Split.head?_dropWhile (fun c => !endsAuthority c) cs c first
      exact (Bool.not_eq_false' _).mp stops
  · rintro ⟨user, host, more, rfl, plain, ⟨some, inside⟩, last, stops⟩
    have authority : ∀ c ∈ user ++ ':' :: q ++ '@' :: host, (!endsAuthority c) = true := by
      intro c mem
      rw [Bool.not_eq_true']
      simp only [List.mem_append, List.mem_cons] at mem
      rcases mem with (mem | rfl | mem) | rfl | mem
      · exact (plain c mem).2
      · rfl
      · exact inside c mem
      · rfl
      · exact (last c mem).2
    rw [Split.takeWhile_append authority fun c first => by rw [stops c first]; rfl,
      splitLast?_eq_some_iff.mpr ⟨rfl, fun mem => (last _ mem).1 rfl⟩]
    exact credentials_snd_iff.mpr ⟨user, rfl, fun c mem => (plain c mem).1, some⟩

/-- The password of a URL is what stands between two such pieces of its text. -/
theorem password_iff {text : String} {u : Url} {q : List Char} (read : parse? text = some u) :
    u.password = some q ↔ ∃ pre post, cleaned text = pre ++ q ++ post ∧ HasPassword u.scheme pre q post := by
  obtain ⟨rest, named, read⟩ := parse?_eq_some read
  constructor
  · intro given
    rcases read with ⟨cs, rfl, read⟩ | ⟨_, none, _⟩
    · obtain ⟨_, password, _⟩ := ofAuthority?_eq_some read
      rw [password] at given
      obtain ⟨user, host, more, rfl, plain, stands, last, stops⟩ := authority_password_iff.mp given
      obtain ⟨letters, whole, isScheme⟩ := scheme?_eq_some_iff.mp named
      refine ⟨letters ++ ':' :: '/' :: '/' :: (user ++ [':']), '@' :: (host ++ more), by rw [whole]; simp, ?_⟩
      exact ⟨⟨letters, user, isScheme, rfl, plain⟩, stands, host, more, rfl, last, stops⟩
    · rw [none] at given
      cases given
  · rintro ⟨pre, post, whole, ⟨letters, user, isScheme, rfl, plain⟩, stands, host, more, rfl, last, stops⟩
    have named' : scheme? (cleaned text) =
        some (u.scheme, '/' :: '/' :: ((user ++ ':' :: q ++ '@' :: host) ++ more)) :=
      scheme?_eq_some_iff.mpr ⟨letters, by rw [whole]; simp, isScheme⟩
    rw [named] at named'
    cases named'
    rcases read with ⟨cs, same, read⟩ | ⟨other, _, _⟩
    · cases same
      obtain ⟨_, password, _⟩ := ofAuthority?_eq_some read
      rw [password]
      exact authority_password_iff.mpr ⟨user, host, more, rfl, plain, stands, last, stops⟩
    · exact absurd rfl (other _)

/-! ### Queries -/

/-- The value of a name stands between two pieces of a URL: after the name and an equals sign in the query, and
before an ampersand, a number sign or the end. The name is not given again after it. -/
structure HasValue (scheme name : String) (pre q post : List Char) : Prop where
  opens : ∃ (letters path : List Char) (earlier : List (List Char)) (label : List Char), IsScheme letters scheme ∧
    pre = letters ++ ':' :: (path ++ '?' :: (earlier.flatMap (· ++ ['&']) ++ label ++ ['='])) ∧
    (∀ c ∈ path, c ≠ '?' ∧ c ≠ '#') ∧ (∀ part ∈ earlier, '&' ∉ part ∧ '#' ∉ part) ∧
    (∀ c ∈ label, c ≠ '&' ∧ c ≠ '#' ∧ c ≠ '=') ∧ Percent.queryText label = name
  stands : ∀ c ∈ q, c ≠ '&' ∧ c ≠ '#'
  closes : ∃ (later : List (List Char)) (fragment : List Char), post = later.flatMap ('&' :: ·) ++ fragment ∧
    (∀ part ∈ later, '&' ∉ part ∧ '#' ∉ part ∧ Percent.queryText (part.takeWhile (· ≠ '=')) ≠ name) ∧
    ∀ c ∈ fragment.head?, c = '#'

/-- The query is what stands between the first question mark and the first number sign. -/
theorem splitQuery_snd_iff {cs query : List Char} : (splitQuery cs).2 = some query ↔
    ∃ before fragment, cs = before ++ '?' :: (query ++ fragment) ∧ (∀ c ∈ before, c ≠ '?' ∧ c ≠ '#') ∧
      '#' ∉ query ∧ ∀ c ∈ fragment.head?, c = '#' := by
  constructor
  · intro given
    unfold splitQuery at given
    dsimp only at given
    split at given
    · cases given
    · rename_i d rest back
      cases given
      have shown := Split.eq_of_dropWhile back
      refine ⟨(cs.takeWhile (· ≠ '#')).takeWhile (· ≠ '?'), cs.dropWhile (· ≠ '#'), ?_, ?_, ?_, ?_⟩
      · rw [← List.cons_append, ← List.append_assoc, ← shown, List.takeWhile_append_dropWhile]
      · exact fun c mem => ⟨Split.ne_of_mem_takeWhile mem,
          Split.ne_of_mem_takeWhile (List.takeWhile_subset _ mem)⟩
      · intro mem
        have inside : '#' ∈ cs.takeWhile (· ≠ '#') := by
          rw [shown]
          simp [mem]
        exact Split.ne_of_mem_takeWhile inside rfl
      · intro c first
        simpa using Split.head?_dropWhile (· ≠ '#') cs c first
  · rintro ⟨before, fragment, rfl, plain, free, stops⟩
    have inside : ∀ c ∈ before ++ '?' :: query, decide (c ≠ '#') = true := by
      intro c mem
      rw [decide_eq_true_eq]
      rcases List.mem_append.mp mem with mem | mem
      · exact (plain c mem).2
      · rintro rfl
        rcases List.mem_cons.mp mem with same | mem
        · exact absurd same (by decide)
        · exact free mem
    have whole : before ++ '?' :: (query ++ fragment) = before ++ '?' :: query ++ fragment := by simp
    unfold splitQuery
    dsimp only
    rw [whole, Split.takeWhile_append inside fun c first => by simp [stops c first],
      Split.dropWhile_append (fun c mem => decide_eq_true (plain c mem).1) (by simp)]

/-- A text without a mark before a text does not change its query. -/
theorem splitQuery_append_snd {front : List Char} (plain : ∀ c ∈ front, c ≠ '?' ∧ c ≠ '#') (rest : List Char) :
    (splitQuery (front ++ rest)).2 = (splitQuery rest).2 := by
  unfold splitQuery
  dsimp only
  rw [List.takeWhile_append_of_pos fun c mem => decide_eq_true (plain c mem).2,
    List.dropWhile_append_of_pos fun c mem => decide_eq_true (plain c mem).1]
  cases (rest.takeWhile (· ≠ '#')).dropWhile (· ≠ '?') <;> rfl

/-- The query of a URL is that of what follows its scheme, since there is no mark in an authority. -/
theorem query_eq {text : String} {u : Url} {rest : List Char} (read : parse? text = some u)
    (named : scheme? (cleaned text) = some (u.scheme, rest)) : u.query = (splitQuery rest).2 := by
  obtain ⟨_, named', read⟩ := parse?_eq_some read
  rw [named] at named'
  cases named'
  rcases read with ⟨cs, rfl, read⟩ | ⟨_, _, query⟩
  · obtain ⟨_, _, query⟩ := ofAuthority?_eq_some read
    have front : ∀ c ∈ '/' :: '/' :: cs.takeWhile (fun c => !endsAuthority c), c ≠ '?' ∧ c ≠ '#' := by
      intro c mem
      simp only [List.mem_cons] at mem
      rcases mem with rfl | rfl | mem
      · decide
      · decide
      · have goesOn := List.mem_takeWhile_imp mem
        refine ⟨?_, ?_⟩
        all_goals
          rintro rfl
          exact absurd goesOn (by decide)
    rw [query, ← splitQuery_append_snd front, List.cons_append, List.cons_append,
      List.takeWhile_append_dropWhile]
  · exact query

/-- What the last part of a query with a name gives for it. -/
theorem queryValue?_eq_some_iff {query : List Char} {name value : String} (named : name ≠ "") :
    Percent.queryValue? query name = some value ↔ ∃ earlier part later,
      Split.on '&' query = earlier ++ part :: later ∧ Percent.queryText (part.takeWhile (· ≠ '=')) = name ∧
      Percent.queryText ((part.dropWhile (· ≠ '=')).drop 1) = value ∧
      ∀ other ∈ later, Percent.queryText (other.takeWhile (· ≠ '=')) ≠ name := by
  -- A part without characters has no name.
  have isPart (part : List Char) : (!part.isEmpty) = true ∧
      decide (Percent.queryText (part.takeWhile (· ≠ '=')) = name) = true ↔
        Percent.queryText (part.takeWhile (· ≠ '=')) = name := by
    rw [decide_eq_true_eq, and_iff_right_iff_imp]
    rintro isNamed
    cases part with
    | nil => exact absurd isNamed.symm named
    | cons => rfl
  have found : Percent.queryValue? query name =
      ((Split.on '&' query).reverse.find? fun part => Percent.queryText (part.takeWhile (· ≠ '=')) = name).map
        fun part => Percent.queryText ((part.dropWhile (· ≠ '=')).drop 1) := by
    unfold Percent.queryValue? Percent.queryPairs
    rw [← List.map_reverse, ← List.filter_reverse, List.find?_map, List.find?_filter, Option.map_map]
    simp only [Function.comp_def, isPart]
  rw [found, Option.map_eq_some_iff]
  constructor
  · rintro ⟨part, isFirst, gives⟩
    obtain ⟨isNamed, later, earlier, parts, others⟩ := List.find?_eq_some_iff_append.mp isFirst
    refine ⟨earlier.reverse, part, later.reverse, ?_, of_decide_eq_true isNamed, gives, ?_⟩
    · rw [← List.reverse_inj, parts]
      simp
    · intro other mem
      have isOther := others other (List.mem_reverse.mp mem)
      simpa using isOther
  · rintro ⟨earlier, part, later, parts, isNamed, gives, others⟩
    refine ⟨part, List.find?_eq_some_iff_append.mpr ⟨decide_eq_true isNamed, later.reverse, earlier.reverse,
      ?_, ?_⟩, gives⟩
    · rw [parts]
      simp
    · intro other mem
      have isOther := others other (List.mem_reverse.mp mem)
      simpa using isOther

/-- The part of a query that gives a value that is not empty is a name, an equals sign and the value. -/
theorem value_of_part {part : List Char} {value : String} (given : value ≠ "")
    (gives : Percent.queryText ((part.dropWhile (· ≠ '=')).drop 1) = value) :
    ∃ q, part = part.takeWhile (· ≠ '=') ++ '=' :: q ∧ Percent.queryText q = value := by
  generalize back : part.dropWhile (· ≠ '=') = rest at gives
  cases rest with
  | nil => exact absurd gives.symm given
  | cons d q => exact ⟨q, Split.eq_of_dropWhile back, gives⟩

/-- A query in which one part has a label and a value. -/
def queryOf (earlier : List (List Char)) (label q : List Char) (later : List (List Char)) : List Char :=
  earlier.flatMap (· ++ ['&']) ++ (label ++ '=' :: q) ++ later.flatMap ('&' :: ·)

/-- The label is the last one of a name in such a query, which holds no number sign. -/
structure Labels (name : String) (earlier : List (List Char)) (label q : List Char)
    (later : List (List Char)) : Prop where
  before : ∀ part ∈ earlier, '&' ∉ part ∧ '#' ∉ part
  plain : ∀ c ∈ label, c ≠ '&' ∧ c ≠ '#' ∧ c ≠ '='
  isNamed : Percent.queryText label = name
  inside : ∀ c ∈ q, c ≠ '&' ∧ c ≠ '#'
  after : ∀ part ∈ later, '&' ∉ part ∧ '#' ∉ part ∧ Percent.queryText (part.takeWhile (· ≠ '=')) ≠ name

/-- No part of such a query holds a character that ends one. -/
theorem Labels.unmarked {name : String} {earlier later : List (List Char)} {label q : List Char}
    (labels : Labels name earlier label q later) :
    ∀ text ∈ earlier ++ (label ++ '=' :: q) :: later, '&' ∉ text ∧ '#' ∉ text := by
  have free : ∀ c ∈ label ++ '=' :: q, c ≠ '&' ∧ c ≠ '#' := by
    intro c mem
    rcases List.mem_append.mp mem with mem | mem
    · exact ⟨(labels.plain c mem).1, (labels.plain c mem).2.1⟩
    rcases List.mem_cons.mp mem with rfl | mem
    · decide
    · exact labels.inside c mem
  refine List.forall_mem_append.mpr ⟨labels.before, List.forall_mem_cons.mpr ⟨?_, ?_⟩⟩
  · exact ⟨fun mem => (free _ mem).1 rfl, fun mem => (free _ mem).2 rfl⟩
  · exact fun text mem => ⟨(labels.after text mem).1, (labels.after text mem).2.1⟩

/-- What a query gives for a name stands after its last label, unless it is empty. -/
theorem queryValue?_iff_labels {query : List Char} {name value : String} (named : name ≠ "") (given : value ≠ "") :
    '#' ∉ query ∧ Percent.queryValue? query name = some value ↔ ∃ earlier label q later,
      query = queryOf earlier label q later ∧ Labels name earlier label q later ∧ Percent.queryText q = value := by
  rw [queryValue?_eq_some_iff named]
  constructor
  · rintro ⟨free, earlier, part, later, parts, isNamed, gives, others⟩
    obtain ⟨rfl, apart⟩ := Split.on_eq_iff.mp parts
    obtain ⟨q, split, gives⟩ := value_of_part given gives
    have unmarked : ∀ text ∈ earlier ++ part :: later, '&' ∉ text ∧ '#' ∉ text := fun text mem =>
      ⟨apart text mem, fun mark => free ((Split.mem_parts_iff (by decide)).mpr ⟨text, mem, mark⟩)⟩
    obtain ⟨before, unmarked⟩ := List.forall_mem_append.mp unmarked
    obtain ⟨partFree, after⟩ := List.forall_mem_cons.mp unmarked
    have plain : ∀ c ∈ part, c ≠ '&' ∧ c ≠ '#' :=
      fun c mem => ⟨fun same => partFree.1 (same ▸ mem), fun same => partFree.2 (same ▸ mem)⟩
    refine ⟨earlier, part.takeWhile (· ≠ '='), q, later, by rw [queryOf, ← split], ⟨before, ?_, isNamed, ?_, ?_⟩,
      gives⟩
    · intro c mem
      obtain ⟨noAmpersand, noSign⟩ := plain c (List.takeWhile_subset _ mem)
      exact ⟨noAmpersand, noSign, Split.ne_of_mem_takeWhile mem⟩
    · exact fun c mem => plain c (by rw [split]; simp [mem])
    · exact fun text mem => ⟨(after text mem).1, (after text mem).2, others text mem⟩
  · rintro ⟨earlier, label, q, later, rfl, labels, gives⟩
    have unmarked := labels.unmarked
    have labelled : (label ++ '=' :: q).takeWhile (· ≠ '=') = label :=
      Split.takeWhile_append (fun c mem => decide_eq_true (labels.plain c mem).2.2) (by simp)
    have valued : (label ++ '=' :: q).dropWhile (· ≠ '=') = '=' :: q :=
      Split.dropWhile_append (fun c mem => decide_eq_true (labels.plain c mem).2.2) (by simp)
    refine ⟨fun mark => ?_, earlier, label ++ '=' :: q, later,
      Split.on_eq_iff.mpr ⟨rfl, fun text mem => (unmarked text mem).1⟩, ?_, ?_,
      fun text mem => (labels.after text mem).2.2⟩
    · obtain ⟨text, mem, mark⟩ := (Split.mem_parts_iff (by decide)).mp mark
      exact (unmarked text mem).2 mark
    · rw [labelled, labels.isNamed]
    · rw [valued, List.drop_one, List.tail_cons, gives]

/-- A value in the query that is not empty is what stands between two such pieces of the text. -/
theorem value_iff {text : String} {u : Url} {name value : String} (read : parse? text = some u)
    (named : name ≠ "") (given : value ≠ "") :
    u.query.bind (Percent.queryValue? · name) = some value ↔ ∃ pre q post,
      cleaned text = pre ++ q ++ post ∧ HasValue u.scheme name pre q post ∧ Percent.queryText q = value := by
  obtain ⟨rest, isScheme, _⟩ := parse?_eq_some read
  rw [query_eq read isScheme, Option.bind_eq_some_iff]
  constructor
  · rintro ⟨query, asked, found⟩
    obtain ⟨letters, whole, isLetters⟩ := scheme?_eq_some_iff.mp isScheme
    obtain ⟨path, fragment, rfl, plain, free, stops⟩ := splitQuery_snd_iff.mp asked
    obtain ⟨earlier, label, q, later, rfl, labels, gives⟩ := (queryValue?_iff_labels named given).mp ⟨free, found⟩
    refine ⟨letters ++ ':' :: (path ++ '?' :: (earlier.flatMap (· ++ ['&']) ++ label ++ ['='])),
      q, later.flatMap ('&' :: ·) ++ fragment, ?_, ⟨⟨letters, path, earlier, label, isLetters, rfl, plain,
      labels.before, labels.plain, labels.isNamed⟩, labels.inside, later, fragment, rfl, labels.after, stops⟩, gives⟩
    rw [whole, queryOf]
    simp
  · rintro ⟨pre, q, post, whole, ⟨⟨letters, path, earlier, label, isLetters, rfl, plain, before, labelFree,
      isNamed⟩, inside, later, fragment, rfl, after, stops⟩, gives⟩
    have named' : scheme? (cleaned text) =
        some (u.scheme, path ++ '?' :: (queryOf earlier label q later ++ fragment)) :=
      scheme?_eq_some_iff.mpr ⟨letters, by rw [whole, queryOf]; simp, isLetters⟩
    rw [isScheme] at named'
    cases named'
    obtain ⟨free, found⟩ := (queryValue?_iff_labels named given).mpr
      ⟨earlier, label, q, later, rfl, ⟨before, labelFree, isNamed, inside, after⟩, gives⟩
    exact ⟨_, splitQuery_snd_iff.mpr ⟨path, fragment, rfl, plain, free, stops⟩, found⟩

/-! ### Texts as they are written -/

variable {scheme name : String} {before part after pre q post : List Char}

/-- The password of a URL stands between two pieces of its text. -/
def PasswordAt (scheme : String) (before part after : List Char) : Prop :=
  ∃ pre q post, Cleans before part after pre q post ∧ HasPassword scheme pre q post

/-- The value of a name in the query of a URL stands between two pieces of its text. -/
def ValueAt (scheme name : String) (before part after : List Char) : Prop :=
  ∃ pre q post, Cleans before part after pre q post ∧ HasValue scheme name pre q post

theorem Cleans.eq_kept (cleans : Cleans before part after pre q post) : q = kept part := by
  cases cleans
  rfl

/-- The scheme is told by what stands before the place. -/
theorem scheme_eq_of_letters {text : String} {u : Url} (read : parse? text = some u) {letters rest : List Char}
    (isScheme : IsScheme letters scheme) (whole : cleaned text = letters ++ ':' :: rest) : u.scheme = scheme := by
  obtain ⟨_, named, _⟩ := parse?_eq_some read
  rw [scheme?_eq_some_iff.mpr ⟨letters, whole, isScheme⟩] at named
  cases named
  rfl

theorem PasswordAt.scheme_eq {u : Url} (place : PasswordAt scheme before part after)
    (read : parse? (String.ofList (before ++ part ++ after)) = some u) : u.scheme = scheme := by
  obtain ⟨_, q, post, cleans, ⟨letters, user, isScheme, rfl, _⟩, _, _⟩ := place
  exact scheme_eq_of_letters read isScheme (by rw [cleans.cleaned, List.append_assoc, List.append_assoc]; rfl)

theorem ValueAt.scheme_eq {u : Url} (place : ValueAt scheme name before part after)
    (read : parse? (String.ofList (before ++ part ++ after)) = some u) : u.scheme = scheme := by
  obtain ⟨_, q, post, cleans, ⟨letters, _, _, _, isScheme, rfl, _⟩, _, _⟩ := place
  exact scheme_eq_of_letters read isScheme (by rw [cleans.cleaned, List.append_assoc, List.append_assoc]; rfl)

/-- The password of a URL is what is left of what stands at its place. -/
theorem password_eq_some_iff {text : String} {u : Url} (read : parse? text = some u) :
    u.password = some q ↔ ∃ before part after, text = String.ofList (before ++ part ++ after) ∧
      PasswordAt u.scheme before part after ∧ kept part = q := by
  rw [password_iff read]
  constructor
  · rintro ⟨pre, post, eq, has⟩
    obtain ⟨before, part, after, whole, cleans⟩ := exists_cleans eq
    refine ⟨before, part, after, ?_, ⟨pre, q, post, cleans, has⟩, cleans.eq_kept.symm⟩
    rw [← whole, String.ofList_toList]
  · rintro ⟨before, part, after, rfl, ⟨pre, q', post, cleans, has⟩, rfl⟩
    obtain rfl := cleans.eq_kept
    exact ⟨pre, post, cleans.cleaned, has⟩

/-- The value of a name, unless it is empty, is the text of what is left of what stands at its place. -/
theorem value_eq_some_iff {text value : String} {u : Url} (read : parse? text = some u) (named : name ≠ "")
    (given : value ≠ "") : u.query.bind (Percent.queryValue? · name) = some value ↔
      ∃ before part after, text = String.ofList (before ++ part ++ after) ∧
        ValueAt u.scheme name before part after ∧ Percent.queryText (kept part) = value := by
  rw [value_iff read named given]
  constructor
  · rintro ⟨pre, q, post, eq, has, gives⟩
    obtain ⟨before, part, after, whole, cleans⟩ := exists_cleans eq
    obtain rfl := cleans.eq_kept
    refine ⟨before, part, after, ?_, ⟨pre, _, post, cleans, has⟩, gives⟩
    rw [← whole, String.ofList_toList]
  · rintro ⟨before, part, after, rfl, ⟨pre, q, post, cleans, has⟩, gives⟩
    obtain rfl := cleans.eq_kept
    exact ⟨pre, _, post, cleans.cleaned, has, gives⟩

end TokenAuthority.Url
