import TokenAuthority.Proofs.Text.Integer
import TokenAuthority.Proofs.Url.Places
import TokenAuthority.Redis.Config

/-!
# What is shown of connection settings

What logs show of connection settings is compared for two passwords at one place.

* `Redis.Config.Carries` — the places where a password is that a connection is made with.
* `Redis.Config.hides_passwords` — what is shown does not depend on a password that is given apart or that
  stands before the host of a URL. One that stands in the query of a URL, where a socket has it, is shown
  unless an at sign follows it.
-/

namespace TokenAuthority.Redis.Config

open Url
open Integer (eq_ok_of_bind eq_ok_of_map)

/-- Whether logs show the same of two settings. -/
structure ShownAlike (c d : Config) : Prop where
  endpoint : c.endpoint = d.endpoint
  redacted : c.redacted = d.redacted

def atUrl (c : Config) (text : List Char) : Config := { c with url := some (String.ofList text) }

/-- What is shown of a URL. -/
def shown (text : List Char) : List Char :=
  match splitLast? '@' text with
  | some (_, rest) => "redis://***@".toList ++ rest
  | none => text

/-- A password that is not empty is where a connection takes it from. -/
inductive Carries (c : Config) (password : String) : Prop where
  | field : c.url = none → c.password = some password → Carries c password
  | authority {scheme : String} {before part after : List Char} :
      c.url = some (String.ofList (before ++ part ++ after)) → scheme ∈ ["redis", "rediss"] →
      PasswordAt scheme before part after → Percent.decode? (kept part) = some password → Carries c password
  | query {scheme : String} {before part after : List Char} :
      c.url = some (String.ofList (before ++ part ++ after)) → scheme ∈ ["unix", "redis+unix"] →
      ValueAt scheme "pass" before part after → Percent.queryText (kept part) = password → Carries c password

/-! ### What is shown -/

/-- What follows the last at sign is shown. -/
theorem shown_eq {before after : List Char} (last : '@' ∉ after) :
    shown (before ++ '@' :: after) = "redis://***@".toList ++ after := by
  unfold shown
  rw [splitLast?_eq_some_iff.mpr ⟨rfl, last⟩]

/-- A text without at signs is shown as it is. -/
theorem shown_of_not_mem {text : List Char} (free : '@' ∉ text) : shown text = text := by
  unfold shown
  rw [splitLast?_eq_none_iff.mpr free]

theorem exists_last {text : List Char} (sign : '@' ∈ text) :
    ∃ before after, text = before ++ '@' :: after ∧ '@' ∉ after := by
  cases split : splitLast? '@' text with
  | none => exact absurd sign (splitLast?_eq_none_iff.mp split)
  | some parts => exact ⟨parts.1, parts.2, splitLast?_eq_some_iff.mp split⟩

/-- What stands before an at sign is not shown. -/
theorem shown_append_of_mem {text : List Char} (sign : '@' ∈ text) (front : List Char) :
    shown (front ++ text) = shown text := by
  obtain ⟨before, after, rfl, last⟩ := exists_last sign
  rw [shown_eq last, ← List.append_assoc, shown_eq last]

/-- What follows all at signs is shown as it is. -/
theorem shown_append_of_not_mem {text : List Char} (free : '@' ∉ text) (front : List Char) :
    shown (front ++ text) = shown front ++ text := by
  by_cases sign : '@' ∈ front
  · obtain ⟨before, after, rfl, last⟩ := exists_last sign
    have last' : '@' ∉ after ++ text := by simp [last, free]
    rw [shown_eq last, List.append_assoc, List.cons_append, shown_eq last', List.append_assoc]
  · rw [shown_of_not_mem sign, shown_of_not_mem (by simp [sign, free])]

theorem endpoint_atUrl (c : Config) (text : List Char) :
    (c.atUrl text).endpoint = String.ofList (shown text) := by
  unfold endpoint atUrl shown
  dsimp only
  rw [String.toList_ofList]
  cases splitLast? '@' text with
  | none => rfl
  | some parts => rw [String.ofList_append, String.ofList_toList]

/-- Settings that differ in their URL are shown alike exactly if the URLs are. -/
theorem shownAlike_atUrl_iff {c : Config} {a b : List Char} :
    ShownAlike (c.atUrl a) (c.atUrl b) ↔ shown a = shown b := by
  constructor
  · intro alike
    have same := alike.endpoint
    rw [endpoint_atUrl, endpoint_atUrl] at same
    exact String.ofList_injective same
  · intro same
    have endpoints : (c.atUrl a).endpoint = (c.atUrl b).endpoint := by
      rw [endpoint_atUrl, endpoint_atUrl, same]
    refine ⟨endpoints, ?_⟩
    unfold redacted
    rw [endpoints]
    rfl

/-- What stands between two pieces of a URL is shown unless an at sign follows it. -/
theorem shown_between_iff {before p q after : List Char} :
    shown (before ++ p ++ after) = shown (before ++ q ++ after) ↔
      '@' ∈ after ∨ shown (before ++ p) = shown (before ++ q) := by
  by_cases sign : '@' ∈ after
  · simp only [shown_append_of_mem sign, sign, true_or]
  · simp only [shown_append_of_not_mem sign, List.append_cancel_right_eq, sign, false_or]

/-! ### Where passwords are -/

theorem decoded_eq_ok_iff {part : List Char} {name text : String} :
    Target.decoded part name = .ok text ↔ Percent.decode? part = some text := by
  unfold Target.decoded
  cases Percent.decode? part <;> simp

theorem decoded_given_iff {part : Option (List Char)} {name text : String} {given : Option String}
    (read : part.mapM (Target.decoded · name) = .ok given) :
    given = some text ↔ ∃ q, part = some q ∧ Percent.decode? q = some text := by
  cases part with
  | none =>
      cases read
      simp
  | some q =>
      obtain ⟨text', isText, rfl⟩ := eq_ok_of_map read
      have decodes := decoded_eq_ok_iff.mp isText
      simp [decodes]

/-- The password of a server is that of its URL, decoded. -/
theorem password_of_ofHostUrl {u : Url} {t : Target} {password : String} (made : Target.ofHostUrl u = .ok t) :
    t.password = some password ↔ ∃ q, u.password = some q ∧ Percent.decode? q = some password := by
  unfold Target.ofHostUrl at made
  dsimp only at made
  split at made
  · cases made
  all_goals
    obtain ⟨host, -, made⟩ := eq_ok_of_bind made
    split at made
    · cases made
    obtain ⟨db, -, made⟩ := eq_ok_of_bind made
    split at made
    all_goals
      obtain ⟨username, -, made⟩ := eq_ok_of_bind made
      obtain ⟨given, read, made⟩ := eq_ok_of_bind made
      cases made
      exact decoded_given_iff read

/-- The password of a socket is a value in the query of its URL. -/
theorem password_of_ofSocketUrl {u : Url} {t : Target} (made : Target.ofSocketUrl u = .ok t) :
    t.password = u.query.bind (Percent.queryValue? · "pass") := by
  unfold Target.ofSocketUrl at made
  dsimp only at made
  split at made
  · cases made
  obtain ⟨db, -, made⟩ := eq_ok_of_bind made
  cases made
  cases u.query <;> rfl

/-- A target is that of a server or of a socket. -/
theorem eq_ok_of_ofUrl {text : String} {t : Target} (made : Target.ofUrl text = .ok t) :
    ∃ u, parse? text = some u ∧ (u.scheme ∈ ["redis", "rediss"] ∧ Target.ofHostUrl u = .ok t ∨
      u.scheme ∈ ["unix", "redis+unix"] ∧ Target.ofSocketUrl u = .ok t) := by
  unfold Target.ofUrl at made
  split at made
  · cases made
  · rename_i u read
    split at made
    · rename_i server
      exact ⟨u, read, .inl ⟨List.contains_iff_mem.mp server, made⟩⟩
    · split at made
      · rename_i socket
        exact ⟨u, read, .inr ⟨List.contains_iff_mem.mp socket, made⟩⟩
      · cases made

theorem not_socket_of_server {scheme : String} (server : scheme ∈ ["redis", "rediss"]) :
    scheme ∉ ["unix", "redis+unix"] := by
  simp only [List.mem_cons, List.not_mem_nil, or_false] at server
  rcases server with rfl | rfl
  all_goals decide

/-- The password that a connection is made with is at one of the places. -/
theorem target_password_iff {c : Config} {t : Target} {password : String} (made : c.target = .ok t)
    (given : password ≠ "") : t.password = some password ↔ c.Carries password := by
  unfold target at made
  split at made
  · rename_i text isUrl
    obtain ⟨u, read, ⟨server, made⟩ | ⟨socket, made⟩⟩ := eq_ok_of_ofUrl made
    · rw [password_of_ofHostUrl made]
      constructor
      · rintro ⟨q, has, decodes⟩
        obtain ⟨before, part, after, rfl, place, rfl⟩ := (password_eq_some_iff read).mp has
        exact .authority isUrl server place decodes
      · rintro (⟨isNone, _⟩ | ⟨isUrl', _, place, decodes⟩ | ⟨isUrl', socket, place, _⟩)
        · rw [isUrl] at isNone
          cases isNone
        all_goals
          rw [isUrl] at isUrl'
          cases isUrl'
          obtain rfl := place.scheme_eq read
        · exact ⟨_, (password_eq_some_iff read).mpr ⟨_, _, _, rfl, place, rfl⟩, decodes⟩
        · exact absurd socket (not_socket_of_server server)
    · rw [password_of_ofSocketUrl made, value_eq_some_iff read (by decide) given]
      constructor
      · rintro ⟨before, part, after, rfl, place, gives⟩
        exact .query isUrl socket place gives
      · rintro (⟨isNone, _⟩ | ⟨isUrl', server, place, _⟩ | ⟨isUrl', _, place, gives⟩)
        · rw [isUrl] at isNone
          cases isNone
        all_goals
          rw [isUrl] at isUrl'
          cases isUrl'
          obtain rfl := place.scheme_eq read
        · exact absurd socket (not_socket_of_server server)
        · exact ⟨_, _, _, rfl, place, gives⟩
  · rename_i isNone
    split at made
    · cases made
    · cases made
      constructor
      · exact .field isNone
      · rintro (⟨_, has⟩ | ⟨isUrl, _⟩ | ⟨isUrl, _⟩)
        · exact has
        all_goals
          rw [isNone] at isUrl
          cases isUrl

/-! ### Two passwords -/

/-- What stands before the host of a URL is followed by an at sign. -/
theorem mem_of_passwordAt {scheme : String} {before part after : List Char}
    (place : PasswordAt scheme before part after) : '@' ∈ after := by
  obtain ⟨_, _, _, cleans, _, _, host, rest, rfl, _⟩ := place
  exact (cleans.mem_after_iff (by decide)).mpr List.mem_cons_self

/-- Logs do not tell two passwords from each other that are given apart, nor a password that stands before the
host of a URL from anything in its place. Of anything else in a URL all is shown that no at sign follows, also of
a password in the query. A connection takes its password from these places only. -/
theorem hides_passwords (c : Config) :
    (∀ p q, ShownAlike { c with password := some p } { c with password := some q }) ∧
    (∀ scheme before p after, PasswordAt scheme before p after →
      ∀ q, ShownAlike (c.atUrl (before ++ p ++ after)) (c.atUrl (before ++ q ++ after))) ∧
    (∀ before p q after, (ShownAlike (c.atUrl (before ++ p ++ after)) (c.atUrl (before ++ q ++ after)) ↔
        '@' ∈ after ∨ shown (before ++ p) = shown (before ++ q)) ∧
      ('@' ∉ p → '@' ∉ q → (shown (before ++ p) = shown (before ++ q) ↔ p = q))) ∧
    ∀ t password, c.target = .ok t → password ≠ "" → (t.password = some password ↔ c.Carries password) := by
  refine ⟨fun _ _ => ⟨rfl, rfl⟩, ?_, ?_, fun _ _ => target_password_iff⟩
  · intro _ _ _ _ place _
    exact shownAlike_atUrl_iff.mpr (shown_between_iff.mpr (.inl (mem_of_passwordAt place)))
  · intro before p q after
    rw [shownAlike_atUrl_iff, shown_between_iff]
    refine ⟨Iff.rfl, fun first second => ?_⟩
    rw [shown_append_of_not_mem first, shown_append_of_not_mem second, List.append_cancel_left_eq]

end TokenAuthority.Redis.Config

namespace TokenAuthority.Sample

open Redis

/-- The settings for a socket whose URL has a password in its query. -/
def socket (password : String) : Config :=
  Config.atUrl {} ("unix:///tmp/redis.sock?pass=".toList ++ password.toList ++ [])

/-- The passwords of two sockets are told from each other by what is shown of their settings. -/
theorem shows_socket : (socket "hunter2").Carries "hunter2" ∧ (socket "hunter3").Carries "hunter3" ∧
    ¬ Config.ShownAlike (socket "hunter2") (socket "hunter3") := by
  have target (password : String) (isTarget : (socket password).target =
      .ok
        { address := .socket "/tmp/redis.sock".toUTF8.toList, db := 0, username := none,
          password := some password })
      (given : password ≠ "") : (socket password).Carries password :=
    ((Config.hides_passwords (socket password)).2.2.2 _ password isTarget given).mp rfl
  refine ⟨target _ (by decide +kernel) (by decide), target _ (by decide +kernel) (by decide), fun alike => ?_⟩
  obtain ⟨told, apart⟩ := (Config.hides_passwords {}).2.2.1 "unix:///tmp/redis.sock?pass=".toList
    "hunter2".toList "hunter3".toList []
  rcases told.mp alike with sign | same
  · cases sign
  · exact absurd ((apart (by decide) (by decide)).mp same) (by decide)

end TokenAuthority.Sample
