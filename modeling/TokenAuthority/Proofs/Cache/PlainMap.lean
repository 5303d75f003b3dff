import Mathlib.Data.Finmap
import TokenAuthority.Proofs.Cache.Memory

/-!
# A cache in memory as a plain map

A plain map keeps a text with an end under each of some keys, and nothing happens to it when time passes:
what is under a key counts as present until its end. A cache in memory answers as a plain map does, so
nobody can tell when it sweeps.

* `PlainMap.ask` — what a plain map is asked, and answers.
* `Memory.Shows` — a cache in memory shows, from an instant on, what a plain map shows.
* `Memory.Shows.ask` — it then answers like the plain map, and goes on showing what that shows.
* `Memory.answers_plain` — so it does in every run, however often it is swept.
-/

namespace TokenAuthority.Cache

/-- A text and its end under each of some keys. -/
abbrev PlainMap := Finmap fun _ : String => Memory.Entry

/-- What can be asked of a cache in memory: a call, or how many texts there are. -/
inductive Ask where
  | call (r : Request)
  | size

/-- The answer to it. -/
abbrev Ask.Answer : Ask → Type
  | .call r => r.Answer
  | .size => Nat

/-- Something that was asked, with its answer. -/
abbrev Reply := (a : Ask) × a.Answer

namespace PlainMap

/-- A text that is made at an instant. It ends after the whole seconds of its time, of which there is at
least one. -/
def made (now : Instant) (value : String) (ttl : Span) : Memory.Entry :=
  ⟨value, now.after (Span.ofSecs (max 1 ttl.secs))⟩

/-- What is present under a key: what was put there last, until its end. -/
def present? (p : PlainMap) (now : Instant) (key : String) : Option Memory.Entry :=
  (p.lookup key).filter fun e => now < e.expiresAt

def presentKeys (p : PlainMap) (now : Instant) : Finset String :=
  p.keys.filter fun key => (p.present? now key).isSome

/-- What a call answers and leaves behind. -/
def perform (p : PlainMap) (now : Instant) : (r : Request) → r.Answer × PlainMap
  | .get key => (.ok ((p.present? now key).map Memory.Entry.value), p)
  | .setIfAbsent key value ttl =>
    match p.present? now key with
    | some _ => (.ok false, p)
    | none => (.ok true, p.insert key (made now value ttl))
  | .contains key => (.ok (p.present? now key).isSome, p)
  | .delete key => (.ok (p.present? now key).isSome, p.erase key)
  | .increment key window =>
    match p.present? now key with
    | none => (.ok 1, p.insert key (made now "1" window))
    | some e =>
      match Integer.uint64? e.value with
      | none => (.error (.protocol ("value at " ++ key ++ " is not a counter")), p)
      | some n => (.ok (n + 1), p.insert key ⟨toString (n.toNat + 1), e.expiresAt⟩)
  | .ping => (.ok (), p)

/-- What is answered when something is asked, and what that leaves behind. -/
def ask (p : PlainMap) (now : Instant) : (a : Ask) → a.Answer × PlainMap
  | .call r => p.perform now r
  | .size => ((p.presentKeys now).card, p)

/-- The replies to what is asked, each at its time. -/
def answers (p : PlainMap) : List (Instant × Ask) → List Reply
  | [] => []
  | (now, a) :: asked => ⟨a, (p.ask now a).1⟩ :: (p.ask now a).2.answers asked

/-- The end of a text that is made at an instant is an instant of the timer. -/
def Lasts (now : Instant) (ttl : Span) : Prop :=
  (now.after? (Span.ofSecs (max 1 ttl.secs))).isSome

instance (now : Instant) (ttl : Span) : Decidable (Lasts now ttl) :=
  inferInstanceAs (Decidable (_ = true))

/-- What is asked stays in range: what it makes has an end, and what it counts is not at the largest
number. -/
def Fits (p : PlainMap) (now : Instant) : Ask → Prop
  | .call (.setIfAbsent key _ ttl) => p.present? now key = none → Lasts now ttl
  | .call (.increment key window) =>
    match p.present? now key with
    | none => Lasts now window
    | some e => ∀ n ∈ Integer.uint64? e.value, n.toNat + 1 < 2 ^ 64
  | _ => True

instance (p : PlainMap) (now : Instant) : (a : Ask) → Decidable (p.Fits now a)
  | .call (.setIfAbsent key _ ttl) =>
    inferInstanceAs (Decidable (p.present? now key = none → Lasts now ttl))
  | .call (.increment key window) =>
    match present : p.present? now key with
    | none => decidable_of_iff (Lasts now window) (by simp [Fits, present])
    | some e =>
      -- Named, since the instance for all words of a finite type would go through every one of them.
      have : Decidable (∀ n ∈ Integer.uint64? e.value, n.toNat + 1 < 2 ^ 64) :=
        Option.decidableForallMem _
      decidable_of_iff (∀ n ∈ Integer.uint64? e.value, n.toNat + 1 < 2 ^ 64)
        (by simp [Fits, present])
  | .call (.get _) | .call (.contains _) | .call (.delete _) | .call .ping | .size =>
    inferInstanceAs (Decidable True)

/-- All that is asked stays in range. -/
def FitsAll (p : PlainMap) : List (Instant × Ask) → Prop
  | [] => True
  | (now, a) :: asked => p.Fits now a ∧ (p.ask now a).2.FitsAll asked

instance (p : PlainMap) : (asked : List (Instant × Ask)) → Decidable (p.FitsAll asked)
  | [] => inferInstanceAs (Decidable True)
  | (now, a) :: asked =>
    have : Decidable ((p.ask now a).2.FitsAll asked) := instDecidableFitsAll _ asked
    inferInstanceAs (Decidable (p.Fits now a ∧ (p.ask now a).2.FitsAll asked))

variable {p : PlainMap} {t : Instant} {key k : String} {e : Memory.Entry}

theorem present?_empty : present? ∅ t key = none := by
  simp [present?]

theorem present?_insert : present? (p.insert k e) t key =
    if key = k then (some e).filter fun e => t < e.expiresAt else p.present? t key := by
  by_cases same : key = k
  · subst same
    simp [present?]
  · simp [present?, same]

theorem present?_erase : present? (p.erase k) t key = if key = k then none else p.present? t key := by
  by_cases same : key = k
  · subst same
    simp [present?]
  · simp [present?, same]

theorem mem_presentKeys : key ∈ p.presentKeys t ↔ (p.present? t key).isSome := by
  rw [presentKeys, Finset.mem_filter, Finmap.mem_keys, ← Finmap.lookup_isSome]
  constructor
  · intro both
    exact both.2
  · intro present
    refine ⟨?_, present⟩
    obtain ⟨e, found⟩ := Option.isSome_iff_exists.mp present
    rw [(Option.filter_eq_some_iff.mp found).1]
    rfl

end PlainMap

namespace Memory

/-- A use of a cache in memory: something is asked, or it is swept. -/
inductive Use where
  | ask (a : Ask)
  | purge

/-- What is asked by a use. -/
def Use.ask? : Use → Option Ask
  | .ask a => some a
  | .purge => none

/-- What is asked by uses, each at its time. -/
def asked (uses : List (Instant × Use)) : List (Instant × Ask) :=
  uses.filterMap fun u => u.2.ask?.map fun a => (u.1, a)

/-- What is answered when something is asked, and what that leaves behind. -/
def ask (m : Memory) (now : Instant) : (a : Ask) → Except Fault (a.Answer × Memory)
  | .call r => m.perform now r
  | .size => .ok (m.size now, m)

/-- The replies to uses, each at its time, and what they leave behind. How many entries a sweep drops is
no reply. -/
def run (m : Memory) : List (Instant × Use) → Except Fault (List Reply × Memory)
  | [] => .ok ([], m)
  | (now, .purge) :: uses => (m.purge now).2.run uses
  | (now, .ask a) :: uses => do
    let (answer, m) ← m.ask now a
    let (replies, m) ← m.run uses
    return (⟨a, answer⟩ :: replies, m)

/-- The replies to uses. -/
def answers (m : Memory) (uses : List (Instant × Use)) : Except Fault (List Reply) :=
  (m.run uses).map Prod.fst

variable {m : Memory} {p : PlainMap} {now t : Instant} {key k : String} {e : Entry}

/-! ### Live entries -/

theorem live?_eq_some_iff (valid : m.Valid) :
    m.live? t key = some e ↔ (key, e) ∈ m.entries ∧ t < e.expiresAt := by
  rw [live?, Option.filter_eq_some_iff, find?_eq_some_iff valid]
  simp [Entry.isLive]

/-- Sweeping cannot be seen in what is live later. -/
theorem live?_sweep (valid : m.Valid) (later : now ≤ t) :
    (m.sweep now).live? t key = m.live? t key := by
  ext e
  rw [live?_eq_some_iff (valid_sweep valid), live?_eq_some_iff valid]
  simp only [sweep, List.mem_filter, Entry.isLive, decide_eq_true_eq]
  constructor
  · intro ⟨there, live⟩
    exact ⟨there.1, live⟩
  · intro ⟨there, live⟩
    exact ⟨⟨there, Nat.lt_of_le_of_lt later live⟩, live⟩

/-- So cannot the counting of writes. -/
theorem live?_noteWrite (valid : m.Valid) (later : now ≤ t) :
    (m.noteWrite now).live? t key = m.live? t key := by
  unfold noteWrite
  dsimp only
  split
  · exact live?_sweep valid later
  · rfl

theorem live?_put (valid : m.Valid) : (m.put k e).live? t key =
    if key = k then (some e).filter fun e => t < e.expiresAt else m.live? t key := by
  ext e'
  rw [live?_eq_some_iff (valid_put valid)]
  by_cases same : key = k
  · subst same
    rw [if_pos rfl, Option.filter_eq_some_iff]
    simp only [put, List.mem_cons, Prod.mk.injEq, true_and, List.mem_filter, Option.some.injEq,
      decide_eq_true_eq]
    grind
  · simp [put, same, live?_eq_some_iff valid]

theorem live?_delete (valid : m.Valid) :
    (m.delete now k).2.live? t key = if key = k then none else m.live? t key := by
  ext e
  rw [live?_eq_some_iff (delete_spec valid now k).2.1]
  by_cases same : key = k
  · simp [delete, same]
  · simp [delete, same, live?_eq_some_iff valid]

/-! ### Counters -/

/-- Adding one to a text that is no number. -/
theorem increment_of_not_counter {window : Span} (counter : m.counter now key window = .ok e)
    (unread : Integer.uint64? e.value = none) : m.increment now key window =
      .ok (.error (.protocol ("value at " ++ key ++ " is not a counter")), m.put key e) := by
  simp only [increment, counter, bind, Except.bind, unread]
  rfl

/-- Adding one to a number that is not the largest. -/
theorem increment_of_counter {window : Span} {n : UInt64} (counter : m.counter now key window = .ok e)
    (read : Integer.uint64? e.value = some n) (below : n.toNat + 1 < 2 ^ 64) :
    m.increment now key window =
      .ok (.ok (n + 1), (m.put key ⟨toString (n.toNat + 1), e.expiresAt⟩).noteWrite now) := by
  have next : (n + 1).toNat = n.toNat + 1 := by
    rw [UInt64.toNat_add, UInt64.toNat_one, Nat.mod_eq_of_lt below]
  simp only [increment, counter, bind, Except.bind, read, if_pos below, next]
  rfl

/-! ### What a cache shows -/

/-- From an instant on a cache in memory shows what a plain map shows. -/
structure Shows (m : Memory) (now : Instant) (p : PlainMap) : Prop where
  valid : m.Valid
  live : ∀ t key, now ≤ t → m.live? t key = p.present? t key

/-- What is asked is answered as by a plain map, and the cache then shows what that does. -/
def AnswersLike (m : Memory) (now : Instant) (p : PlainMap) (a : Ask) : Prop :=
  ∃ m', m.ask now a = .ok ((p.ask now a).1, m') ∧ m'.Shows now (p.ask now a).2

theorem AnswersLike.of {a : Ask} {answer : a.Answer} {m' : Memory} {p' : PlainMap}
    (answered : m.ask now a = .ok (answer, m')) (same : p.ask now a = (answer, p'))
    (shows : m'.Shows now p') : m.AnswersLike now p a := by
  refine ⟨m', ?_, ?_⟩
  · rw [answered, same]
  · rw [same]
    exact shows

theorem shows_empty (sweepEvery : Nat) : (empty sweepEvery).Shows now ∅ where
  valid := valid_empty sweepEvery
  live t key _ := by
    rw [PlainMap.present?_empty]
    rfl

namespace Shows

theorem atOnce (shows : m.Shows now p) : m.live? now key = p.present? now key :=
  shows.live now key (Nat.le_refl _)

theorem later (shows : m.Shows now p) (le : now ≤ t) : m.Shows t p where
  valid := shows.valid
  live t' key later := shows.live t' key (Nat.le_trans le later)

theorem sweep (shows : m.Shows now p) : (m.sweep now).Shows now p where
  valid := valid_sweep shows.valid
  live t key later := by rw [live?_sweep shows.valid later, shows.live t key later]

theorem noteWrite (shows : m.Shows now p) : (m.noteWrite now).Shows now p where
  valid := valid_noteWrite shows.valid
  live t key later := by rw [live?_noteWrite shows.valid later, shows.live t key later]

theorem put (shows : m.Shows now p) : (m.put key e).Shows now (p.insert key e) where
  valid := valid_put shows.valid
  live t k later := by
    rw [live?_put shows.valid, PlainMap.present?_insert, shows.live t k later]

/-- Putting back what is live changes nothing. -/
theorem putBack (shows : m.Shows now p) (live : m.live? now key = some e) :
    (m.put key e).Shows now p where
  valid := valid_put shows.valid
  live t k later := by
    rw [live?_put shows.valid, ← shows.live t k later]
    by_cases same : k = key
    · subst same
      have found := (Option.filter_eq_some_iff.mp live).1
      rw [if_pos rfl, live?, found]
      rfl
    · rw [if_neg same]

theorem delete (shows : m.Shows now p) : (m.delete now key).2.Shows now (p.erase key) where
  valid := (delete_spec shows.valid now key).2.1
  live t k later := by
    rw [live?_delete shows.valid, PlainMap.present?_erase, shows.live t k later]

theorem size (shows : m.Shows now p) : m.size now = (p.presentKeys now).card := by
  have distinct : ((m.sweep now).entries.map Prod.fst).Nodup := valid_sweep shows.valid
  have keys : ((m.sweep now).entries.map Prod.fst).toFinset = p.presentKeys now := by
    ext key
    rw [List.mem_toFinset, PlainMap.mem_presentKeys, ← shows.atOnce, live?_isSome_iff shows.valid, Holds]
    simp [Memory.sweep, Entry.isLive]
  rw [← keys, List.toFinset_card_of_nodup distinct, List.length_map]
  rfl

/-! ### Calls -/

/-- A new entry is what a plain map makes. -/
theorem new?_eq_made {value : String} {ttl : Span} (lasts : PlainMap.Lasts now ttl) :
    Entry.new? now value ttl = some (PlainMap.made now value ttl) := by
  obtain ⟨last, inRange⟩ := Option.isSome_iff_exists.mp lasts
  have made : Entry.new? now value ttl = some ⟨value, last⟩ := by
    rw [Entry.new?, Span.lifetimeSecs, Nat.max_comm, inRange]
    rfl
  have ends := expiresAt_of_new? made
  rw [Span.lifetimeSecs, Nat.max_comm] at ends
  rw [made, PlainMap.made, ← ends]

variable {value : String} {ttl window : Span}

theorem setIfAbsent (shows : m.Shows now p) (fits : p.Fits now (.call (.setIfAbsent key value ttl))) :
    m.AnswersLike now p (.call (.setIfAbsent key value ttl)) := by
  cases present : p.present? now key with
  | some e =>
      have kept : m.ask now (.call (.setIfAbsent key value ttl)) = .ok (.ok false, m.noteWrite now) := by
        simp [Memory.ask, perform, Memory.setIfAbsent, shows.atOnce, present]
      have same : p.ask now (.call (.setIfAbsent key value ttl)) = (.ok false, p) := by
        simp [PlainMap.ask, PlainMap.perform, present]
      exact .of kept same shows.noteWrite
  | none =>
      let e := PlainMap.made now value ttl
      have made : Entry.new? now value ttl = some e := new?_eq_made (fits present)
      have stored : m.ask now (.call (.setIfAbsent key value ttl)) =
          .ok (.ok true, (m.put key e).noteWrite now) := by
        simp [Memory.ask, perform, Memory.setIfAbsent, shows.atOnce, present, made]
      have same : p.ask now (.call (.setIfAbsent key value ttl)) = (.ok true, p.insert key e) := by
        simp [PlainMap.ask, PlainMap.perform, present, e]
      exact .of stored same shows.put.noteWrite

theorem increment (shows : m.Shows now p) (fits : p.Fits now (.call (.increment key window))) :
    m.AnswersLike now p (.call (.increment key window)) := by
  cases present : p.present? now key with
  | none =>
      have lasts : PlainMap.Lasts now window := by simpa [PlainMap.Fits, present] using fits
      have counter : m.counter now key window = .ok (PlainMap.made now "0" window) := by
        simp [Memory.counter, shows.atOnce, present, new?_eq_made lasts]
      have zero : Integer.uint64? (PlainMap.made now "0" window).value = some 0 := by
        change Integer.uint64? "0" = some 0
        decide
      have counted : m.ask now (.call (.increment key window)) =
          .ok (.ok 1, (m.put key (PlainMap.made now "1" window)).noteWrite now) :=
        increment_of_counter counter zero (by decide)
      have same : p.ask now (.call (.increment key window)) =
          (.ok 1, p.insert key (PlainMap.made now "1" window)) := by
        simp [PlainMap.ask, PlainMap.perform, present]
      exact .of counted same shows.put.noteWrite
  | some e =>
      have live : m.live? now key = some e := by rw [shows.atOnce, present]
      have counter : m.counter now key window = .ok e := by simp [Memory.counter, live]
      cases read : Integer.uint64? e.value with
      | none =>
          have refused : m.ask now (.call (.increment key window)) =
              .ok (.error (.protocol ("value at " ++ key ++ " is not a counter")), m.put key e) :=
            increment_of_not_counter counter read
          have same : p.ask now (.call (.increment key window)) =
              (.error (.protocol ("value at " ++ key ++ " is not a counter")), p) := by
            simp [PlainMap.ask, PlainMap.perform, present, read]
          exact .of refused same (shows.putBack live)
      | some n =>
          have below : n.toNat + 1 < 2 ^ 64 := by
            simp only [PlainMap.Fits, present] at fits
            exact fits n read
          have counted : m.ask now (.call (.increment key window)) = .ok (.ok (n + 1),
              (m.put key ⟨toString (n.toNat + 1), e.expiresAt⟩).noteWrite now) :=
            increment_of_counter counter read below
          have same : p.ask now (.call (.increment key window)) =
              (.ok (n + 1), p.insert key ⟨toString (n.toNat + 1), e.expiresAt⟩) := by
            simp [PlainMap.ask, PlainMap.perform, present, read]
          exact .of counted same shows.put.noteWrite

/-- Whatever is asked, as long as it stays in range, is answered as by the plain map. -/
theorem ask {a : Ask} (shows : m.Shows now p) (fits : p.Fits now a) : m.AnswersLike now p a := by
  cases a with
  | size => exact ⟨m, by simp [Memory.ask, PlainMap.ask, shows.size], shows⟩
  | call r =>
      cases r with
      | get key => exact .of rfl (by simp [PlainMap.ask, PlainMap.perform, shows.atOnce]) shows
      | contains key => exact .of rfl (by simp [PlainMap.ask, PlainMap.perform, shows.atOnce]) shows
      | delete key =>
          exact .of rfl (by simp [PlainMap.ask, PlainMap.perform, shows.atOnce]) shows.delete
      | setIfAbsent key value ttl => exact shows.setIfAbsent fits
      | increment key window => exact shows.increment fits
      | ping => exact ⟨m, rfl, shows⟩

/-! ### Runs -/

/-- In a run each answer is that of the plain map. -/
theorem run {uses : List (Instant × Use)} (shows : m.Shows now p)
    (ordered : Instant.InOrder (now :: uses.map Prod.fst)) (fits : p.FitsAll (asked uses)) :
    ∃ m', m.run uses = .ok (p.answers (asked uses), m') := by
  induction uses generalizing m now p with
  | nil => exact ⟨m, rfl⟩
  | cons use uses ih =>
      obtain ⟨time, use⟩ := use
      have later : now ≤ time := (List.pairwise_cons.mp ordered).1 time (List.mem_cons_self ..)
      replace ordered : Instant.InOrder (time :: uses.map Prod.fst) := (List.pairwise_cons.mp ordered).2
      cases use with
      | purge => exact ih (shows.later later).sweep ordered fits
      | ask a =>
          obtain ⟨m₁, answered, shows₁⟩ := (shows.later later).ask fits.1
          obtain ⟨m₂, rest⟩ := ih shows₁ ordered fits.2
          refine ⟨m₂, ?_⟩
          simp [Memory.run, answered, rest, bind, Except.bind]
          rfl

end Shows

/-- A new cache in memory answers as a plain map with nothing in it. -/
theorem answers_empty (sweepEvery : Nat) {uses : List (Instant × Use)}
    (ordered : Instant.InOrder (uses.map Prod.fst)) (fits : PlainMap.FitsAll ∅ (asked uses)) :
    (empty sweepEvery).answers uses = .ok (PlainMap.answers ∅ (asked uses)) := by
  have started : Instant.InOrder (Instant.start :: uses.map Prod.fst) :=
    List.pairwise_cons.mpr ⟨fun t _ => Nat.zero_le t.nanoseconds, ordered⟩
  obtain ⟨m, ran⟩ := (shows_empty sweepEvery).run started fits
  simp [answers, ran, Except.map]

/-- A new cache in memory, used at times in order, answers all that it is asked as a plain map does, if
that stays in range; and so it answers like any other that is asked the same, however often either of
them is swept. -/
theorem answers_plain (sweepEvery : Nat) {uses : List (Instant × Use)}
    (ordered : Instant.InOrder (uses.map Prod.fst)) (fits : PlainMap.FitsAll ∅ (asked uses)) :
    (empty sweepEvery).answers uses = .ok (PlainMap.answers ∅ (asked uses)) ∧
      ∀ (sweepEvery' : Nat) (uses' : List (Instant × Use)), Instant.InOrder (uses'.map Prod.fst) →
        asked uses' = asked uses → (empty sweepEvery').answers uses' = (empty sweepEvery).answers uses := by
  refine ⟨answers_empty sweepEvery ordered fits, ?_⟩
  intro sweepEvery' uses' ordered' same
  have fits' : PlainMap.FitsAll ∅ (asked uses') := by rwa [same]
  rw [answers_empty sweepEvery ordered fits, answers_empty sweepEvery' ordered' fits', same]

end Memory

end TokenAuthority.Cache

/-! ### A text that comes to its end -/

namespace TokenAuthority.Sample

open Cache.Memory

/-- A text of one and a half seconds is counted on, ends after one, is made again and cannot be counted
on then. -/
def visits : List (Instant × Use) :=
  let second (n : Nat) : Instant := Instant.start.after (Span.ofSecs n)
  [(second 0, .ask (.call (.setIfAbsent "a" "7" (Span.ofMillis 1500)))),
   (second 0, .ask (.call (.increment "a" (Span.ofSecs 60)))),
   (second 1, .ask .size),
   (second 1, .ask (.call (.setIfAbsent "a" "x" (Span.ofSecs 5)))),
   (second 2, .purge),
   (second 2, .ask (.call (.increment "a" (Span.ofSecs 60)))),
   (second 6, .ask (.call (.delete "a")))]

/-- A cache that sweeps after every write answers as the plain map, and as one that is never swept. -/
theorem answers_visits : Instant.InOrder (visits.map Prod.fst) ∧ Cache.PlainMap.FitsAll ∅ (asked visits) ∧
    (empty 1).answers visits = .ok (Cache.PlainMap.answers ∅ (asked visits)) ∧
    (empty).answers (visits.eraseIdx 4) = (empty 1).answers visits := by
  have ordered : Instant.InOrder (visits.map Prod.fst) := by decide
  have fits : Cache.PlainMap.FitsAll ∅ (asked visits) := by decide +kernel
  obtain ⟨plain, alike⟩ := answers_plain 1 ordered fits
  exact ⟨ordered, fits, plain, alike _ (visits.eraseIdx 4) (by decide) rfl⟩

end TokenAuthority.Sample
