import TokenAuthority.Cache.Basic

/-!
# Caches that keep texts for their time

What a caller of a cache relies on, whatever the cache is and however late or often it fails: a text is
stored only where there is none, in one step, and then stays for its time; looking changes nothing; and
no call touches any key but its own.

* `Cache.Acts` — what a call may do to what a cache holds, and what it may answer then.
* `Cache.Backend.HonoursTime` — all calls of a cache act like this.
* `Cache.Backend.AnswersTruly` — less than that: a call that is not answered may have acted all the same.
  `HonoursTime.answersTruly` — it is less.
-/

namespace TokenAuthority.Cache

variable {σ : Type}

/-- From an instant on two states hold the same under a key, if nothing more is done to them. -/
def Alike (holds : σ → Instant → String → Prop) (now : Instant) (key : String) (c c' : σ) : Prop :=
  ∀ t, now ≤ t → (holds c' t key ↔ holds c t key)

theorem Alike.refl {holds : σ → Instant → String → Prop} {now : Instant} {key : String} (c : σ) :
    Alike holds now key c c :=
  fun _ _ => Iff.rfl

theorem Alike.trans {holds : σ → Instant → String → Prop} {now : Instant} {key : String}
    {c c' c'' : σ} (first : Alike holds now key c c') (second : Alike holds now key c' c'') :
    Alike holds now key c c'' :=
  fun t later => (second t later).trans (first t later)

theorem Alike.later {holds : σ → Instant → String → Prop} {now now' : Instant} {key : String}
    {c c' : σ} (alike : Alike holds now key c c') (le : now ≤ now') : Alike holds now' key c c' :=
  fun t later => alike t (Nat.le_trans le later)

/-- From an instant on there is nothing under a key, if nothing more is done. -/
def Lacks (holds : σ → Instant → String → Prop) (key : String) (now : Instant) (c : σ) : Prop :=
  ∀ t, now ≤ t → ¬ holds c t key

theorem Lacks.alike {holds : σ → Instant → String → Prop} {now : Instant} {key : String} {c c' : σ}
    (lacks : Lacks holds key now c) (alike : Alike holds now key c c') : Lacks holds key now c' :=
  fun t later there => lacks t later ((alike t later).mp there)

theorem Lacks.later {holds : σ → Instant → String → Prop} {now now' : Instant} {key : String} {c : σ}
    (lacks : Lacks holds key now c) (le : now ≤ now') : Lacks holds key now' c :=
  fun t later => lacks t (Nat.le_trans le later)

/-- What a call that acts at an instant may answer and leave behind. Here `holds c t key` says that
there is a text under `key` at `t` if nothing more is done to `c` before. A call that stores a text may
have done so even if it answers an error. -/
inductive Acts (holds : σ → Instant → String → Prop) (now : Instant) (c : σ) :
    (r : Request) → r.Answer → σ → Prop where
  | looked {key : String} {a : Except Error Bool} {c' : σ} :
      (∀ k, Alike holds now k c c') → (∀ found, a = .ok found → (found = true ↔ holds c now key)) →
      Acts holds now c (.contains key) a c'
  | got {key : String} {a : Except Error (Option String)} {c' : σ} :
      (∀ k, Alike holds now k c c') → Acts holds now c (.get key) a c'
  | answered {a : Except Error Unit} {c' : σ} :
      (∀ k, Alike holds now k c c') → Acts holds now c .ping a c'
  | kept {key value : String} {ttl : Span} {a : Except Error Bool} {c' : σ} :
      (∀ k, Alike holds now k c c') → a ≠ .ok true → (a = .ok false → holds c now key) →
      Acts holds now c (.setIfAbsent key value ttl) a c'
  | stored {key value : String} {ttl : Span} {a : Except Error Bool} {c' : σ} :
      (∀ k, k ≠ key → Alike holds now k c c') → ¬ holds c now key → a ≠ .ok false →
      (∀ t, now ≤ t → t < now.after (Span.ofSecs ttl.lifetimeSecs) → holds c' t key) →
      Acts holds now c (.setIfAbsent key value ttl) a c'
  | deleted {key : String} {a : Except Error Bool} {c' : σ} :
      (∀ k, k ≠ key → Alike holds now k c c') → Acts holds now c (.delete key) a c'
  | counted {key : String} {window : Span} {a : Except Error UInt64} {c' : σ} :
      (∀ k, k ≠ key → Alike holds now k c c') → Acts holds now c (.increment key window) a c'

/-- A cache keeps texts for their time. Its states are those that are `valid`. -/
structure Backend.HonoursTime (backend : Backend σ) (valid : σ → Prop)
    (holds : σ → Instant → String → Prop) : Prop where
  starts : ∀ r now c, valid c → valid (backend.start r now c).1 ∧
    ∀ t key, holds (backend.start r now c).1 t key ↔ holds c t key
  finishes : ∀ {r started before delay finish now c a c'},
    (backend.start r started before).2 = .acts delay finish → valid c → finish now c = .ok (a, c') →
      valid c' ∧ Acts holds now c r a c'

/-- The request may change what is held under a key. -/
def Request.Writes (key : String) : Request → Prop
  | .setIfAbsent k _ _ => k = key
  | .delete k => k = key
  | .increment k _ => k = key
  | _ => False

/-- A call that does not write under a key leaves alone what is held there. -/
theorem Acts.alike {holds : σ → Instant → String → Prop} {now : Instant} {c c' : σ} {r : Request}
    {a : r.Answer} {key : String} (acts : Acts holds now c r a c') (spares : ¬ r.Writes key) :
    Alike holds now key c c' := by
  cases acts with
  | looked alike _ => exact alike key
  | got alike => exact alike key
  | answered alike => exact alike key
  | kept alike _ _ => exact alike key
  | stored others _ _ _ => exact others key fun same => spares same.symm
  | deleted others => exact others key fun same => spares same.symm
  | counted others => exact others key fun same => spares same.symm

/-- A call that is told that there is a text already changes nothing. -/
theorem Acts.alike_of_refused {holds : σ → Instant → String → Prop} {now : Instant} {c c' : σ}
    {key value : String} {ttl : Span} (acts : Acts holds now c (.setIfAbsent key value ttl) (.ok false) c')
    (k : String) : Alike holds now k c c' := by
  cases acts with
  | kept alike _ _ => exact alike k
  | stored _ _ told _ => exact absurd rfl told

/-- What a cache answers is true. A call may act when it starts, when it ends, or both, and so also if
it fails or is given up; but it touches no other key. One that is refused has not acted at all, and found
something when it started or when it ended. -/
structure Backend.AnswersTruly (backend : Backend σ) (valid : σ → Prop)
    (holds : σ → Instant → String → Prop) : Prop where
  starts : ∀ r now c, valid c → valid (backend.start r now c).1 ∧
    ∀ key, ¬ r.Writes key → Alike holds now key c (backend.start r now c).1
  finishes : ∀ {r started before delay finish now c a c'},
    (backend.start r started before).2 = .acts delay finish → valid c → finish now c = .ok (a, c') →
      valid c' ∧ ∀ key, ¬ r.Writes key → Alike holds now key c c'
  finds : ∀ {key started before delay finish now c c'},
    (backend.start (.contains key) started before).2 = .acts delay finish → valid before → valid c →
      finish now c = .ok (.ok true, c') → holds before started key ∨ holds c now key
  refuses : ∀ {key value ttl started before delay finish now c c'},
    (backend.start (.setIfAbsent key value ttl) started before).2 = .acts delay finish →
      valid before → valid c → finish now c = .ok (.ok false, c') →
      Alike holds started key before (backend.start (.setIfAbsent key value ttl) started before).1 ∧
        (holds before started key ∨ holds c now key)

/-- A cache that keeps texts for their time answers truly. -/
theorem Backend.HonoursTime.answersTruly {backend : Backend σ} {valid : σ → Prop}
    {holds : σ → Instant → String → Prop} (honours : backend.HonoursTime valid holds) :
    backend.AnswersTruly valid holds where
  starts r now c fine := by
    obtain ⟨fine', same⟩ := honours.starts r now c fine
    exact ⟨fine', fun key _ t _ => same t key⟩
  finishes acts fine finished := by
    obtain ⟨fine', acted⟩ := honours.finishes acts fine finished
    exact ⟨fine', fun key spares => acted.alike spares⟩
  finds acts _ fine finished := by
    cases (honours.finishes acts fine finished).2 with
    | looked _ finds => exact .inr ((finds true rfl).mp rfl)
  refuses acts before fine finished := by
    refine ⟨fun t _ => (honours.starts _ _ _ before).2 t _, .inr ?_⟩
    cases (honours.finishes acts fine finished).2 with
    | kept _ _ there => exact there rfl
    | stored _ _ told _ => exact absurd rfl told

end TokenAuthority.Cache
