import TokenAuthority.Cache.Scripted
import TokenAuthority.Proofs.Cache.Contract

/-!
# The cache in memory as a map

What a cache in memory holds under a key at a time, and what each call does to that. Sweeping and the
dropping of entries whose time is over cannot be seen.

* `Memory.Valid` — no key has two entries. All calls keep this.
* `Memory.Holds` — there is a live text under a key at a time.
* `Memory.honoursTime`, `Scripted.honoursTime` — a cache in memory keeps texts for their time, also
  behind a script of failures and delays.
-/

namespace TokenAuthority.Cache

namespace Memory

/-- No key has two entries. -/
def Valid (m : Memory) : Prop := (m.entries.map Prod.fst).Nodup

/-- There is a text under a key whose time is not over at an instant. -/
def Holds (m : Memory) (t : Instant) (key : String) : Prop := ∃ e, (key, e) ∈ m.entries ∧ t < e.expiresAt

theorem valid_empty (sweepEvery : Nat) : (empty sweepEvery).Valid := List.nodup_nil

theorem not_holds_empty (sweepEvery : Nat) (t : Instant) (key : String) :
    ¬ (empty sweepEvery).Holds t key := by
  rintro ⟨e, none, _⟩
  exact (List.not_mem_nil none).elim

variable {m : Memory} {now t : Instant} {key : String}

/-- The entry under a key is the one that is there. -/
theorem find?_eq_some_iff (valid : m.Valid) {e : Entry} :
    m.find? key = some e ↔ (key, e) ∈ m.entries := by
  obtain ⟨entries, writes, sweepEvery⟩ := m
  simp only [find?, Valid] at valid ⊢
  induction entries with
  | nil => simp
  | cons first entries ih =>
      obtain ⟨k, e'⟩ := first
      have rest := List.nodup_cons.mp valid
      by_cases same : k = key
      · subst same
        have none (e : Entry) : (k, e) ∉ entries := fun there =>
          rest.1 (List.mem_map.mpr ⟨_, there, rfl⟩)
        simp [none, eq_comm]
      · simp [same, ih rest.2, Ne.symm same]

/-- A live entry is what makes a cache hold a text. -/
theorem live?_isSome_iff (valid : m.Valid) : (m.live? now key).isSome = true ↔ m.Holds now key := by
  rw [live?, Option.isSome_iff_exists]
  constructor
  · rintro ⟨e, live⟩
    obtain ⟨found, live⟩ := Option.filter_eq_some_iff.mp live
    exact ⟨e, (find?_eq_some_iff valid).mp found, of_decide_eq_true live⟩
  · rintro ⟨e, there, live⟩
    exact ⟨e, Option.filter_eq_some_iff.mpr
      ⟨(find?_eq_some_iff valid).mpr there, decide_eq_true live⟩⟩

/-! ### Sweeps -/

theorem valid_sweep (valid : m.Valid) : (m.sweep now).Valid :=
  List.Nodup.sublist (List.Sublist.map _ List.filter_sublist) valid

/-- A sweep drops only what is not held any more. -/
theorem holds_sweep (later : now ≤ t) : (m.sweep now).Holds t key ↔ m.Holds t key := by
  constructor
  · rintro ⟨e, there, live⟩
    exact ⟨e, (List.mem_filter.mp there).1, live⟩
  · rintro ⟨e, there, live⟩
    exact ⟨e, List.mem_filter.mpr ⟨there, decide_eq_true (Nat.lt_of_le_of_lt later live)⟩, live⟩

theorem valid_noteWrite (valid : m.Valid) : (m.noteWrite now).Valid := by
  unfold noteWrite
  dsimp only
  split
  · exact valid_sweep valid
  · exact valid

/-- Counting a write cannot be seen. -/
theorem holds_noteWrite (later : now ≤ t) : (m.noteWrite now).Holds t key ↔ m.Holds t key := by
  unfold noteWrite
  dsimp only
  split
  · exact holds_sweep later
  · exact Iff.rfl

/-! ### Entries put and removed -/

theorem holds_filter {k : String} : (∃ e, (key, e) ∈ m.entries.filter (·.1 ≠ k) ∧ t < e.expiresAt) ↔
    key ≠ k ∧ m.Holds t key := by
  simp only [Holds, List.mem_filter, decide_eq_true_eq]
  constructor
  · rintro ⟨e, ⟨there, other⟩, live⟩
    exact ⟨other, e, there, live⟩
  · rintro ⟨other, e, there, live⟩
    exact ⟨e, ⟨there, other⟩, live⟩

theorem valid_put {e : Entry} (valid : m.Valid) : (m.put key e).Valid := by
  refine List.nodup_cons.mpr ⟨?_, List.Nodup.sublist (List.Sublist.map _ List.filter_sublist) valid⟩
  rw [List.mem_map]
  rintro ⟨entry, there, same⟩
  exact of_decide_eq_true (List.mem_filter.mp there).2 same

/-- What is held once an entry has been put under a key. -/
theorem holds_put {k : String} {e : Entry} :
    (m.put k e).Holds t key ↔ if key = k then t < e.expiresAt else m.Holds t key := by
  have split : (m.put k e).Holds t key ↔ key = k ∧ t < e.expiresAt ∨ key ≠ k ∧ m.Holds t key := by
    rw [← holds_filter]
    simp only [Holds, put, List.mem_cons, Prod.mk.injEq]
    constructor
    · rintro ⟨e', ⟨rfl, rfl⟩ | there, live⟩
      · exact .inl ⟨rfl, live⟩
      · exact .inr ⟨e', there, live⟩
    · rintro (⟨rfl, live⟩ | ⟨e', there, live⟩)
      · exact ⟨e, .inl ⟨rfl, rfl⟩, live⟩
      · exact ⟨e', .inr there, live⟩
  rw [split]
  by_cases same : key = k
  · simp [same]
  · simp [same]

/-! ### Calls -/

/-- A new entry is live for its time. -/
theorem expiresAt_of_new? {value : String} {ttl : Span} {e : Entry}
    (made : Entry.new? now value ttl = some e) :
    e.expiresAt = now.after (Span.ofSecs ttl.lifetimeSecs) := by
  obtain ⟨end_, inRange, rfl⟩ := Option.map_eq_some_iff.mp made
  unfold Instant.after? at inRange
  split at inRange
  · cases inRange
    rfl
  · cases inRange

/-- Storing where nothing is held: the text is held from then on for its time. -/
theorem setIfAbsent_of_not_holds {value : String} {ttl : Span} {r : Bool × Memory} (valid : m.Valid)
    (absent : ¬ m.Holds now key) (done : m.setIfAbsent now key value ttl = .ok r) :
    r.1 = true ∧ r.2.Valid ∧ ∀ k t, now ≤ t → (r.2.Holds t k ↔
      if k = key then t < now.after (Span.ofSecs ttl.lifetimeSecs) else m.Holds t k) := by
  unfold setIfAbsent at done
  split at done
  · rename_i e live
    exact absurd ((live?_isSome_iff valid).mp (by rw [live]; rfl)) absent
  · split at done
    · rename_i e made
      cases done
      refine ⟨rfl, valid_noteWrite (valid_put valid), fun k t later => ?_⟩
      rw [holds_noteWrite later, holds_put, expiresAt_of_new? made]
    · cases done

/-- Storing where something is live is counted, and changes nothing. -/
theorem setIfAbsent_of_live {value : String} {ttl : Span} {e : Entry} (live : m.live? now key = some e) :
    m.setIfAbsent now key value ttl = .ok (false, m.noteWrite now) := by
  rw [setIfAbsent, live]

theorem setIfAbsent_of_holds {value : String} {ttl : Span} (valid : m.Valid)
    (present : m.Holds now key) :
    m.setIfAbsent now key value ttl = .ok (false, m.noteWrite now) := by
  obtain ⟨e, live⟩ := Option.isSome_iff_exists.mp ((live?_isSome_iff valid).mpr present)
  exact setIfAbsent_of_live live

/-- A call to store answers with what storing does. -/
theorem exists_setIfAbsent_of_perform {value : String} {ttl : Span}
    {a : (Request.setIfAbsent key value ttl).Answer} {m' : Memory}
    (done : m.perform now (.setIfAbsent key value ttl) = .ok (a, m')) :
    ∃ stored, a = .ok stored ∧ m.setIfAbsent now key value ttl = .ok (stored, m') := by
  change (m.setIfAbsent now key value ttl >>= fun r => pure (Except.ok r.1, r.2)) = _ at done
  cases stores : m.setIfAbsent now key value ttl with
  | error f =>
      rw [stores] at done
      cases done
  | ok r =>
      rw [stores] at done
      cases done
      exact ⟨r.1, rfl, rfl⟩

theorem setIfAbsent_of_perform {value : String} {ttl : Span} {stored : Bool} {m' : Memory}
    (done : m.perform now (.setIfAbsent key value ttl) = .ok (.ok stored, m')) :
    m.setIfAbsent now key value ttl = .ok (stored, m') := by
  obtain ⟨_, same, stores⟩ := exists_setIfAbsent_of_perform done
  cases same
  exact stores

/-- What is held at an instant was held before, once it was there. -/
theorem Holds.mono (holds : m.Holds t key) (le : now ≤ t) : m.Holds now key := by
  obtain ⟨e, there, live⟩ := holds
  exact ⟨e, there, Nat.lt_of_le_of_lt le live⟩

/-- Deleting answers whether something was held, and leaves the other keys. -/
theorem delete_spec (valid : m.Valid) (now : Instant) (key : String) :
    ((m.delete now key).1 = true ↔ m.Holds now key) ∧ (m.delete now key).2.Valid ∧
      ∀ k t, (m.delete now key).2.Holds t k ↔ k ≠ key ∧ m.Holds t k :=
  ⟨live?_isSome_iff valid, List.Nodup.sublist (List.Sublist.map _ List.filter_sublist) valid,
    fun _ _ => holds_filter⟩

/-- Counting puts an entry under its key, be it the one that was there. -/
theorem put_of_increment {window : Span} {r : Except Error UInt64 × Memory}
    (done : m.increment now key window = .ok r) :
    ∃ e, r.2 = m.put key e ∨ r.2 = (m.put key e).noteWrite now := by
  unfold increment at done
  cases counter : m.counter now key window with
  | error f =>
      rw [counter] at done
      cases done
  | ok e =>
      rw [counter] at done
      simp only [bind, Except.bind] at done
      split at done
      · cases done
        exact ⟨_, .inl rfl⟩
      · split at done
        · cases done
          exact ⟨_, .inr rfl⟩
        · cases done

theorem increment_spec {window : Span} {r : Except Error UInt64 × Memory} (valid : m.Valid)
    (done : m.increment now key window = .ok r) :
    r.2.Valid ∧ ∀ k t, k ≠ key → now ≤ t → (r.2.Holds t k ↔ m.Holds t k) := by
  obtain ⟨e, same | same⟩ := put_of_increment done
  · rw [same]
    exact ⟨valid_put valid, fun k t other _ => by rw [holds_put, if_neg other]⟩
  · rw [same]
    refine ⟨valid_noteWrite (valid_put valid), fun k t other later => ?_⟩
    rw [holds_noteWrite later, holds_put, if_neg other]

/-- A call acts as its caller relies on. -/
theorem perform_acts {r : Request} {a : r.Answer} {m' : Memory} (valid : m.Valid)
    (done : m.perform now r = .ok (a, m')) : m'.Valid ∧ Acts Holds now m r a m' := by
  cases r with
  | get key =>
      cases done
      exact ⟨valid, .got fun k t _ => Iff.rfl⟩
  | contains key =>
      cases done
      refine ⟨valid, .looked (fun k t _ => Iff.rfl) fun found same => ?_⟩
      cases same
      exact live?_isSome_iff valid
  | ping =>
      cases done
      exact ⟨valid, .answered fun k t _ => Iff.rfl⟩
  | delete key =>
      cases done
      obtain ⟨_, valid', held⟩ := delete_spec valid now key
      refine ⟨valid', .deleted fun k other t _ => ?_⟩
      exact (held k t).trans ⟨fun both => both.2, fun there => ⟨other, there⟩⟩
  | increment key window =>
      have spec := increment_spec valid done
      exact ⟨spec.1, .counted fun k other t later => spec.2 k t other later⟩
  | setIfAbsent key value ttl =>
      obtain ⟨stored, rfl, stores⟩ := exists_setIfAbsent_of_perform done
      by_cases present : m.Holds now key
      · rw [setIfAbsent_of_holds valid present] at stores
        cases stores
        refine ⟨valid_noteWrite valid, .kept (fun k t later => holds_noteWrite later) ?_ ?_⟩
        · exact fun impossible => by cases impossible
        · exact fun _ => present
      · obtain ⟨new, valid', held⟩ := setIfAbsent_of_not_holds valid present stores
        refine ⟨valid', .stored (fun k other t later => ?_) present ?_ fun t later early => ?_⟩
        · rw [held k t later, if_neg other]
        · intro same
          cases same
          cases new
        · rw [held key t later, if_pos rfl]
          exact early

theorem honoursTime : backend.HonoursTime Valid Holds where
  starts r now m valid := ⟨valid, fun t key => Iff.rfl⟩
  finishes begun valid done := by
    cases begun
    exact perform_acts valid done

end Memory

namespace Scripted

/-- Behind a script a call acts as it would on the memory. -/
theorem acts_of_memory {now : Instant} {c : Scripted} {m : Memory} {r : Request} {a : r.Answer}
    (acts : Acts Memory.Holds now c.memory r a m) :
    Acts (fun c : Scripted => c.memory.Holds) now c r a { c with memory := m } := by
  cases acts with
  | looked alike finds => exact .looked alike finds
  | got alike => exact .got alike
  | answered alike => exact .answered alike
  | kept alike unstored there => exact .kept alike unstored there
  | stored others absent new lives => exact .stored others absent new lives
  | deleted others => exact .deleted others
  | counted others => exact .counted others

/-- A call that is passed on is one of the memory. -/
theorem exists_perform_of_passOn {now : Instant} {c c' : Scripted} {r : Request} {a : r.Answer}
    (done : passOn r now c = .ok (a, c')) :
    ∃ m, c.memory.perform now r = .ok (a, m) ∧ c' = { c with memory := m } := by
  change (c.memory.perform now r >>= fun r => pure (r.1, { c with memory := r.2 })) = _ at done
  cases performed : c.memory.perform now r with
  | error f =>
      rw [performed] at done
      cases done
  | ok answered =>
      rw [performed] at done
      cases done
      exact ⟨answered.2, rfl, rfl⟩

/-- A call that is passed on acts as its caller relies on. -/
theorem passOn_acts {now : Instant} {c c' : Scripted} {r : Request} {a : r.Answer}
    (valid : c.memory.Valid) (done : passOn r now c = .ok (a, c')) :
    c'.memory.Valid ∧ Acts (fun c : Scripted => c.memory.Holds) now c r a c' := by
  obtain ⟨m, performed, rfl⟩ := exists_perform_of_passOn done
  have spec := Memory.perform_acts valid performed
  exact ⟨spec.1, acts_of_memory spec.2⟩

theorem failed_acts {now : Instant} {c : Scripted} {r : Request} (e : Error) :
    Acts (fun c : Scripted => c.memory.Holds) now c r (.error e) c := by
  have alike (k : String) : Alike (fun c : Scripted => c.memory.Holds) now k c c :=
    fun t _ => Iff.rfl
  cases r with
  | get key => exact .got alike
  | setIfAbsent key value ttl =>
      exact .kept alike (fun impossible => by cases impossible) fun impossible => by cases impossible
  | contains key => exact .looked alike fun found impossible => by cases impossible
  | delete key => exact .deleted fun k _ => alike k
  | increment key window => exact .counted fun k _ => alike k
  | ping => exact .answered alike

/-- What a call does, once its act says so, is what its caller relies on. -/
theorem pending_acts {act : Act} {delay delay' : Option Span} {r : Request}
    {finish : Instant → Scripted → Except Fault (r.Answer × Scripted)} {now : Instant}
    {c c' : Scripted} {a : r.Answer} (begun : pending act delay r = .acts delay' finish)
    (valid : c.memory.Valid) (done : finish now c = .ok (a, c')) :
    c'.memory.Valid ∧ Acts (fun c : Scripted => c.memory.Holds) now c r a c' := by
  induction act generalizing delay with
  | pass =>
      cases begun
      exact passOn_acts valid done
  | fail e =>
      cases begun
      cases done
      exact ⟨valid, failed_acts e⟩
  | hang => cases begun
  | answer text =>
      cases r with
      | get key =>
          cases begun
          cases done
          exact ⟨valid, .got fun k t _ => Iff.rfl⟩
      | setIfAbsent key value ttl =>
          cases begun
          exact passOn_acts valid done
      | contains key =>
          cases begun
          exact passOn_acts valid done
      | delete key =>
          cases begun
          exact passOn_acts valid done
      | increment key window =>
          cases begun
          exact passOn_acts valid done
      | ping =>
          cases begun
          exact passOn_acts valid done
  | after s act ih => exact ih begun

/-- So does a cache in memory behind a script of failures and delays. -/
theorem honoursTime (name : String) : (backend name).HonoursTime (fun c => c.memory.Valid)
    (fun c => c.memory.Holds) where
  starts r now c valid := by
    obtain ⟨_ | ⟨act, script⟩, default, calls, memory⟩ := c
    · exact ⟨valid, fun t key => Iff.rfl⟩
    · exact ⟨valid, fun t key => Iff.rfl⟩
  finishes begun valid done := pending_acts begun valid done

end Scripted

end TokenAuthority.Cache
