import TokenAuthority.Proofs.Cache.PlainMap

/-!
# How many entries a cache in memory has

An entry whose time is over stays until it is written over, deleted or swept. A cache sweeps itself each time
it has completed so many writes, so between two such sweeps it gains fewer entries than that.

* `Memory.use` — what a use leaves behind, and whether it has completed a write.
* `Memory.Moves` — how a use changes the number of entries.
* `Watched` — a cache with the writes that it has completed and what its latest sweep has left.
* `Watched.run_bounded` — the entries of a cache after all uses of it.
-/

namespace TokenAuthority.Cache

/-- Whether an answer says that a write was completed. -/
def Ask.completesWrite : (a : Ask) → a.Answer → Bool
  | .call (.setIfAbsent ..), .ok _ => true
  | .call (.increment ..), .ok _ => true
  | _, _ => false

namespace Memory

/-- Whether a use completes a write, and what it leaves behind. A use that ends in a fault leaves the cache as it
was. -/
def use (m : Memory) (now : Instant) : Use → Bool × Memory
  | .purge => (false, (m.purge now).2)
  | .ask a =>
    match m.ask now a with
    | .ok (answer, m') => (a.completesWrite answer, m')
    | .error _ => (false, m)

variable {m : Memory} {now : Instant} {key : String} {e : Entry}

/-! ### One use -/

/-- A cache gains so many entries at most, and no write is counted. -/
structure Gains (count : Nat) (m m' : Memory) : Prop where
  valid : m'.Valid
  length : m'.entries.length ≤ m.entries.length + count
  writes : m'.writes = m.writes
  sweepEvery : m'.sweepEvery = m.sweepEvery

/-- How a use changes the number of entries: it completes a write, which adds one entry at most before it is
counted, or it adds none. -/
inductive Moves (m : Memory) (now : Instant) : Bool × Memory → Prop where
  | quiet {m' : Memory} : Gains 0 m m' → Moves m now (false, m')
  | written {m' : Memory} : Gains 1 m m' → Moves m now (true, m'.noteWrite now)

theorem Gains.none (valid : m.Valid) : Gains 0 m m := ⟨valid, Nat.le_refl _, rfl, rfl⟩

theorem Gains.atMost {count : Nat} {m' : Memory} (gains : Gains 0 m m') : Gains count m m' :=
  ⟨gains.valid, Nat.le_trans gains.length (Nat.add_le_add_left (Nat.zero_le _) _), gains.writes, gains.sweepEvery⟩

theorem gains_sweep (valid : m.Valid) : Gains 0 m (m.sweep now) :=
  ⟨valid_sweep valid, List.length_filter_le .., rfl, rfl⟩

theorem gains_delete (valid : m.Valid) (now : Instant) (key : String) : Gains 0 m (m.delete now key).2 :=
  ⟨(delete_spec valid now key).2.1, List.length_filter_le .., rfl, rfl⟩

theorem gains_put (valid : m.Valid) : Gains 1 m (m.put key e) :=
  ⟨valid_put valid, Nat.succ_le_succ (List.length_filter_le ..), rfl, rfl⟩

/-- Where there is an entry, one that is put takes its place. -/
theorem gains_putBack (valid : m.Valid) {old : Entry} (live : m.live? now key = some old) :
    Gains 0 m (m.put key e) := by
  have there := ((live?_eq_some_iff valid).mp live).1
  have fewer : (m.entries.filter (·.1 ≠ key)).length < m.entries.length :=
    List.length_filter_lt_length_iff_exists.mpr ⟨_, there, by simp⟩
  exact ⟨valid_put valid, fewer, rfl, rfl⟩

theorem moves_setIfAbsent (valid : m.Valid) (value : String) (ttl : Span) :
    m.Moves now (m.use now (.ask (.call (.setIfAbsent key value ttl)))) := by
  cases live : m.live? now key with
  | some old =>
      have used : m.use now (.ask (.call (.setIfAbsent key value ttl))) = (true, m.noteWrite now) := by
        simp [use, ask, perform, setIfAbsent, live, Ask.completesWrite]
      rw [used]
      exact .written (Gains.none valid).atMost
  | none =>
      cases made : Entry.new? now value ttl with
      | none =>
          have used : m.use now (.ask (.call (.setIfAbsent key value ttl))) = (false, m) := by
            simp [use, ask, perform, setIfAbsent, live, made]
          rw [used]
          exact .quiet (.none valid)
      | some e =>
          have used : m.use now (.ask (.call (.setIfAbsent key value ttl))) =
              (true, (m.put key e).noteWrite now) := by
            simp [use, ask, perform, setIfAbsent, live, made, Ask.completesWrite]
          rw [used]
          exact .written (gains_put valid)

/-- A counter that is no number was there before, since a new one is a number. -/
theorem live?_of_counter {window : Span} (counter : m.counter now key window = .ok e)
    (unread : Integer.uint64? e.value = none) : m.live? now key = some e := by
  unfold Memory.counter at counter
  split at counter
  · cases counter
    assumption
  · split at counter
    · rename_i made
      cases counter
      obtain ⟨_, _, rfl⟩ := Option.map_eq_some_iff.mp made
      have zero : Integer.uint64? "0" = some 0 := by decide
      rw [zero] at unread
      cases unread
    · cases counter

theorem moves_increment (valid : m.Valid) (window : Span) :
    m.Moves now (m.use now (.ask (.call (.increment key window)))) := by
  cases counter : m.counter now key window with
  | error f =>
      have used : m.use now (.ask (.call (.increment key window))) = (false, m) := by
        simp [use, ask, perform, increment, counter, bind, Except.bind]
      rw [used]
      exact .quiet (.none valid)
  | ok e =>
      cases read : Integer.uint64? e.value with
      | none =>
          have used : m.use now (.ask (.call (.increment key window))) = (false, m.put key e) := by
            simp [use, ask, perform, increment_of_not_counter counter read, Ask.completesWrite]
          rw [used]
          exact .quiet (gains_putBack valid (live?_of_counter counter read))
      | some n =>
          by_cases below : n.toNat + 1 < 2 ^ 64
          · have used : m.use now (.ask (.call (.increment key window))) =
                (true, (m.put key ⟨toString (n.toNat + 1), e.expiresAt⟩).noteWrite now) := by
              simp [use, ask, perform, increment_of_counter counter read below, Ask.completesWrite]
            rw [used]
            exact .written (gains_put valid)
          · have used : m.use now (.ask (.call (.increment key window))) = (false, m) := by
              simp only [use, ask, perform, increment, counter, bind, Except.bind, read, if_neg below]
            rw [used]
            exact .quiet (.none valid)

theorem moves_use (valid : m.Valid) (now : Instant) (u : Use) : m.Moves now (m.use now u) := by
  cases u with
  | purge => exact .quiet (gains_sweep valid)
  | ask a =>
      cases a with
      | size => exact .quiet (.none valid)
      | call r =>
          cases r with
          | get key => exact .quiet (.none valid)
          | contains key => exact .quiet (.none valid)
          | ping => exact .quiet (.none valid)
          | delete key => exact .quiet (gains_delete valid now key)
          | setIfAbsent key value ttl => exact moves_setIfAbsent valid value ttl
          | increment key window => exact moves_increment valid window

theorem noteWrite_writes : (m.noteWrite now).writes = m.writes + 1 := by
  unfold noteWrite
  dsimp only
  split <;> rfl

theorem noteWrite_sweepEvery : (m.noteWrite now).sweepEvery = m.sweepEvery := by
  unfold noteWrite
  dsimp only
  split <;> rfl

/-- Counting a write that calls for a sweep leaves the live entries. -/
theorem entries_noteWrite_of_mod (due : (m.writes + 1) % m.sweepEvery = 0) :
    (m.noteWrite now).entries = m.entries.filter (·.2.isLive now) := by
  simp [noteWrite, due, sweep]

theorem entries_noteWrite_of_not_mod (notDue : (m.writes + 1) % m.sweepEvery ≠ 0) :
    (m.noteWrite now).entries = m.entries := by
  simp [noteWrite, notDue]

end Memory

/-! ### Every use of a new cache -/

open Memory

/-- A cache in memory, with how many writes it has completed and how many of its entries were live right after
the latest sweep of its own. -/
structure Watched where
  memory : Memory
  written : Nat
  kept : Nat

namespace Watched

variable {interval : Nat} {c : Watched} {now : Instant} {u : Use}

/-- What a use leaves behind of a cache that sweeps itself after so many writes. -/
def after (interval : Nat) (c : Watched) (now : Instant) (u : Use) : Watched :=
  match c.memory.use now u with
  | (false, m) => { c with memory := m }
  | (true, m) =>
    let written := c.written + 1
    ⟨m, written, if written % interval = 0 then m.size now else c.kept⟩

/-- What uses of a new cache leave behind, each at its time. An interval of none counts as one. -/
def run (interval : Nat) (uses : List (Instant × Use)) : Watched :=
  uses.foldl (fun c u => c.after (max interval 1) u.1 u.2) ⟨empty interval, 0, 0⟩

/-- The cache has counted its writes, and has gained one entry at most for each of them since it has swept
itself. -/
structure Bounded (interval : Nat) (c : Watched) : Prop where
  valid : c.memory.Valid
  writes : c.memory.writes = c.written
  sweepEvery : c.memory.sweepEvery = interval
  length : c.memory.entries.length ≤ c.kept + c.written % interval

theorem bounded_empty : Bounded (max interval 1) ⟨empty interval, 0, 0⟩ :=
  ⟨valid_empty _, rfl, rfl, Nat.zero_le _⟩

theorem succ_mod_of_ne_zero {n : Nat} (some : 0 < interval) (notDue : (n + 1) % interval ≠ 0) :
    (n + 1) % interval = n % interval + 1 := by
  have below := Nat.mod_lt n some
  rw [← Nat.mod_add_mod] at notDue ⊢
  refine Nat.mod_eq_of_lt (Nat.lt_of_le_of_ne below fun reached => notDue ?_)
  rw [reached, Nat.mod_self]

/-- A use that completes the last write before a sweep leaves no dead entry. -/
theorem Bounded.isLive_of_due (bounded : Bounded interval c) (now : Instant) (u : Use)
    (wrote : (c.memory.use now u).1 = true) (due : (c.written + 1) % interval = 0) :
    ∀ entry ∈ (c.memory.use now u).2.entries, entry.2.isLive now = true := by
  intro entry there
  have moves := moves_use bounded.valid now u
  generalize c.memory.use now u = used at moves wrote there
  cases moves with
  | quiet gains => cases wrote
  | @written m gains =>
      have swept : (m.writes + 1) % m.sweepEvery = 0 := by
        rwa [gains.writes, gains.sweepEvery, bounded.writes, bounded.sweepEvery]
      rw [entries_noteWrite_of_mod swept] at there
      exact (List.mem_filter.mp there).2

/-- Every use keeps the bound. -/
theorem Bounded.after (some : 0 < interval) (bounded : Bounded interval c) :
    Bounded interval (c.after interval now u) := by
  have moves := moves_use bounded.valid now u
  have swept := bounded.isLive_of_due now u
  unfold Watched.after
  generalize c.memory.use now u = used at moves swept
  cases moves with
  | quiet gains =>
      exact
        { valid := gains.valid
          writes := gains.writes.trans bounded.writes
          sweepEvery := gains.sweepEvery.trans bounded.sweepEvery
          length := Nat.le_trans gains.length bounded.length }
  | @written m gains =>
      have counted : m.writes + 1 = c.written + 1 := by rw [gains.writes, bounded.writes]
      refine
        { valid := valid_noteWrite gains.valid
          writes := noteWrite_writes.trans counted
          sweepEvery := noteWrite_sweepEvery.trans (gains.sweepEvery.trans bounded.sweepEvery)
          length := ?_ }
      dsimp only
      by_cases due : (c.written + 1) % interval = 0
      · have all := List.filter_eq_self.mpr (swept rfl due)
        rw [if_pos due, size, all]
        exact Nat.le_add_right _ _
      · have notDue : (m.writes + 1) % m.sweepEvery ≠ 0 := by
          rwa [counted, gains.sweepEvery, bounded.sweepEvery]
        rw [if_neg due, entries_noteWrite_of_not_mod notDue, succ_mod_of_ne_zero some due]
        have before := bounded.length
        have gained := gains.length
        omega

theorem bounded_run (interval : Nat) (uses : List (Instant × Use)) :
    Bounded (max interval 1) (run interval uses) := by
  have some : 0 < max interval 1 := Nat.le_max_right _ _
  have runs (c : Watched) (bounded : Bounded (max interval 1) c) :
      Bounded (max interval 1) (uses.foldl (fun c u => c.after (max interval 1) u.1 u.2) c) := by
    induction uses generalizing c with
    | nil => exact bounded
    | cons u uses ih => exact ih _ (bounded.after some)
  exact runs _ bounded_empty

/-- After all uses of a new cache, at whatever times, its map has one entry for each key and no more entries, live
or dead, than were live right after the latest sweep of its own and the other writes of an interval can add.
The write that completes an interval leaves no dead entry. -/
theorem run_bounded (interval : Nat) (uses : List (Instant × Use)) :
    (run interval uses).memory.Valid ∧
    (run interval uses).memory.entries.length ≤ (run interval uses).kept + (max interval 1 - 1) ∧
    ∀ (now : Instant) (u : Use), ((run interval uses).memory.use now u).1 = true →
      ((run interval uses).written + 1) % max interval 1 = 0 →
      ∀ entry ∈ ((run interval uses).memory.use now u).2.entries, entry.2.isLive now = true := by
  have bounded := bounded_run interval uses
  have within := bounded.length
  have below := Nat.mod_lt (run interval uses).written (Nat.le_max_right interval 1)
  refine ⟨bounded.valid, by omega, ?_⟩
  exact fun now u wrote due => bounded.isLive_of_due now u wrote due

end Watched

end TokenAuthority.Cache

/-! ### Texts that nobody looks at again -/

namespace TokenAuthority.Sample

open Cache Cache.Memory

/-- Two texts come to their ends, and there is one more. -/
def leftovers : List (Instant × Use) :=
  let second (n : Nat) : Instant := Instant.start.after (Span.ofSecs n)
  [(second 0, .ask (.call (.setIfAbsent "a" "x" (Span.ofSecs 1)))),
   (second 0, .ask (.call (.setIfAbsent "b" "x" (Span.ofSecs 1)))),
   (second 5, .ask (.call (.contains "a"))),
   (second 5, .ask (.call (.setIfAbsent "c" "x" (Span.ofSecs 60)))),
   (second 5, .ask (.call (.increment "c" (Span.ofSecs 60))))]

/-- A cache that sweeps after every second write is as full as it can be, and the next write sweeps it. -/
theorem run_leftovers :
    let c := Watched.run 2 leftovers
    let count : Use := .ask (.call (.increment "n" (Span.ofSecs 60)))
    let now := Instant.start.after (Span.ofSecs 6)
    c.kept = 2 ∧ c.memory.entries.length = 3 ∧ (c.memory.use now count).1 = true ∧ (c.written + 1) % 2 = 0 ∧
      (c.memory.use now count).2.entries.map Prod.fst = ["n", "c"] ∧
      ∀ entry ∈ (c.memory.use now count).2.entries, entry.2.isLive now = true := by
  have wrote : ((Watched.run 2 leftovers).memory.use (Instant.start.after (Span.ofSecs 6))
      (.ask (.call (.increment "n" (Span.ofSecs 60))))).1 = true := by decide +kernel
  have due : ((Watched.run 2 leftovers).written + 1) % 2 = 0 := by decide +kernel
  refine ⟨by decide +kernel, by decide +kernel, wrote, due, by decide +kernel, ?_⟩
  exact (Watched.run_bounded 2 leftovers).2.2 _ _ wrote due

end TokenAuthority.Sample
