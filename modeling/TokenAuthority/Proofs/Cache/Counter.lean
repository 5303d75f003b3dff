import TokenAuthority.Proofs.Cache.PlainMap
import TokenAuthority.Proofs.Text.Integer

/-!
# A counter in a cache in memory

A counter counts in windows of a fixed span. What is counted first, while no window is open, opens one, and
what is counted while it is open belongs to it and does not prolong it.

* `Window.note`, `Window.countAt` — counting once more, and how often has been counted in the open window.
* `Memory.Counts` — the entry under a key is that of a counter, from an instant on.
* `Memory.Counts.increment` — an increment counts once more under its key, and leaves the other keys.
* `Memory.live?_of_perform` — a call that does not write under a key leaves the entry there.
-/

namespace TokenAuthority.Cache

/-- A window of a counter: when it was opened, and how often has been counted in it. -/
structure Window where
  opened : Instant
  count : Nat
deriving DecidableEq

namespace Window

/-- The window, as long as it is open. -/
def current? (span : Span) (now : Instant) (x? : Option Window) : Option Window :=
  x?.filter fun x => now < x.opened.after span

/-- How often has been counted in the window that is open. -/
def countAt (span : Span) (now : Instant) (x? : Option Window) : Nat :=
  ((current? span now x?).map Window.count).getD 0

/-- Counting once more, in the window that is open or else in a new one. -/
def note (span : Span) (now : Instant) (x? : Option Window) : Window :=
  match current? span now x? with
  | some x => { x with count := x.count + 1 }
  | none => ⟨now, 1⟩

/-- The entry of a counter: its count, until the end of the window. -/
def entry (span : Span) (x : Window) : Memory.Entry := ⟨toString x.count, x.opened.after span⟩

variable {span : Span} {now : Instant} {x? : Option Window}

theorem count_note : (note span now x?).count = countAt span now x? + 1 := by
  unfold note countAt
  cases current? span now x? <;> rfl

/-- Less is counted in the open window only if that is another one. -/
theorem countAt_le {x : Window} : countAt span now (some x) ≤ x.count := by
  unfold countAt current?
  by_cases early : now < x.opened.after span
  · rw [Option.filter_some, if_pos (decide_eq_true early)]
    exact Nat.le_refl _
  · rw [Option.filter_some, if_neg (by simpa using early)]
    exact Nat.zero_le _

end Window

namespace Memory

variable {m m' : Memory} {now t : Instant} {key k : String} {span : Span} {x? : Option Window}

/-- From an instant on the entry under a key is that of a counter, as long as its window is open. -/
def Counts (m : Memory) (now : Instant) (key : String) (span : Span) (x? : Option Window) : Prop :=
  ∀ t, now ≤ t → m.live? t key = (Window.current? span t x?).map (Window.entry span)

theorem counts_empty (sweepEvery : Nat) : (empty sweepEvery).Counts now key span none :=
  fun _ _ => rfl

theorem Counts.later (counts : m.Counts now key span x?) (le : now ≤ t) : m.Counts t key span x? :=
  fun t' later => counts t' (Nat.le_trans le later)

theorem Counts.of_live (counts : m.Counts now key span x?)
    (same : ∀ t, now ≤ t → m'.live? t key = m.live? t key) : m'.Counts now key span x? :=
  fun t later => (same t later).trans (counts t later)

/-- The count is read as it was written. -/
theorem Counts.read (counts : m.Counts now key span x?) (fits : Window.countAt span now x? < 2 ^ 64) :
    ((m.live? now key).bind fun e => Integer.uint64? e.value).getD 0 =
      UInt64.ofNat (Window.countAt span now x?) := by
  rw [counts now (Nat.le_refl _)]
  unfold Window.countAt at fits ⊢
  cases current : Window.current? span now x? with
  | none => rfl
  | some x =>
      rw [current] at fits
      exact congrArg (Option.getD · 0) (Integer.uint64?_toString fits)

/-- The counter that is incremented is that of the open window, or that of a new one at zero. -/
theorem Counts.counter (counts : m.Counts now key span x?) (whole : Span.ofSecs span.lifetimeSecs = span)
    (inRange : (now.after? span).isSome) : m.counter now key span =
      .ok ⟨toString (Window.countAt span now x?), (Window.note span now x?).opened.after span⟩ := by
  unfold Memory.counter Window.countAt Window.note
  rw [counts now (Nat.le_refl _)]
  cases Window.current? span now x? with
  | some x => rfl
  | none =>
      have made : Entry.new? now "0" span = some ⟨"0", now.after span⟩ := by
        rw [Entry.new?, whole, Instant.after?_eq_some inRange]
        rfl
      rw [made]
      rfl

/-- What is live under the keys once a new entry has been written. -/
theorem live?_put_noteWrite {e : Entry} (valid : m.Valid) (later : now ≤ t) :
    ((m.put k e).noteWrite now).live? t key =
      if key = k then (some e).filter fun e => t < e.expiresAt else m.live? t key := by
  rw [live?_noteWrite (valid_put valid) later, live?_put valid]

/-- An increment counts once more under its key, and leaves the other keys. -/
theorem Counts.increment (counts : m.Counts now key span x?) (valid : m.Valid)
    (whole : Span.ofSecs span.lifetimeSecs = span) (inRange : (now.after? span).isSome)
    (fits : Window.countAt span now x? + 1 < 2 ^ 64) :
    ∃ n m', m.increment now key span = .ok (.ok n, m') ∧ m'.Valid ∧
      m'.Counts now key span (some (Window.note span now x?)) ∧
      ∀ k t, k ≠ key → now ≤ t → m'.live? t k = m.live? t k := by
  have below : Window.countAt span now x? < 2 ^ 64 := Nat.lt_of_succ_lt fits
  have toNat : (UInt64.ofNat (Window.countAt span now x?)).toNat = Window.countAt span now x? :=
    UInt64.toNat_ofNat_of_lt' below
  have counted := increment_of_counter (counts.counter whole inRange) (Integer.uint64?_toString below)
    (by rwa [toNat])
  rw [toNat, ← Window.count_note] at counted
  refine ⟨_, _, counted, valid_noteWrite (valid_put valid), fun t later => ?_, fun k t other later => ?_⟩
  · rw [live?_put_noteWrite valid later, if_pos rfl]
    exact Option.filter_map (f := Window.entry span) (x := some (Window.note span now x?))
  · rw [live?_put_noteWrite valid later, if_neg other]

/-- A call that does not write under a key leaves the entry there. -/
theorem live?_of_perform {r : Request} {a : r.Answer} (valid : m.Valid)
    (done : m.perform now r = .ok (a, m')) (spares : ¬ r.Writes key) (later : now ≤ t) :
    m'.live? t key = m.live? t key := by
  cases r with
  | get k =>
      cases done
      rfl
  | contains k =>
      cases done
      rfl
  | ping =>
      cases done
      rfl
  | delete k =>
      have deleted : m' = (m.delete now k).2 := by
        cases done
        rfl
      rw [deleted, live?_delete valid, if_neg fun same => spares same.symm]
  | increment k window =>
      have other : key ≠ k := fun same => spares same.symm
      obtain ⟨e, same | same⟩ := put_of_increment (r := (a, m')) done
      · rw [show m' = _ from same, live?_put valid, if_neg other]
      · rw [show m' = _ from same, live?_put_noteWrite valid later, if_neg other]
  | setIfAbsent k value ttl =>
      change (m.setIfAbsent now k value ttl >>= fun r => pure (Except.ok r.1, r.2)) = _ at done
      unfold Memory.setIfAbsent at done
      split at done
      · cases done
        exact live?_noteWrite valid later
      · split at done
        · cases done
          rw [live?_put_noteWrite valid later, if_neg fun same => spares same.symm]
        · cases done

end Memory

end TokenAuthority.Cache
