import TokenAuthority.Proofs.Service.Credentials
import TokenAuthority.Proofs.Service.Throttling

/-!
# The throttle is a fixed window for each client

A service with a throttle, over a new cache in memory, carries out one call after the other, and time passes
between them. A client's window opens at a suspicious failure of its own, if none is open, and lasts for the
window of the throttle.

* `Throttle.windows`, `Throttle.recorded` — the window of each client, and its failures in it.
* `Throttle.tallies_of_visits` — the cache holds the counters of these windows.
* `TokenService.rateLimited_iff` — a call is rate-limited exactly if its client has as many failures in its
  open window as it may.
-/

namespace TokenAuthority

open Cache (Memory Window)

namespace Throttle

open TokenService

variable {s : TokenService} {throttle : Throttle} {w₀ w : World Memory} {log : List Visit}

def windows (throttle : Throttle) : List Visit → String → Option Window
  | [] => fun _ => none
  | v :: log => throttle.counted v.time v.call.client? (v.reply.bind Reply.reason?) (throttle.windows log)

/-- The failures of a client in its open window. -/
def recorded (throttle : Throttle) (log : List Visit) (now : Instant) (client : String) : Nat :=
  Window.countAt throttle.window now (throttle.windows log client)

/-- A new cache holds the counters of clients that have not failed. -/
theorem tallies_new {sweepEvery : Nat} (new : w₀.cache = .empty sweepEvery) :
    throttle.Tallies (throttle.windows []) w₀ := by
  refine ⟨?_, fun client => ?_, fun client x impossible => ?_⟩
  · rw [new]
    exact Memory.valid_empty sweepEvery
  · rw [new]
    exact Memory.counts_empty sweepEvery
  · exact (Option.not_mem_none x impossible).elim

/-- After any calls the cache holds the counters of the windows. -/
theorem tallies_of_visits (visits : s.Visits w₀ log w) (throttled : s.ThrottledBy throttle)
    (start : throttle.Tallies (throttle.windows []) w₀)
    (inRange : (w.now.after? throttle.window).isSome) : throttle.Tallies (throttle.windows log) w := by
  induction visits with
  | start => exact start
  | pause span visits ih =>
      exact (ih (Instant.isSome_after?_of_le (Nat.le_add_right _ _) inRange)).advance span
  | @call log w w' k ending visits runs ih =>
      have later := Action.now_le_run Memory.backend (k.action s) w
      rw [runs] at later
      have inRange := Instant.isSome_after?_of_le later inRange
      obtain ⟨r, w'', tallied, runs'⟩ :=
        Action.run_of_yields (yields_call_tallied throttled inRange (ih inRange))
      cases runs.symm.trans runs'
      rw [Ending.value?_of]
      exact tallied.tallies

end Throttle

namespace TokenService

variable {s : TokenService} {throttle : Throttle} {w₀ w : World Memory} {log : List Visit}

/-- The throttle is an exact fixed window for each client. After any calls of a service over a new cache in
memory, with the key spaces that it has by default and a window of at least one whole second that the timer
can still count, no client has more failures in its open window than it may; every verification gives a
verdict; and a call is rate-limited exactly if it is for a client that has as many failures in its open
window as it may, whatever its token. -/
theorem rateLimited_iff {seconds sweepEvery : Nat} (visits : s.Visits w₀ log w)
    (new : w₀.cache = .empty sweepEvery) (has : s.throttle = some throttle)
    (stored : s.store.keySpace = "token:blacklist") (counted : throttle.keySpace = "auth:verify_failures")
    (lasts : throttle.window = Span.ofSecs seconds) (positive : 1 ≤ seconds)
    (inRange : (w.now.after? throttle.window).isSome) :
    (∀ client, throttle.recorded log w.now client ≤ throttle.maxFailures.toNat) ∧
    (∀ request token expected, ∃ verdict w',
      ((Call.verify request token expected).action s).run Memory.backend w =
        (.value (.verdict verdict), w')) ∧
    ∀ k : Call, ∃ ending w', (k.action s).run Memory.backend w = (ending, w') ∧
      (ending.value?.bind Reply.reason? = some .rateLimited ↔ ∃ client, k.client? = some client ∧
        throttle.recorded log w.now client = throttle.maxFailures.toNat) := by
  have throttled : s.ThrottledBy throttle := .of_default has stored counted lasts positive
  have tallies := Throttle.tallies_of_visits visits throttled (Throttle.tallies_new new) inRange
  have bounded (client : String) : throttle.recorded log w.now client ≤ throttle.maxFailures.toNat :=
    tallies.countAt_le w.now client
  refine ⟨bounded, fun request token expected => ?_, fun k => ?_⟩
  · have verifies : ((Call.verify request token expected).action s).Yields w fun r _ =>
        ∃ verdict, r = .ok (.verdict verdict) := by
      refine yields_reply ((yields_verifyWith_tallied throttled inRange tallies).mono ?_)
      rintro r w' ⟨verdict, rfl, _⟩
      exact ⟨verdict, rfl⟩
    obtain ⟨r, w', ⟨verdict, rfl⟩, runs⟩ := Action.run_of_yields verifies
    exact ⟨verdict, w', runs⟩
  · obtain ⟨r, w', tallied, runs⟩ := Action.run_of_yields (yields_call_tallied throttled inRange tallies)
    refine ⟨_, w', runs, ?_⟩
    rw [Ending.value?_of, tallied.limited]
    refine exists_congr fun client => and_congr Iff.rfl ?_
    exact ⟨fun full => Nat.le_antisymm (bounded client) full, fun full => Nat.le_of_eq full.symm⟩

end TokenService

/-! ### A client with forged tokens -/

namespace Sample

open TokenService

/-- Two failures within a minute are enough. -/
def perMinute : Throttle := { maxFailures := 2, window := Span.ofSecs 60 }

def wary : TokenService :=
  { service with throttle := some perMinute, store := ⟨"token:blacklist", Span.ofMillis 500, {}⟩ }

/-- A client presents a text that is no token. -/
def forging : Call := .verify (some (request.withClient "a")) "forged" .access

/-- How that ends, and what it leaves. -/
def forged (w : World Memory) : Ending Reply × World Memory := (forging.action wary).run Memory.backend w

/-- Half a minute after the first time. -/
def later : World Memory := (forged world).2.advance (Span.ofSecs 30)

def forgeries : List Visit :=
  [⟨later.now, forging, (forged later).1.value?⟩, ⟨world.now, forging, (forged world).1.value?⟩]

/-- What both leave. -/
def warned : World Memory := (forged later).2

theorem visits_forgeries : wary.Visits world forgeries warned :=
  ((Visits.start.call rfl).pause (Span.ofSecs 30)).call rfl

/-- A client with a good token is rate-limited. -/
def Limits (w : World Memory) (client : String) : Prop :=
  (((Call.verify (some (request.withClient client)) token .refresh).action wary).run
    Memory.backend w).1.value?.bind Reply.reason? = some .rateLimited

/-- The client is rate-limited then, even with a good token, and another is not; half a minute later the
first is not any more. -/
theorem limits_warned : Limits warned "a" ∧ ¬ Limits warned "b" ∧
    ¬ Limits (warned.advance (Span.ofSecs 30)) "a" := by
  have recorded : perMinute.recorded forgeries warned.now "a" = 2 ∧
      perMinute.recorded forgeries warned.now "b" = 0 ∧
      perMinute.recorded forgeries (warned.advance (Span.ofSecs 30)).now "a" = 0 ∧
      (warned.now.after? perMinute.window).isSome ∧
      ((warned.advance (Span.ofSecs 30)).now.after? perMinute.window).isSome := by
    decide +kernel
  obtain ⟨two, zero, zero', inRange, inRange'⟩ := recorded
  obtain ⟨_, _, limited⟩ := rateLimited_iff visits_forgeries rfl rfl rfl rfl rfl (by decide) inRange
  obtain ⟨_, _, limited'⟩ := rateLimited_iff (visits_forgeries.pause (Span.ofSecs 30)) rfl rfl rfl rfl rfl
    (by decide) inRange'
  refine ⟨?_, ?_, ?_⟩
  · obtain ⟨ending, w', runs, iff⟩ := limited (.verify (some (request.withClient "a")) token .refresh)
    rw [Limits, runs]
    exact iff.mpr ⟨"a", rfl, two⟩
  · obtain ⟨ending, w', runs, iff⟩ := limited (.verify (some (request.withClient "b")) token .refresh)
    rw [Limits, runs]
    intro limits
    obtain ⟨_, ⟨⟩, full⟩ := iff.mp limits
    cases zero.symm.trans full
  · obtain ⟨ending, w', runs, iff⟩ := limited' (.verify (some (request.withClient "a")) token .refresh)
    rw [Limits, runs]
    intro limits
    obtain ⟨_, ⟨⟩, full⟩ := iff.mp limits
    cases zero'.symm.trans full

end Sample

end TokenAuthority
