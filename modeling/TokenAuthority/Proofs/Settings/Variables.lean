import TokenAuthority.Proofs.Settings.Loading

/-!
# What variables give

Each algorithm, number and switch among the settings is read from a variable of its own.

* `Settings.Format.Writes` — which texts write which values, apart from how they are read.
* `Settings.allVariables` — the variables with their formats and defaults, and the field that each one gives.
* `Settings.ofEnvironment_honours` — a field has the value that the text of its variable writes, and the
  default if the variable is not set; a text that writes no value is refused. A variable that is set to octets
  that are no text is treated as one that is not set.
-/

namespace TokenAuthority

namespace Settings

open Integer (Numeral)

/-! ### Formats -/

/-- What a variable can give. -/
inductive Value where
  | algorithm (a : SignatureAlgorithm)
  | number (n : Int)
  | span (s : Span)
  | switch (on : Bool)
deriving DecidableEq

/-- How the text of a variable is read. -/
inductive Format where
  | algorithm
  /-- A whole number that an unsigned word of so many bits holds. -/
  | unsigned (bits : Nat)
  /-- A whole number that a signed word of sixty-four bits holds. -/
  | signed
  | seconds
  | milliseconds
  | switch
deriving DecidableEq

/-- The words for yes and for no. -/
def switchWords : Bool → List String
  | true => ["1", "true", "yes", "on"]
  | false => ["0", "false", "no", "off"]

/-- A text without white space around it writes a value. Upper and lower case do not matter. -/
inductive Format.Writes : Format → (text : String) → Value → Prop where
  | algorithm {text : String} {a : SignatureAlgorithm} :
      text.toList.map Char.toUpper = a.name.toList → Writes .algorithm text (.algorithm a)
  | unsigned {bits : Nat} {text : String} {n : Nat} :
      Numeral false text.toList n → n < 2 ^ bits → Writes (.unsigned bits) text (.number n)
  | signed {text : String} {n : Int} :
      Numeral true text.toList n → -2 ^ 63 ≤ n → n < 2 ^ 63 → Writes .signed text (.number n)
  | seconds {text : String} {n : Nat} :
      Numeral false text.toList n → n < 2 ^ 64 → Writes .seconds text (.span (Span.ofSecs n))
  | milliseconds {text : String} {n : Nat} :
      Numeral false text.toList n → n < 2 ^ 64 → Writes .milliseconds text (.span (Span.ofMillis n))
  | switch {text word : String} {on : Bool} :
      text.toList.map Char.toLower = word.toList → word ∈ switchWords on → Writes .switch text (.switch on)

/-- No word means both yes and no. -/
theorem switchWords_disjoint {word : String} {a b : Bool} (first : word ∈ switchWords a)
    (second : word ∈ switchWords b) : a = b := by
  have disjoint : ∀ word ∈ switchWords true, word ∉ switchWords false := by decide
  cases a <;> cases b
  · rfl
  · exact absurd first (disjoint word second)
  · exact absurd second (disjoint word first)
  · rfl

theorem Format.Writes.unique {format : Format} {text : String} {v w : Value} (first : format.Writes text v)
    (second : format.Writes text w) : v = w := by
  cases first with
  | @algorithm _ a isName =>
      cases second with
      | @algorithm _ b isName' =>
          have same : a.name = b.name := String.toList_injective (isName.symm.trans isName')
          cases a <;> cases b
          · rfl
          · exact absurd same (by decide)
          · exact absurd same (by decide)
          · rfl
  | unsigned numeral =>
      cases second with
      | unsigned numeral' => rw [numeral.unique numeral']
  | signed numeral =>
      cases second with
      | signed numeral' => rw [numeral.unique numeral']
  | seconds numeral =>
      cases second with
      | seconds numeral' => rw [Int.ofNat_inj.mp (numeral.unique numeral')]
  | milliseconds numeral =>
      cases second with
      | milliseconds numeral' => rw [Int.ofNat_inj.mp (numeral.unique numeral')]
  | switch spelled among =>
      cases second with
      | switch spelled' among' =>
          obtain rfl := String.toList_injective (spelled.symm.trans spelled')
          rw [switchWords_disjoint among among']

/-! ### Readers -/

end Settings

/-- A variable gives its default if it has no text, and otherwise the value that its text writes. -/
inductive Environment.Gives (env : Environment) (name : String) (format : Settings.Format)
    (default : Settings.Value) : Settings.Value → Prop where
  | absent : env.get? name = none → Gives env name format default default
  | written {text : String} {v : Settings.Value} :
      env.get? name = some text → format.Writes (Blank.trim text) v → Gives env name format default v

namespace Environment

open Settings
open Integer (eq_ok_of_map)

variable {env : Environment} {name : String}

theorem Gives.eq_default {format : Format} {default v : Value} (gives : env.Gives name format default v)
    (unset : env.get? name = none) : v = default := by
  cases gives with
  | absent => rfl
  | written set =>
      rw [unset] at set
      cases set

theorem Gives.writes {format : Format} {default v : Value} {text : String}
    (gives : env.Gives name format default v) (set : env.get? name = some text) :
    format.Writes (Blank.trim text) v := by
  cases gives with
  | absent unset =>
      rw [unset] at set
      cases set
  | written set' writes =>
      rw [set] at set'
      cases set'
      exact writes

theorem get?_of_text {text : String} (set : env.octets? name = some (Utf8.encode text)) :
    env.get? name = some text := by
  rw [get?, set]
  exact Utf8.decode?_encode text

/-- A number is given as the text of its variable writes it. -/
theorem number_gives {α : Type} {format : Format} {f : α → Value} {default a : α}
    {read : String → Except Integer.ReadError α}
    (reads : ∀ text a, read text = .ok a → format.Writes text (f a))
    (got : env.number name default read = .ok a) : env.Gives name format (f default) (f a) := by
  unfold number at got
  cases set : env.get? name with
  | none =>
      rw [set] at got
      cases got
      exact .absent set
  | some text =>
      rw [set] at got
      dsimp only at got
      cases read' : read (Blank.trim text) with
      | error e =>
          rw [read'] at got
          cases got
      | ok b =>
          rw [read'] at got
          cases got
          exact .written set (reads _ _ read')

theorem unsigned_gives {bits default n : Nat}
    (got : env.number name default (Integer.readUnsigned bits) = .ok n) :
    env.Gives name (.unsigned bits) (.number default) (.number n) := by
  refine number_gives (f := fun n : Nat => .number n) (fun text n read => ?_) got
  obtain ⟨numeral, fits⟩ := Integer.readUnsigned_eq_ok_iff.mp read
  exact .unsigned numeral fits

theorem signed_gives {default n : Int} (got : env.number name default Integer.readInt64 = .ok n) :
    env.Gives name .signed (.number default) (.number n) := by
  refine number_gives (fun text n read => ?_) got
  obtain ⟨numeral, least, most⟩ := Integer.readInt64_eq_ok_iff.mp read
  exact .signed numeral least most

theorem signed_range {default n : Int} (fits : -2 ^ 63 ≤ default ∧ default < 2 ^ 63)
    (got : env.number name default Integer.readInt64 = .ok n) : -2 ^ 63 ≤ n ∧ n < 2 ^ 63 := by
  cases signed_gives got with
  | absent => exact fits
  | written _ writes =>
      cases writes with
      | signed _ least most => exact ⟨least, most⟩

theorem seconds_gives {default : Nat} {span : Span} (got : env.seconds name default = .ok span) :
    env.Gives name .seconds (.span (Span.ofSecs default)) (.span span) := by
  obtain ⟨n, read, rfl⟩ := eq_ok_of_map got
  refine number_gives (f := fun n => .span (Span.ofSecs n)) (fun text n read => ?_) read
  obtain ⟨numeral, fits⟩ := Integer.readUnsigned_eq_ok_iff.mp read
  exact .seconds numeral fits

theorem milliseconds_gives {default : Nat} {span : Span} (got : env.milliseconds name default = .ok span) :
    env.Gives name .milliseconds (.span (Span.ofMillis default)) (.span span) := by
  obtain ⟨n, read, rfl⟩ := eq_ok_of_map got
  refine number_gives (f := fun n => .span (Span.ofMillis n)) (fun text n read => ?_) read
  obtain ⟨numeral, fits⟩ := Integer.readUnsigned_eq_ok_iff.mp read
  exact .milliseconds numeral fits

theorem switch_gives {default on : Bool} (got : env.switch name default = .ok on) :
    env.Gives name .switch (.switch default) (.switch on) := by
  unfold switch at got
  cases set : env.get? name with
  | none =>
      rw [set] at got
      cases got
      exact .absent set
  | some text =>
      rw [set] at got
      dsimp only at got
      refine .written set ?_
      split at got
      · rename_i yes
        cases got
        exact .switch String.toList_ofList.symm (List.contains_iff_mem.mp yes)
      · split at got
        · rename_i no
          cases got
          exact .switch String.toList_ofList.symm (List.contains_iff_mem.mp no)
        · cases got

def unset (env : Environment) (name : String) : Environment :=
  ⟨env.bindings.filter fun v => v.1 ≠ name⟩

/-- A variable that is set to octets that are no text is read as one that is not set. -/
theorem get?_unset {octets : List UInt8} (set : env.octets? name = some octets)
    (noText : Utf8.decode? octets = none) : (env.unset name).get? = env.get? := by
  have others (other : String) : (env.unset name).octets? other =
      (env.bindings.find? fun v => decide (v.1 ≠ name ∧ v.1 = other)).map Prod.snd := by
    unfold octets? unset
    rw [List.find?_filter]
    simp only [decide_eq_true_eq]
  funext other
  unfold get?
  rw [others]
  by_cases same : other = name
  · subst same
    have none : (env.bindings.find? fun v => decide (v.1 ≠ other ∧ v.1 = other)) = none :=
      List.find?_eq_none.mpr (by simp)
    rw [set, none, Option.bind_some, noText]
    rfl
  · have same (v : String × List UInt8) : v.1 ≠ name ∧ v.1 = other ↔ v.1 = other :=
      and_iff_right_of_imp fun isOther => isOther ▸ same
    simp only [same]
    rfl

end Environment

namespace Settings

open Environment
open Integer (eq_ok_of_bind)

/-! ### The variables -/

/-- A setting: its variable, how the variable is read, what it is without one, and where it is found. -/
structure Setting (ρ : Type) where
  name : String
  format : Format
  default : Value
  field : ρ → Value

/-- The setting in a record that has the record of the setting. -/
def Setting.within {ρ σ : Type} (x : Setting ρ) (part : σ → ρ) : Setting σ :=
  { name := x.name, format := x.format, default := x.default, field := x.field ∘ part }

/-- Whether a record has what the variable of a setting gives. -/
def Setting.Given {ρ : Type} (x : Setting ρ) (env : Environment) (r : ρ) : Prop :=
  env.Gives x.name x.format x.default (x.field r)

def Tokens.variables : List (Setting Tokens) :=
  [⟨"JWT_ALGORITHM", .algorithm, .algorithm .rs256, fun t => .algorithm t.keys.algorithm⟩,
    ⟨"JWT_ACCESS_TTL_SECS", .seconds, .span (Span.ofSecs 900), fun t => .span t.accessTtl⟩,
    ⟨"JWT_REFRESH_TTL_SECS", .seconds, .span (Span.ofSecs 604800), fun t => .span t.refreshTtl⟩,
    ⟨"JWT_RESET_TTL_SECS", .seconds, .span (Span.ofSecs 1800), fun t => .span t.resetTtl⟩,
    ⟨"JWT_LEEWAY_SECS", .unsigned 64, .number 0, fun t => .number t.leeway.toNat⟩,
    ⟨"JWT_ROTATE_REFRESH_TOKENS", .switch, .switch false, fun t => .switch t.rotateRefreshTokens⟩]

def Revocations.variables : List (Setting Revocations) :=
  [⟨"REVOCATION_MIN_TTL_SECS", .seconds, .span (Span.ofSecs 300), fun r => .span r.minTtl⟩,
    ⟨"REVOCATION_CHECK_TIMEOUT_MS", .milliseconds, .span (Span.ofMillis 3000), fun r => .span r.checkTimeout⟩,
    ⟨"CACHE_OP_TIMEOUT_MS", .milliseconds, .span (Span.ofMillis 500), fun r => .span r.opTimeout⟩,
    ⟨"CACHE_RETRY_MAX_ATTEMPTS", .unsigned 32, .number 3, fun r => .number r.retry.maxAttempts⟩,
    ⟨"CACHE_RETRY_INITIAL_BACKOFF_MS", .milliseconds, .span (Span.ofMillis 100), fun r => .span r.retry.initial⟩,
    ⟨"CACHE_RETRY_MAX_BACKOFF_MS", .milliseconds, .span (Span.ofMillis 2000), fun r => .span r.retry.cap⟩,
    ⟨"CACHE_BREAKER_FAILURE_THRESHOLD", .unsigned 32, .number 5,
      fun r => .number r.breaker.failureThreshold.toNat⟩,
    ⟨"CACHE_BREAKER_RECOVERY_SECS", .seconds, .span (Span.ofSecs 60), fun r => .span r.breaker.recoveryTimeout⟩]

def Throttling.variables : List (Setting Throttling) :=
  [⟨"VERIFY_THROTTLE_ENABLED", .switch, .switch true, fun t => .switch t.enabled⟩,
    ⟨"VERIFY_THROTTLE_MAX_FAILURES", .unsigned 64, .number 20, fun t => .number t.throttle.maxFailures.toNat⟩,
    ⟨"VERIFY_THROTTLE_WINDOW_SECS", .seconds, .span (Span.ofSecs 300), fun t => .span t.throttle.window⟩]

def redisVariables : List (Setting Redis.Config) :=
  [⟨"REDIS_PORT", .unsigned 16, .number 6379, fun c => .number c.port.toNat⟩,
    ⟨"REDIS_DB", .signed, .number 0, fun c => .number c.db.toInt⟩,
    ⟨"REDIS_POOL_SIZE", .unsigned 64, .number 20, fun c => .number c.poolSize⟩,
    ⟨"REDIS_CONNECT_TIMEOUT_MS", .milliseconds, .span (Span.ofMillis 5000), fun c => .span c.connectTimeout⟩,
    ⟨"REDIS_RESPONSE_TIMEOUT_MS", .milliseconds, .span (Span.ofMillis 5000), fun c => .span c.responseTimeout⟩]

def passwordVariables : List (Setting Nat) :=
  [⟨"PASSWORD_HASH_COST", .unsigned 32, .number 12, fun cost => .number cost⟩]

/-- The variables that are read as an algorithm, a number or a switch. -/
def allVariables : List (Setting Settings) :=
  Tokens.variables.map (·.within tokens) ++ passwordVariables.map (·.within passwordCost) ++
    Revocations.variables.map (·.within revocations) ++ Throttling.variables.map (·.within throttling) ++
    redisVariables.map (·.within redis)

variable {env : Environment}

theorem eq_name_of_ofText? {text : String} {a : SignatureAlgorithm}
    (named : SignatureAlgorithm.ofText? text = some a) : SignatureAlgorithm.normalized text = a.name := by
  unfold SignatureAlgorithm.ofText? at named
  split at named
  · rename_i isName
    cases named
    exact isName
  · rename_i isName
    cases named
    exact isName
  · cases named

/-- The algorithm is given as the text of its variable names it. -/
theorem algorithm_gives {a : SignatureAlgorithm} (got : algorithmOf env = .ok a) :
    env.Gives "JWT_ALGORITHM" .algorithm (.algorithm .rs256) (.algorithm a) := by
  unfold algorithmOf getD at got
  dsimp only at got
  split at got
  · rename_i named
    cases got
    cases set : env.get? "JWT_ALGORITHM" with
    | none =>
        rw [set] at named
        have rs256 : SignatureAlgorithm.ofText? "RS256" = some .rs256 := by decide +kernel
        obtain rfl := Option.some.inj (rs256.symm.trans named)
        exact .absent set
    | some text =>
        rw [set] at named
        refine .written set (.algorithm ?_)
        rw [← eq_name_of_ofText? named]
        exact String.toList_ofList.symm
  · cases got

theorem algorithm_of_keysOf {a : SignatureAlgorithm} {keys : KeySource} (got : keysOf env a = .ok keys) :
    keys.algorithm = a := by
  unfold keysOf at got
  split at got
  · split at got
    · cases got
      rfl
    · cases got
  · split at got
    · cases got
    all_goals
      cases got
      rfl

/-! ### Records of settings

A record that is read has what the variables of its settings give. -/

theorem Tokens.given_of_read {t : Tokens} (got : Tokens.read env = .ok t) :
    ∀ x ∈ Tokens.variables, x.Given env t := by
  obtain ⟨algorithm, algorithmRead, got⟩ := eq_ok_of_bind got
  obtain ⟨keys, keysRead, got⟩ := eq_ok_of_bind got
  obtain ⟨accessTtl, accessRead, got⟩ := eq_ok_of_bind got
  obtain ⟨refreshTtl, refreshRead, got⟩ := eq_ok_of_bind got
  obtain ⟨resetTtl, resetRead, got⟩ := eq_ok_of_bind got
  obtain ⟨leeway, leewayRead, got⟩ := eq_ok_of_bind got
  obtain ⟨rotate, rotateRead, got⟩ := eq_ok_of_bind got
  cases got
  have algorithmGives := algorithm_gives algorithmRead
  rw [← algorithm_of_keysOf keysRead] at algorithmGives
  have leewayGives := unsigned_gives leewayRead
  rw [← UInt64.toNat_ofNat_of_lt (unsigned_lt (by decide) leewayRead)] at leewayGives
  simp only [Tokens.variables, List.forall_mem_cons]
  exact ⟨algorithmGives, seconds_gives accessRead, seconds_gives refreshRead, seconds_gives resetRead,
    leewayGives, switch_gives rotateRead, List.forall_mem_nil _⟩

theorem Revocations.given_of_read {r : Revocations} (got : Revocations.read env = .ok r) :
    ∀ x ∈ Revocations.variables, x.Given env r := by
  obtain ⟨minTtl, minRead, got⟩ := eq_ok_of_bind got
  obtain ⟨checkTimeout, checkRead, got⟩ := eq_ok_of_bind got
  obtain ⟨opTimeout, opRead, got⟩ := eq_ok_of_bind got
  obtain ⟨maxAttempts, attemptsRead, got⟩ := eq_ok_of_bind got
  obtain ⟨initial, initialRead, got⟩ := eq_ok_of_bind got
  obtain ⟨cap, capRead, got⟩ := eq_ok_of_bind got
  obtain ⟨failureThreshold, failuresRead, got⟩ := eq_ok_of_bind got
  obtain ⟨recoveryTimeout, recoveryRead, got⟩ := eq_ok_of_bind got
  cases got
  have failuresGives := unsigned_gives failuresRead
  rw [← UInt32.toNat_ofNat_of_lt (unsigned_lt (by decide) failuresRead)] at failuresGives
  simp only [Revocations.variables, List.forall_mem_cons]
  exact ⟨seconds_gives minRead, milliseconds_gives checkRead, milliseconds_gives opRead,
    unsigned_gives attemptsRead, milliseconds_gives initialRead, milliseconds_gives capRead, failuresGives,
    seconds_gives recoveryRead, List.forall_mem_nil _⟩

theorem Throttling.given_of_read {t : Throttling} (got : Throttling.read env = .ok t) :
    ∀ x ∈ Throttling.variables, x.Given env t := by
  obtain ⟨enabled, enabledRead, got⟩ := eq_ok_of_bind got
  obtain ⟨maxFailures, failuresRead, got⟩ := eq_ok_of_bind got
  obtain ⟨window, windowRead, got⟩ := eq_ok_of_bind got
  cases got
  have failuresGives := unsigned_gives failuresRead
  rw [← UInt64.toNat_ofNat_of_lt (unsigned_lt (by decide) failuresRead)] at failuresGives
  simp only [Throttling.variables, List.forall_mem_cons]
  exact ⟨switch_gives enabledRead, failuresGives, seconds_gives windowRead, List.forall_mem_nil _⟩

theorem redis_given_of_read {c : Redis.Config} (got : readRedis env = .ok c) :
    ∀ x ∈ redisVariables, x.Given env c := by
  obtain ⟨port, portRead, got⟩ := eq_ok_of_bind got
  obtain ⟨db, dbRead, got⟩ := eq_ok_of_bind got
  obtain ⟨poolSize, poolRead, got⟩ := eq_ok_of_bind got
  obtain ⟨connectTimeout, connectRead, got⟩ := eq_ok_of_bind got
  obtain ⟨responseTimeout, responseRead, got⟩ := eq_ok_of_bind got
  cases got
  have portGives := unsigned_gives portRead
  rw [← UInt16.toNat_ofNat_of_lt (unsigned_lt (by decide) portRead)] at portGives
  have dbGives := signed_gives dbRead
  obtain ⟨least, most⟩ := signed_range (by decide) dbRead
  rw [← Int64.toInt_ofInt_of_le least most] at dbGives
  simp only [redisVariables, List.forall_mem_cons]
  exact ⟨portGives, dbGives, unsigned_gives poolRead, milliseconds_gives connectRead,
    milliseconds_gives responseRead, List.forall_mem_nil _⟩

/-- The settings that are read have what their variables give. -/
theorem given_of_read {s : Settings} (got : read env = .ok s) : ∀ x ∈ allVariables, x.Given env s := by
  obtain ⟨tokens, tokensRead, got⟩ := eq_ok_of_bind got
  obtain ⟨passwordCost, costRead, got⟩ := eq_ok_of_bind got
  obtain ⟨revocations, revocationsRead, got⟩ := eq_ok_of_bind got
  obtain ⟨throttling, throttlingRead, got⟩ := eq_ok_of_bind got
  obtain ⟨redis, redisRead, got⟩ := eq_ok_of_bind got
  cases got
  simp only [allVariables, List.forall_mem_append, List.forall_mem_map]
  refine ⟨⟨⟨⟨Tokens.given_of_read tokensRead, ?_⟩, Revocations.given_of_read revocationsRead⟩,
    Throttling.given_of_read throttlingRead⟩, redis_given_of_read redisRead⟩
  simp only [passwordVariables, List.forall_mem_cons]
  exact ⟨unsigned_gives costRead, List.forall_mem_nil _⟩

theorem ofEnvironment_eq_read {s : Settings} (got : ofEnvironment env = .ok (.ok s)) : read env = .ok s := by
  unfold ofEnvironment at got
  split at got
  · cases got
  · rename_i s' read
    split at got
    · cases got
    · obtain ⟨_, _, rfl⟩ := Integer.eq_ok_of_map (Except.ok.inj got)
      exact read

/-- What is read of an environment depends on the texts of its variables only. -/
theorem ofEnvironment_congr {env' : Environment} (same : env.get? = env'.get?) :
    ofEnvironment env = ofEnvironment env' := by
  have read : read env = read env' := by
    unfold Settings.read Tokens.read Revocations.read Throttling.read readRedis algorithmOf keysOf filled? getD
      seconds milliseconds unsigned32 unsigned64 number switch
    rw [same]
  unfold ofEnvironment
  rw [read]

/-- Whether settings have in a field what the octets of its variable ask for: the default if the variable is not
set, the value that its text writes, and the default again if its octets are no text. -/
structure Honours (env : Environment) (x : Setting Settings) (s : Settings) : Prop where
  absent : env.octets? x.name = none → x.field s = x.default
  text : ∀ text, env.octets? x.name = some (Utf8.encode text) →
    ∀ v, x.format.Writes (Blank.trim text) v ↔ v = x.field s
  noText : ∀ octets, env.octets? x.name = some octets → Utf8.decode? octets = none → x.field s = x.default

theorem honours_of_given {x : Setting Settings} {s : Settings} (given : x.Given env s) : Honours env x s := by
  refine ⟨fun unset => ?_, fun text set v => ?_, fun octets set noText => ?_⟩
  · exact given.eq_default (by rw [get?, unset, Option.bind_none])
  · have writes := given.writes (get?_of_text set)
    constructor
    · exact fun writes' => writes'.unique writes
    · rintro rfl
      exact writes
  · exact given.eq_default (by rw [get?, set, Option.bind_some, noText])

/-- Settings that are loaded have the values that the texts of their variables write, and the default where a
variable is not set. A text that writes no value of its format is refused, whatever the other variables are
set to. A variable that is set to octets that are no text changes nothing: all is as if it were not set. -/
theorem ofEnvironment_honours (env : Environment) :
    (∀ s, ofEnvironment env = .ok (.ok s) → ∀ x ∈ allVariables, Honours env x s) ∧
    (∀ x ∈ allVariables, ∀ text, env.octets? x.name = some (Utf8.encode text) →
      (∀ v, ¬ x.format.Writes (Blank.trim text) v) → ∃ e, ofEnvironment env = .ok (.error e)) ∧
    ∀ name octets, env.octets? name = some octets → Utf8.decode? octets = none →
      ofEnvironment (env.unset name) = ofEnvironment env := by
  refine ⟨?_, ?_, ?_⟩
  · intro s got x mem
    exact honours_of_given (given_of_read (ofEnvironment_eq_read got) x mem)
  · intro x mem text set unwritten
    unfold ofEnvironment
    cases got : read env with
    | error e => exact ⟨e, rfl⟩
    | ok s => exact absurd ((given_of_read got x mem).writes (get?_of_text set)) (unwritten _)
  · intro name octets set noText
    exact ofEnvironment_congr (get?_unset set noText)

end Settings

namespace Sample

open Settings

/-- An environment with keys in which the port of the cache server is set to some octets. -/
def portSet (octets : List UInt8) : Environment :=
  ⟨("REDIS_PORT", octets) :: (Environment.ofTexts
    [("JWT_ALGORITHM", " hs256"), ("JWT_SECRET", "orange gate above the low river")]).bindings⟩

def withPort (port : UInt16) : Settings :=
  { tokens := { keys := .secret "orange gate above the low river" }, redis := { port } }

def port : Setting Settings := ⟨"REDIS_PORT", .unsigned 16, .number 6379, fun s => .number s.redis.port.toNat⟩

/-- A port that is set to a text is taken over or refused; one that is set to an octet that is no text is not
noticed. -/
theorem honours_port :
    (∀ v, port.format.Writes "+06380" v ↔ v = port.field (withPort 6380)) ∧
    (∃ e, ofEnvironment (portSet (Utf8.encode "65536")) = .ok (.error e)) ∧
    port.field (withPort 6379) = port.default ∧
    ofEnvironment ((portSet [0xff]).unset "REDIS_PORT") = .ok (.ok (withPort 6379)) := by
  have mem : port ∈ allVariables := by simp [allVariables, redisVariables, Setting.within, port, Function.comp_def]
  have loads {x : Except Fault (Except Error Settings)} {s : Settings}
      (eq : (x.toOption.bind Except.toOption) = some s) : x = .ok (.ok s) := by
    rcases x with f | e | s'
    · cases eq
    · cases eq
    · cases eq
      rfl
  have taken : ofEnvironment (portSet (Utf8.encode "+06380 ")) = .ok (.ok (withPort 6380)) :=
    loads (by decide +kernel)
  have unnoticed : ofEnvironment (portSet [0xff]) = .ok (.ok (withPort 6379)) := loads (by decide +kernel)
  refine ⟨?_, ?_, ?_, ?_⟩
  · have trimmed : Blank.trim "+06380 " = "+06380" := by decide +kernel
    have honours := (ofEnvironment_honours _).1 _ taken port mem
    rw [← trimmed]
    exact honours.text _ (by decide +kernel)
  · refine (ofEnvironment_honours _).2.1 port mem "65536" (by decide +kernel) ?_
    have trimmed : Blank.trim "65536" = "65536" := by decide +kernel
    have digits : ∀ c ∈ "65536".toList, c.isDigit = true := List.all_eq_true.mp (by decide)
    have writes : Integer.Numeral false "65536".toList 65536 := .bare (by decide) digits
    rw [trimmed]
    rintro _ (_ | ⟨numeral, fits⟩)
    have same := numeral.unique writes
    omega
  · exact ((ofEnvironment_honours _).1 _ unnoticed port mem).noText [0xff] (by decide +kernel) (by decide +kernel)
  · rw [(ofEnvironment_honours _).2.2 "REDIS_PORT" [0xff] (by decide +kernel) (by decide +kernel), unnoticed]

end Sample

end TokenAuthority
