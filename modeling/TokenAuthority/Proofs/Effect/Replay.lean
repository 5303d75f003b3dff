import TokenAuthority.Proofs.Effect.Schedule

/-!
# Schedules replayed

A schedule is told by its moves: which call enters, which one goes on or is left by its caller, and how
much time passes. Everything else follows.

* `Scene.Move`, `Scene.play?`, `Scene.replay?` — a move, what comes of it, and what comes of many.
* `Scene.steps_iff_replay?` — the schedules are what can be replayed.
* `Scene.replay?_congr`, `Scene.calls_of_replay?` — the flows of the calls that enter are all that matters,
  and there are no other calls.
-/

namespace TokenAuthority.Scene

/-- What happens next in a schedule. -/
inductive Move (κ : Type) where
  | enter (call : κ)
  /-- The call with a number asks its question, or its wait is over. -/
  | go (i : Nat)
  /-- The caller of the waiting call with a number goes. -/
  | leave (i : Nat)
  | pass (s : Span)

/-- The call that enters with a move. -/
def Move.entered? {κ : Type} : Move κ → Option κ
  | .enter k => some k
  | _ => none

variable {σ κ α : Type} (backend : Cache.Backend σ) (flow : κ → Flow α)

/-- The scene after the call at a place goes on, if it can. -/
def goOn? (S : Scene σ κ α) (i : Nat) (strand : Strand σ κ α) :
    Pool.Member σ α → Option (Scene σ κ α)
  | .asking q next =>
    let r := S.world.answer q
    some (S.move backend i strand (.answered S.world.now q r.1) (next r.1) r.2)
  | .waiting wait started next =>
    (started.settle? S.world).map fun r =>
      S.move backend i strand (.ended S.world.now wait started.deadlines r.1) (next r.1) r.2
  | .ended _ => none

/-- The scene after the caller of the call at a place goes, if the call is waiting. -/
def left? (S : Scene σ κ α) (i : Nat) (strand : Strand σ κ α) :
    Pool.Member σ α → Option (Scene σ κ α)
  | .waiting wait started next =>
    let gone : Except Interruption wait.Answer := .error (.deadline started.deadlines.length)
    some (S.move backend i strand (.ended S.world.now wait started.deadlines gone) (next gone) S.world)
  | _ => none

/-- The call with a number and its member of the pool, if it has not ended in a fault. -/
def standing? (S : Scene σ κ α) (i : Nat) : Option (Strand σ κ α × Pool.Member σ α) :=
  S.strands[i]?.bind fun strand => strand.place.toOption.map fun m => (strand, m)

/-- The scene after a move, if the move can be made. -/
def play? (S : Scene σ κ α) : Move κ → Option (Scene σ κ α)
  | .enter k =>
    let r := take backend (flow k) S.world
    some ⟨r.2, S.strands ++ [⟨k, [], r.1⟩]⟩
  | .go i => (S.standing? i).bind fun r => S.goOn? backend i r.1 r.2
  | .leave i => (S.standing? i).bind fun r => S.left? backend i r.1 r.2
  | .pass s => some ⟨S.world.advance s, S.strands⟩

/-- The scene after some moves, if they can be made one after the other. -/
def replay? (S : Scene σ κ α) (moves : List (Move κ)) : Option (Scene σ κ α) :=
  moves.foldlM (play? backend flow) S

variable {backend flow} {S S' S'' : Scene σ κ α}

theorem replay?_trans {moves moves' : List (Move κ)} (first : S.replay? backend flow moves = some S')
    (second : S'.replay? backend flow moves' = some S'') :
    S.replay? backend flow (moves ++ moves') = some S'' := by
  rw [replay?, List.foldlM_append]
  exact Option.bind_eq_some_iff.mpr ⟨S', first, second⟩

theorem standing?_eq_some {i : Nat} {r : Strand σ κ α × Pool.Member σ α} :
    S.standing? i = some r ↔ S.strands[i]? = some r.1 ∧ r.1.place = .ok r.2 := by
  obtain ⟨strand, m⟩ := r
  simp only [standing?, Option.bind_eq_some_iff, Option.map_eq_some_iff, Prod.mk.injEq]
  constructor
  · rintro ⟨strand', found, m', stands, rfl, rfl⟩
    match place : strand'.place with
    | .ok m =>
        rw [place] at stands
        cases stands
        exact ⟨found, rfl⟩
    | .error e =>
        rw [place] at stands
        cases stands
  · rintro ⟨found, stands⟩
    exact ⟨strand, found, m, by rw [stands]; rfl, rfl, rfl⟩

theorem step_of_play? {move : Move κ} (played : S.play? backend flow move = some S') :
    ∃ l, Step backend flow S l S' := by
  cases move with
  | enter k =>
      cases played
      exact ⟨_, .enter S k⟩
  | pass s =>
      cases played
      exact ⟨_, .pass S s⟩
  | go i =>
      obtain ⟨⟨strand, m⟩, standing, went⟩ := Option.bind_eq_some_iff.mp played
      obtain ⟨found, stands⟩ := standing?_eq_some.mp standing
      cases m with
      | asking q next =>
          cases went
          exact ⟨_, .ask found stands⟩
      | ended a => cases went
      | waiting wait started next =>
          obtain ⟨r, settles, same⟩ := Option.map_eq_some_iff.mp went
          cases same
          exact ⟨_, .settle found stands settles⟩
  | leave i =>
      obtain ⟨⟨strand, m⟩, standing, went⟩ := Option.bind_eq_some_iff.mp played
      obtain ⟨found, stands⟩ := standing?_eq_some.mp standing
      cases m with
      | asking q next => cases went
      | ended a => cases went
      | waiting wait started next =>
          cases went
          exact ⟨_, .leave found stands⟩

theorem play?_of_step {l : Option (Nat × Event)} (step : Step backend flow S l S') :
    ∃ move, S.play? backend flow move = some S' := by
  cases step with
  | enter k => exact ⟨.enter k, rfl⟩
  | pass s => exact ⟨.pass s, rfl⟩
  | @ask i strand q next found stands =>
      refine ⟨.go i, ?_⟩
      rw [play?, standing?_eq_some (r := (strand, _)).mpr ⟨found, stands⟩]
      rfl
  | @settle i strand wait started next x w found stands settles =>
      refine ⟨.go i, ?_⟩
      rw [play?, standing?_eq_some (r := (strand, _)).mpr ⟨found, stands⟩, Option.bind_some, goOn?,
        settles]
      rfl
  | @leave i strand wait started next found stands =>
      refine ⟨.leave i, ?_⟩
      rw [play?, standing?_eq_some (r := (strand, _)).mpr ⟨found, stands⟩]
      rfl

/-- The schedules are what can be replayed. -/
theorem steps_iff_replay? :
    Steps backend flow S S' ↔ ∃ moves, S.replay? backend flow moves = some S' := by
  constructor
  · intro steps
    induction steps with
    | refl => exact ⟨[], rfl⟩
    | snoc _ step ih =>
        obtain ⟨moves, replayed⟩ := ih
        obtain ⟨move, played⟩ := play?_of_step step
        exact ⟨moves ++ [move], replay?_trans replayed (by simpa [replay?] using played)⟩
  · rintro ⟨moves, replayed⟩
    induction moves generalizing S with
    | nil =>
        cases replayed
        exact .refl _
    | cons move moves ih =>
        obtain ⟨S₁, played, rest⟩ := Option.bind_eq_some_iff.mp replayed
        obtain ⟨l, step⟩ := step_of_play? played
        exact (Steps.snoc (.refl S) step).trans (ih rest)

/-- The flows of the calls that enter are all that matters. -/
theorem replay?_congr {flow' : κ → Flow α} {moves : List (Move κ)}
    (same : ∀ k ∈ moves.filterMap Move.entered?, flow k = flow' k) :
    S.replay? backend flow moves = S.replay? backend flow' moves := by
  induction moves generalizing S with
  | nil => rfl
  | cons move moves ih =>
      have first : S.play? backend flow move = S.play? backend flow' move := by
        cases move with
        | enter k => simp only [play?, same k (by simp [Move.entered?])]
        | go i => rfl
        | leave i => rfl
        | pass s => rfl
      have rest : ∀ k ∈ moves.filterMap Move.entered?, flow k = flow' k := fun k mem => same k (by
        obtain ⟨m, here, entered⟩ := List.mem_filterMap.mp mem
        exact List.mem_filterMap.mpr ⟨m, List.mem_cons_of_mem _ here, entered⟩)
      simp only [replay?, List.foldlM_cons, first]
      exact congrArg _ (funext fun S => ih rest)

/-! ### Calls of a replayed schedule -/

/-- Where a call goes on does not change which calls there are. -/
theorem map_call_set {i : Nat} {strand strand' : Strand σ κ α} (found : S.strands[i]? = some strand)
    (same : strand'.call = strand.call) :
    (S.strands.set i strand').map Strand.call = S.strands.map Strand.call := by
  obtain ⟨inside, here⟩ := List.getElem?_eq_some_iff.mp found
  rw [List.map_set, same, ← here, ← List.getElem_map Strand.call (h := by simpa using inside)]
  exact List.set_getElem_self _

/-- A move adds the call that enters with it. -/
theorem calls_of_play? {move : Move κ} (played : S.play? backend flow move = some S') :
    S'.strands.map Strand.call = S.strands.map Strand.call ++ move.entered?.toList := by
  cases move with
  | enter k =>
      cases played
      exact List.map_append
  | pass s =>
      cases played
      exact (List.append_nil _).symm
  | go i =>
      obtain ⟨⟨strand, m⟩, standing, went⟩ := Option.bind_eq_some_iff.mp played
      obtain ⟨found, _⟩ := standing?_eq_some.mp standing
      change _ = S.strands.map Strand.call ++ []
      rw [List.append_nil]
      cases m with
      | asking q next =>
          cases went
          exact map_call_set found rfl
      | ended a => cases went
      | waiting wait started next =>
          obtain ⟨r, _, same⟩ := Option.map_eq_some_iff.mp went
          cases same
          exact map_call_set found rfl
  | leave i =>
      obtain ⟨⟨strand, m⟩, standing, went⟩ := Option.bind_eq_some_iff.mp played
      obtain ⟨found, _⟩ := standing?_eq_some.mp standing
      change _ = S.strands.map Strand.call ++ []
      rw [List.append_nil]
      cases m with
      | asking q next => cases went
      | ended a => cases went
      | waiting wait started next =>
          cases went
          exact map_call_set found rfl

/-- The calls of a schedule are those that have entered. -/
theorem calls_of_replay? {moves : List (Move κ)} (replayed : S.replay? backend flow moves = some S') :
    S'.strands.map Strand.call = S.strands.map Strand.call ++ moves.filterMap Move.entered? := by
  induction moves generalizing S with
  | nil =>
      cases replayed
      exact (List.append_nil _).symm
  | cons move moves ih =>
      obtain ⟨S₁, played, rest⟩ := Option.bind_eq_some_iff.mp replayed
      rw [ih rest, calls_of_play? played, List.append_assoc, List.filterMap_cons]
      cases move.entered? <;> rfl

/-- The calls of a schedule that began without any are numbered as they have entered. -/
theorem call?_of_replay? {w : World σ} {moves : List (Move κ)}
    (replayed : replay? backend flow ⟨w, []⟩ moves = some S) (i : Nat) :
    S.call? i = (moves.filterMap Move.entered?)[i]? := by
  rw [call?, ← List.getElem?_map, calls_of_replay? replayed]
  rfl

end TokenAuthority.Scene
