import TokenAuthority.Proofs.Effect.Schedule

/-!
# A run is a schedule of one call

A call that is answered to its end while all others rest takes one way through the schedules: each
question is answered when it is asked, and time passes only while the call waits. What holds of all
schedules so holds of whole runs: `Scene.steps_record`, and for actions `Scene.steps_action`.
-/

namespace TokenAuthority.Scene

variable {σ κ α : Type} {backend : Cache.Backend σ} {flow : κ → Flow α}

theorem move_last {w w' : World σ} {others : List (Strand σ κ α)} {k : κ} {h : History}
    {place : Except Fault (Pool.Member σ α)} {e : Event} {f : Flow α} :
    (Scene.mk w (others ++ [⟨k, h, place⟩])).move backend others.length ⟨k, h, place⟩ e f w' =
      ⟨(take backend f w').2, others ++ [⟨k, h ++ [e], (take backend f w').1⟩]⟩ := by
  simp [move]

/-- What is left of the last call can be answered to its end. -/
theorem steps_record {k : κ} {others : List (Strand σ κ α)} {a : α} (f : Flow α) {w : World σ}
    {h : History} (ended : (f.record backend w).2.1 = .value a) :
    Steps backend flow ⟨(take backend f w).2, others ++ [⟨k, h, (take backend f w).1⟩]⟩
      ⟨(f.record backend w).2.2,
        others ++ [⟨k, h ++ (f.record backend w).1, .ok (.ended a)⟩]⟩ := by
  induction f generalizing w h with
  | done a' =>
      cases ended
      simp only [Flow.record, List.append_nil]
      exact .refl _
  | fault e => cases ended
  | ask q next ih =>
      have here : (others ++ [(⟨k, h, .ok (.asking q next)⟩ : Strand σ κ α)])[others.length]? =
          some ⟨k, h, .ok (.asking q next)⟩ := List.getElem?_concat_length
      have step : Step backend flow ⟨w, others ++ [⟨k, h, .ok (.asking q next)⟩]⟩ _ _ := .ask here rfl
      have rest := ih (w.answer q).1 (w := (w.answer q).2)
        (h := h ++ [.answered w.now q (w.answer q).1]) ended
      rw [List.append_assoc] at rest
      rw [move_last] at step
      exact .trans (.snoc (.refl _) step) rest
  | await wait ds next ih =>
      rcases Flow.record_await backend next w with ⟨_, endless⟩ | ⟨tick, x, settled, _, settles, recorded⟩
      · rw [endless] at ended
        cases ended
      · let begun := w.await backend wait ds
        let strand : Strand σ κ α := ⟨k, h, .ok (.waiting wait begun.2 next)⟩
        have here : (others ++ [strand])[others.length]? = some strand := List.getElem?_concat_length
        have passes : Step backend flow ⟨begun.1, others ++ [strand]⟩ none
            ⟨begun.1.advanceTo tick, others ++ [strand]⟩ :=
          .pass _ ⟨Span.nanosPerMilli * (tick - begun.1.now.tick)⟩
        have step : Step backend flow ⟨begun.1.advanceTo tick, others ++ [strand]⟩ _ _ :=
          .settle here rfl settles
        rw [recorded] at ended ⊢
        have rest := ih x (w := settled)
          (h := h ++ [.ended (w.now.advanceTo tick) wait ds x]) ended
        rw [List.append_assoc] at rest
        rw [move_last, World.now_advanceTo, World.now_await, Pool.deadlines_await] at step
        exact .trans (.snoc (.snoc (.refl _) passes) step) rest

/-- A call can enter and be answered to its end. -/
theorem steps_enter {k : κ} {S : Scene σ κ α} {a : α}
    (ended : ((flow k).record backend S.world).2.1 = .value a) :
    Steps backend flow S ⟨((flow k).record backend S.world).2.2,
      S.strands ++ [⟨k, ((flow k).record backend S.world).1, .ok (.ended a)⟩]⟩ :=
  .trans (.snoc (.refl S) (.enter S k)) (steps_record (flow k) ended)

/-- Where there is one call, all that is seen is what it has seen. -/
theorem mem_of_seen {w : World σ} {strand : Strand σ κ α} {i : Nat} {e : Event}
    (mem : e ∈ (Scene.mk w [strand]).seen i) : e ∈ strand.seen := by
  cases i with
  | zero => exact mem
  | succ i => cases mem

/-- A whole run of an action is a schedule with one call, which ends as the run does. -/
theorem steps_action {β : Type} {action : Action β} {w w' : World σ} {x : β}
    (run : action.run backend w = (.value x, w')) :
    Steps backend (fun _ : Unit => action.start) ⟨w, []⟩
      ⟨w', [⟨(), action.history backend w, .ok (.ended (some x))⟩]⟩ := by
  have recorded := Flow.record_snd backend action.start w
  unfold Action.run at run
  split at run
  · rename_i ran
    cases run
    rw [ran] at recorded
    have enters := @steps_enter σ Unit (Option β) backend (fun _ => action.start) () ⟨w, []⟩ _
      (congrArg Prod.fst recorded)
    rw [congrArg Prod.snd recorded] at enters
    exact enters
  · cases run
  · cases run
  · cases run

end TokenAuthority.Scene
