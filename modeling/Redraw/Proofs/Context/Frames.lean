import Redraw.Proofs.Context.Batching
import Redraw.Proofs.Context.Steps

namespace Redraw

variable {τ σ : Type}

namespace Context

variable {c c' : Context σ} {command : Command}

/-- There is a style exactly for what is held back, and a frame is drawn as long as anything is. -/
structure Orderly (c : Context σ) : Prop where
  empty_iff : c.batch = #[] ↔ c.batchStyle = none
  drawing : c.batch ≠ #[] → c.cache.isDrawing = true

theorem orderly_onCanvas (surface : σ) (width height : Float) :
    (onCanvas surface width height).Orderly := ⟨iff_of_true rfl rfl, fun hheld => absurd rfl hheld⟩

theorem Orderly.idle (h : c.Orderly) (hidle : c.cache.isDrawing = false) : c.batch = #[] := by
  apply Classical.byContradiction
  intro hheld
  exact absurd (hidle.symm.trans (h.drawing hheld)) nofun

theorem Orderly.tidy (h : c.Orderly) : c.Tidy :=
  ⟨h.empty_iff.mpr, fun hidle => h.empty_iff.mp (h.idle hidle)⟩

theorem hold_batch_ne (c : Context σ) (grid : Nat) (r : Rect) : (c.hold grid r).batch ≠ #[] :=
  Array.push_ne_empty

theorem Enqueued.batch_ne {style : Style} {grid : Nat} {r : Rect} (h : Enqueued c style grid r c') :
    c'.batch ≠ #[] := by
  unfold Enqueued at h
  split at h
  · subst h
    exact hold_batch_ne c grid r
  · obtain ⟨c₁, -, rfl⟩ := h
    exact hold_batch_ne { c₁ with batchStyle := some style } grid r

theorem Handled.orderly (h : c.Orderly) (hhandled : Handled c command c') : c'.Orderly := by
  cases hhandled with
  | left hbatch hstyle _ hdrawing =>
    refine ⟨?_, ?_⟩
    · rw [hbatch, hstyle]
      exact h.empty_iff
    · rw [hbatch]
      exact fun hheld => hdrawing (h.drawing hheld)
  | regridded hset =>
    subst hset
    exact ⟨h.empty_iff, h.drawing⟩
  | emptied hbatch hstyle =>
    exact ⟨iff_of_true hbatch hstyle, fun hheld => absurd hbatch hheld⟩
  | queued hqueues henqueued =>
    obtain ⟨hstyled, hdrawing, -⟩ := henqueued.isSome (queues_eq_some_iff.mp hqueues).2.1
    refine ⟨iff_of_false henqueued.batch_ne ?_, fun _ => hdrawing⟩
    exact Option.isSome_iff_ne_none.mp hstyled

variable [Surface σ]

theorem lasting_orderly : Lasting (Orderly (σ := σ)) where
  command command s h := (run_handled command s h.tidy).both fun _ hhandled => hhandled.orderly h
  note _ _ h := ⟨h.empty_iff, h.drawing⟩

/-- A frame that is ended leaves nothing held back, drawn or not. -/
theorem endFrame_empties (h : c.Tidy) (hheard : c.muted = false) :
    Ends endFrame c (fun _ c' => c'.batch = #[]) fun _ c' => c'.batch = #[] := by
  refine Ends.of_eq (whenHeard_of_heard hheard _) (Ends.bind ((flushBatch_ends h).imp ?_ ?_))
  · rintro _ _ ⟨cache, -, rfl⟩
    exact onCache_ends (Ends.trivial.both fun _ _ => rfl)
  · rintro _ _ ⟨cache, -, rfl⟩
    rfl

theorem teardown_empties (c : Context σ) :
    Ends teardown c (fun _ c' => c'.batch = #[]) fun _ c' => c'.batch = #[] :=
  Ends.bind (Ends.modify (onCache_ends (Ends.trivial.both fun _ _ => rfl)))

end Context

theorem SceneM.onContext_after {s : Scene τ σ} {step : ContextM σ Unit} {p : Context σ → Prop}
    (h : Ends step s.context (fun _ c' => p c') fun _ c' => p c') :
    p (stateAfter (SceneM.onContext step) s).context :=
  Ends.stateAfter (p := fun s' : Scene τ σ => p s'.context) (SceneM.onContext_ends h)

variable [Surface σ]

namespace Step

variable {t : Step τ σ}

theorem batch_of_endFrame (h : t.before.context.Orderly) (hcommand : t.command = .endFrame)
    (hheard : t.before.context.muted = false) : t.after.context.batch = #[] := by
  rw [after, hcommand]
  exact SceneM.onContext_after (p := fun c => c.batch = #[])
    (Context.endFrame_empties h.tidy hheard)

theorem batch_of_teardown (hcommand : t.command = .teardown) : t.after.context.batch = #[] := by
  rw [after, hcommand]
  exact SceneM.onContext_after (p := fun c => c.batch = #[])
    (Context.teardown_empties t.before.context)

theorem Opens.batch (hopens : t.Opens) (h : t.before.context.Orderly) :
    t.before.context.batch = #[] ∧ t.after.context.batch = #[] := by
  obtain ⟨hcommand, hheard, hanswered⟩ := hopens
  have hbefore : t.before.context.batch = #[] := by
    apply h.idle
    rw [Bool.eq_false_iff]
    exact fun hdrawing => hanswered (fails_of_drawing hcommand hheard hdrawing)
  refine ⟨hbefore, ?_⟩
  rw [after, hcommand]
  apply SceneM.onContext_after (p := fun c => c.batch = #[])
  refine (Context.beginFrame_ends t.before.context).both ?_
  rintro _ ⟨cache, rfl, -⟩
  exact hbefore

end Step

namespace Scene

/-- Nothing is held back but within a frame, after whatever commands on whatever surface. A frame that is
ended or removed leaves nothing held back, and one that is opened finds nothing. -/
theorem held_within_frame (surface : σ) (width height : Float) (state : τ) (commands : List Command) :
    let s : Scene τ σ := afterAll ⟨state, Context.onCanvas surface width height⟩ commands
    (s.context.batch = #[] ↔ s.context.batchStyle = none) ∧
      (s.context.batch ≠ #[] → s.cache.isDrawing = true) ∧
      (s.context.muted = false → (Step.mk s .endFrame).after.context.batch = #[]) ∧
      (Step.mk s .teardown).after.context.batch = #[] ∧
      ((Step.mk s .beginFrame).Opens →
        s.context.batch = #[] ∧ (Step.mk s .beginFrame).after.context.batch = #[]) := by
  intro s
  have h : s.context.Orderly :=
    lasting_afterAll Context.lasting_orderly (Context.orderly_onCanvas surface width height) commands
  refine ⟨h.empty_iff, h.drawing, ?_, Step.batch_of_teardown rfl, ?_⟩
  · exact fun hheard => Step.batch_of_endFrame h rfl hheard
  · exact fun hopens => hopens.batch h

def squareHeld : Scene Unit Recorder := afterAll ⟨(), Context.onCanvas Recorder.empty 4.0 4.0⟩
  [.beginFrame, .noStroke, .rect ⟨0.0, 0.0, 2.0, 2.0⟩]

/-- The first frame opens with nothing held back, and the square is gone when it is ended or removed. -/
theorem held_within_frame_square :
    squareHeld.context.batch ≠ #[] ∧ squareHeld.context.batchStyle ≠ none ∧
      squareHeld.cache.isDrawing = true ∧ squareHeld.context.muted = false ∧
      (Step.mk squareHeld .endFrame).after.context.batch = #[] ∧
      (Step.mk squareHeld .teardown).after.context.batch = #[] ∧
      ∃ t : Step Unit Recorder, t.Opens ∧ t.after.context.batch = #[] := by
  obtain ⟨hempty, hdrawing, hended, hremoved, -⟩ := held_within_frame Recorder.empty 4.0 4.0 ()
    [.beginFrame, .noStroke, .rect ⟨0.0, 0.0, 2.0, 2.0⟩]
  obtain ⟨-, -, -, -, hopened⟩ := held_within_frame Recorder.empty 4.0 4.0 () []
  have hheld : squareHeld.context.batch ≠ #[] := by decide +kernel
  have hheard : squareHeld.context.muted = false := by decide +kernel
  have hopens : (Step.mk (⟨(), Context.onCanvas Recorder.empty 4.0 4.0⟩ : Scene Unit Recorder)
      .beginFrame).Opens := by
    refine ⟨rfl, rfl, ?_⟩
    rintro ⟨_, hrun⟩
    exact absurd ((Command.beginFrame_ends rfl).of_error hrun).1 nofun
  unfold squareHeld at hheld hheard ⊢
  exact ⟨hheld, fun hnone => hheld (hempty.mpr hnone), hdrawing hheld, hheard, hended hheard, hremoved,
    _, hopens, (hopened hopens).2⟩

end Scene

end Redraw
