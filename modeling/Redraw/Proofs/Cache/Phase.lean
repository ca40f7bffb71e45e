import Redraw.Proofs.Cache.Calls

namespace Redraw.Cache

variable {σ α : Type} {P : Cache σ → Prop} {phase : Phase}

/-- The property is not about the surface, the shapes that wait or the journal. -/
def Aside (P : Cache σ → Prop) : Prop := ∀ c surface previous journal, P c →
  P { c with surface := surface, previous := previous, journal := journal }

def InPhase (phase : Phase) (c : Cache σ) : Prop := c.phase = phase

theorem aside_inPhase : Aside (InPhase phase : Cache σ → Prop) := fun _ _ _ _ h => h

theorem clear_endsPhase (c : Cache σ) :
    Ends clear c (fun _ c' => c'.phase = .drawing) fun _ c' => c'.phase = c.phase := by
  unfold clear
  refine Ends.bind (Ends.get ?_)
  cases c.isDrawing with
  | true => exact Ends.bind (Ends.throw rfl)
  | false => exact Ends.modify rfl

/-! ### Calls and shapes that wait -/

section Aside

variable (hP : Aside P)
include hP

theorem onSurface_keeps (act : EStateM SurfaceError σ α) : Keeps P (onSurface act) := by
  intro c hc
  unfold Ends onSurface
  cases act c.surface <;> exact hP c _ c.previous c.journal hc

theorem ofCalls_keeps : OfCalls fun step : CacheM σ _ => Keeps P step where
  done := Keeps.pure
  next := Keeps.bind
  call := onSurface_keeps hP
  refuse _ := Keeps.throw _

variable [Surface σ]

theorem releasePrevious_keeps : Keeps P (releasePrevious : CacheM σ Unit) := by
  unfold releasePrevious
  refine .bind .get fun c => ?_
  refine .bind (.modify fun c hc => hP c c.surface none c.journal hc) fun _ => ?_
  exact (ofCalls_keeps hP).removeAll _

theorem update_keeps (handle : Handle) (g : Geometry) (s : Style) :
    Keeps P (update handle g s : CacheM σ Bool) := (ofCalls_keeps hP).update handle g s

end Aside

/-! ### Frames and requests -/

theorem flush_endsIdle [Surface σ] (c : Cache σ) :
    Ends flush c (fun _ c' => c'.isDrawing = false) fun _ _ => True := by
  refine flush_rule (fun hidle => hidle) fun _ journal => ?_
  refine (releasePrevious_keeps aside_inPhase _ rfl).imp ?_ fun _ _ _ => trivial
  intro _ c' hphase
  show (c'.phase == .drawing) = false
  rw [hphase]
  rfl

theorem add_keepsPhase [Surface σ] (g : Geometry) (s : Style) :
    Keeps (InPhase phase) (add g s : CacheM σ Handle) := by
  intro c hc
  refine add_rule (fun _ => hc) ?_ ?_
  · intro _ entry rest _ _
    exact update_keeps aside_inPhase entry.handle g s { c with previous := some rest } hc
  · intro _ _ journal
    refine (releasePrevious_keeps aside_inPhase { c with journal := journal } hc).imp_ok ?_
    intro _ c₁ hc₁
    exact onSurface_keeps aside_inPhase (Surface.create g s) c₁ hc₁

end Redraw.Cache
