import Redraw.Proofs.Animation.Run
import Redraw.Proofs.Cache.Twin

namespace Redraw

variable {τ σ : Type}

/-- A call of `draw` that has ended. -/
structure DrawCall where
  frame : Nat
  /-- The context was muted when it began -/
  muted : Bool
  error : Option SketchError := none

/-- The state of a sketch, and the calls of `draw` it has had. -/
structure Watched (τ : Type) where
  state : τ
  calls : List DrawCall := []

namespace Scene

def watched (s : Scene τ σ) (calls : List DrawCall) : Scene (Watched τ) σ := ⟨⟨s.state, calls⟩, s.context⟩

def unwatched (s : Scene (Watched τ) σ) : Scene τ σ := ⟨s.state.state, s.context⟩

def IsUnwatched (s : Scene (Watched τ) σ) (t : Scene τ σ) : Prop := t = s.unwatched

end Scene

namespace Sketch

def watched (sketch : Sketch τ σ) : Sketch (Watched τ) σ where
  setup s :=
    match sketch.setup s.unwatched with
    | .ok _ t => .ok () (t.watched s.state.calls)
    | .error e t => .error e (t.watched s.state.calls)
  draw frame s :=
    match sketch.draw frame s.unwatched with
    | .ok _ t => .ok () (t.watched (s.state.calls ++ [⟨frame, s.context.muted, none⟩]))
    | .error e t => .error e (t.watched (s.state.calls ++ [⟨frame, s.context.muted, some e⟩]))

variable {sketch : Sketch τ σ} {s : Scene (Watched τ) σ}

theorem watched_setup_ends {ok : Unit → Scene (Watched τ) σ → Prop}
    {fail : SketchError → Scene (Watched τ) σ → Prop}
    (h : Ends sketch.setup s.unwatched (fun a t => ok a (t.watched s.state.calls))
      fun e t => fail e (t.watched s.state.calls)) : Ends sketch.watched.setup s ok fail := by
  unfold Ends at h ⊢
  unfold watched
  cases hrun : sketch.setup s.unwatched with
  | ok a t =>
    rw [hrun] at h
    simpa only [hrun] using h
  | error e t =>
    rw [hrun] at h
    simpa only [hrun] using h

theorem watched_draw_ends {frame : Nat} {ok : Unit → Scene (Watched τ) σ → Prop}
    {fail : SketchError → Scene (Watched τ) σ → Prop}
    (h : Ends (sketch.draw frame) s.unwatched
      (fun a t => ok a (t.watched (s.state.calls ++ [⟨frame, s.context.muted, none⟩])))
      fun e t => fail e (t.watched (s.state.calls ++ [⟨frame, s.context.muted, some e⟩]))) :
    Ends (sketch.watched.draw frame) s ok fail := by
  unfold Ends at h ⊢
  unfold watched
  cases hrun : sketch.draw frame s.unwatched with
  | ok a t =>
    rw [hrun] at h
    simpa only [hrun] using h
  | error e t =>
    rw [hrun] at h
    simpa only [hrun] using h

end Sketch

/-! ### Watching changes nothing -/

section Transparent

variable {s : Scene (Watched τ) σ} {t : Scene τ σ} {sketch : Sketch τ σ}

theorem SceneM.onContext_unwatched {α : Type} (step : ContextM σ α) (h : s.IsUnwatched t) :
    Matches Scene.IsUnwatched (onContext step) (onContext step) s t := by
  have ht : t = s.unwatched := h
  subst ht
  unfold Matches Ends SceneM.onContext
  have hcontext : s.unwatched.context = s.context := rfl
  rw [hcontext]
  cases step s.context with
  | ok a c => exact ⟨_, rfl, rfl⟩
  | error e c => exact ⟨_, rfl, rfl⟩

theorem Sketch.watched_setup (h : s.IsUnwatched t) :
    Matches Scene.IsUnwatched sketch.watched.setup sketch.setup s t := by
  have ht : t = s.unwatched := h
  subst ht
  refine watched_setup_ends (Ends.intro ?_ ?_)
  · intro a t hrun
    exact ⟨t, hrun, rfl⟩
  · intro e t hrun
    exact ⟨t, hrun, rfl⟩

theorem Sketch.watched_draw (frame : Nat) (h : s.IsUnwatched t) :
    Matches Scene.IsUnwatched (sketch.watched.draw frame) (sketch.draw frame) s t := by
  have ht : t = s.unwatched := h
  subst ht
  refine watched_draw_ends (Ends.intro ?_ ?_)
  · intro a t hrun
    exact ⟨t, hrun, rfl⟩
  · intro e t hrun
    exact ⟨t, hrun, rfl⟩

namespace Animation

theorem during_matches {τ' α : Type} {R : Scene τ σ → Scene τ' σ → Prop} {step : SceneM τ σ α}
    {step' : SceneM τ' σ α} {s : Scene τ σ} {t : Scene τ' σ} (stage : Option RunStage)
    (h : Matches R step step' s t) : Matches R (during stage step) (during stage step') s t := by
  unfold Matches Ends during at *
  cases hrun : step s with
  | ok a s' =>
    rw [hrun] at h
    obtain ⟨t', hrun', hR⟩ := h
    refine ⟨t', ?_, hR⟩
    rw [hrun']
  | error e s' =>
    rw [hrun] at h
    obtain ⟨t', hrun', hR⟩ := h
    refine ⟨t', ?_, hR⟩
    rw [hrun']

theorem note_unwatched (event : Event) (h : s.IsUnwatched t) :
    Matches Scene.IsUnwatched (note event) (note event) s t := by
  have ht : t = s.unwatched := h
  subst ht
  exact .modify rfl

theorem muted_unwatched {step : RunM (Watched τ) σ Unit} {step' : RunM τ σ Unit}
    (hstep : ∀ {s t}, Scene.IsUnwatched s t → Matches Scene.IsUnwatched step step' s t)
    (h : s.IsUnwatched t) : Matches Scene.IsUnwatched (muted step) (muted step') s t := by
  have ht : t = s.unwatched := h
  subst ht
  have hmuted : Scene.IsUnwatched { s with context := s.context.setMuted true }
      { s.unwatched with context := s.unwatched.context.setMuted true } := rfl
  have hmatches := hstep hmuted
  unfold Matches Ends muted at *
  cases hrun : step { s with context := s.context.setMuted true } with
  | ok a s' =>
    rw [hrun] at hmatches
    obtain ⟨t', hrun', ht'⟩ := hmatches
    have ht' : t' = s'.unwatched := ht'
    subst ht'
    refine ⟨{ s'.unwatched with context := s'.context.setMuted false }, ?_, rfl⟩
    rw [hrun']
    rfl
  | error e s' =>
    rw [hrun] at hmatches
    obtain ⟨t', hrun', ht'⟩ := hmatches
    have ht' : t' = s'.unwatched := ht'
    subst ht'
    refine ⟨{ s'.unwatched with context := s'.context.setMuted false }, ?_, rfl⟩
    rw [hrun']
    rfl

theorem drawSkipped_unwatched (count frame : Nat) (h : s.IsUnwatched t) :
    Matches Scene.IsUnwatched (drawSkipped sketch.watched frame count) (drawSkipped sketch frame count)
      s t := by
  induction count generalizing frame s t with
  | zero => exact .pure h
  | succ count ih =>
    unfold drawSkipped
    refine (during_matches _ (Sketch.watched_draw frame h)).bind ?_
    intro _ s₁ t₁ h₁
    exact ih (frame + 1) h₁

variable [Surface σ]

theorem showFrame_unwatched (a : Animation) (frame : Nat) (h : s.IsUnwatched t) :
    Matches Scene.IsUnwatched (showFrame a sketch.watched frame) (showFrame a sketch frame) s t := by
  unfold showFrame
  refine (during_matches _ (SceneM.onContext_unwatched _ h)).bind ?_
  intro _ s₁ t₁ h₁
  refine (during_matches _ (Sketch.watched_draw frame h₁)).bind ?_
  intro _ s₂ t₂ h₂
  refine (during_matches _ (SceneM.onContext_unwatched _ h₂)).bind ?_
  intro _ s₃ t₃ h₃
  have ht₃ : t₃ = s₃.unwatched := h₃
  subst ht₃
  refine .get_bind ((note_unwatched _ rfl).bind ?_)
  intro _ s₄ t₄ h₄
  exact .pure h₄

theorem showFrames_unwatched (a : Animation) (left frame : Nat) (reports : Array FrameReport)
    (h : s.IsUnwatched t) :
    Matches Scene.IsUnwatched (showFrames a sketch.watched left frame reports)
      (showFrames a sketch left frame reports) s t := by
  induction left generalizing frame reports s t with
  | zero => exact .pure h
  | succ left ih =>
    have hshow : ∀ skipped {s : Scene (Watched τ) σ} {t : Scene τ σ}, s.IsUnwatched t →
        Matches Scene.IsUnwatched
          (showFrame a sketch.watched (frame + skipped) >>= fun report =>
            showFrames a sketch.watched left (frame + skipped + 1) (reports.push report))
          (showFrame a sketch (frame + skipped) >>= fun report =>
            showFrames a sketch left (frame + skipped + 1) (reports.push report)) s t := by
      intro skipped s t h
      refine (showFrame_unwatched a _ h).bind ?_
      intro report s₁ t₁ h₁
      exact ih _ _ h₁
    unfold showFrames
    dsimp only
    generalize (if frame = 0 then 0 else a.skipFrames) = skipped
    split
    · refine (muted_unwatched (drawSkipped_unwatched skipped frame) h).bind ?_
      intro _ s₁ t₁ h₁
      exact hshow skipped h₁
    · exact hshow skipped h

theorem runFrames_unwatched (a : Animation) (sketch : Sketch τ σ) (h : s.IsUnwatched t) :
    Matches Scene.IsUnwatched (runFrames a sketch.watched) (runFrames a sketch) s t := by
  unfold runFrames
  refine (during_matches _ (Sketch.watched_setup h)).bind ?_
  intro _ s₁ t₁ h₁
  refine (note_unwatched _ h₁).bind ?_
  intro _ s₂ t₂ h₂
  refine (showFrames_unwatched a _ _ _ h₂).bind ?_
  intro _ s₃ t₃ h₃
  exact (note_unwatched _ h₃).bind fun _ _ _ h₄ => .pure h₄

/-- A run is the same whether or not its sketch is watched. -/
theorem run_unwatched (a : Animation) (sketch : Sketch τ σ) (h : s.IsUnwatched t) :
    Matches Scene.IsUnwatched (a.run sketch.watched) (a.run sketch) s t := by
  have hframes := runFrames_unwatched a sketch h
  have hclear : ∀ {s : Scene (Watched τ) σ} {t : Scene τ σ}, s.IsUnwatched t →
      Matches Scene.IsUnwatched cleanUp cleanUp s t := fun h =>
    during_matches _ (SceneM.onContext_unwatched _ h)
  apply run_ends
  refine hframes.imp ?_ ?_
  · intro reports s₁ ⟨t₁, hrun, h₁⟩
    refine (hclear h₁).imp ?_ ?_
    · intro _ s₂ ⟨t₂, hrun₂, h₂⟩
      exact ⟨t₂, run_of_ok hrun hrun₂, h₂⟩
    · intro e s₂ ⟨t₂, hrun₂, h₂⟩
      exact ⟨t₂, run_of_unclear hrun hrun₂, h₂⟩
  · intro e s₁ ⟨t₁, hrun, h₁⟩
    refine (hclear h₁).imp ?_ ?_
    · intro _ s₂ ⟨t₂, hrun₂, h₂⟩
      exact ⟨t₂, run_of_error hrun (Or.inl hrun₂), h₂⟩
    · intro e' s₂ ⟨t₂, hrun₂, h₂⟩
      exact ⟨t₂, run_of_error hrun (Or.inr ⟨e', hrun₂⟩), h₂⟩

end Animation

end Transparent

end Redraw
