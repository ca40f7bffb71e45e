import Redraw.Animation
import Redraw.Proofs.Context.Lasting

namespace Redraw

variable {τ σ : Type} {P : Context σ → Prop}

/-- Neither the setup of the sketch nor its drawing breaks the property. -/
structure Sketch.Respects (sketch : Sketch τ σ) (P : Context σ → Prop) : Prop where
  setup : Keeps (fun s : Scene τ σ => P s.context) sketch.setup
  draw : ∀ frame, Keeps (fun s : Scene τ σ => P s.context) (sketch.draw frame)

section Scripts

variable [Surface σ]

theorem Context.Lasting.runAll (h : Context.Lasting P) (commands : List Command) :
    Keeps (fun s : Scene τ σ => P s.context) (Command.runAll commands) := by
  induction commands with
  | nil => exact .pure ()
  | cons command rest ih => exact (h.command command).bind fun _ => ih

theorem Context.Lasting.script (h : Context.Lasting P) (script : Script) :
    (script.sketch (σ := σ)).Respects P where
  setup := h.runAll script.setup
  draw _ := .bind (.modify fun _ hs => hs) fun _ => h.runAll _

theorem Context.Lasting.setMuted (h : Context.Lasting P) {c : Context σ} (muted : Bool) (hc : P c) :
    P (c.setMuted muted) := (h.command (.setMuted muted) (⟨(), c⟩ : Scene Unit σ) hc).of_ok rfl

end Scripts

namespace Animation

/-! ### Stages -/

theorem during_ends {α : Type} {stage : Option RunStage} {step : SceneM τ σ α} {s : Scene τ σ}
    {ok : α → Scene τ σ → Prop} {fail : RunError → Scene τ σ → Prop}
    (h : Ends step s ok fun e s' => fail ⟨stage, e⟩ s') : Ends (during stage step) s ok fail := by
  unfold Ends at h ⊢
  unfold during
  cases hrun : step s <;> rw [hrun] at h <;> exact h

theorem muted_ends {step : RunM τ σ Unit} {s : Scene τ σ} {ok : Unit → Scene τ σ → Prop}
    {fail : RunError → Scene τ σ → Prop}
    (h : Ends step { s with context := s.context.setMuted true }
      (fun a s' => ok a { s' with context := s'.context.setMuted false })
      fun e s' => fail e { s' with context := s'.context.setMuted false }) :
    Ends (muted step) s ok fail := by
  unfold Ends at h ⊢
  unfold muted
  cases hrun : step { s with context := s.context.setMuted true } <;> rw [hrun] at h <;> exact h

theorem during_raises {α : Type} {stage : Option RunStage} {step : SceneM τ σ α} {s : Scene τ σ}
    {fail : RunError → Scene τ σ → Prop} (hkeeps : Keeps (fun s : Scene τ σ => P s.context) step)
    (hs : P s.context) (hraise : ∀ cause s', step s = .error cause s' → fail ⟨stage, cause⟩ s') :
    Ends (during stage step) s (fun _ s' => P s'.context) fun e s' => P s'.context ∧ fail e s' := by
  apply during_ends
  apply Ends.intro
  · intro a s' hrun
    exact (hkeeps s hs).of_ok hrun
  · intro cause s' hrun
    exact ⟨(hkeeps s hs).of_error hrun, hraise cause s' hrun⟩

theorem drawSkipped_ends {sketch : Sketch τ σ} {s : Scene τ σ} (hsketch : sketch.Respects P)
    (count frame : Nat) (hs : P s.context) :
    Ends (drawSkipped sketch frame count) s (fun _ s' => P s'.context)
      fun e s' => P s'.context ∧
        ∃ frame s cause, sketch.draw frame s = .error cause s' ∧
          e = ⟨some (.skippedFrame frame), cause⟩ := by
  induction count generalizing frame s with
  | zero => exact Ends.pure hs
  | succ count ih =>
    unfold drawSkipped
    refine Ends.seq (during_raises (hsketch.draw frame) hs fun cause s' hrun =>
      ⟨frame, s, cause, hrun, rfl⟩) ?_
    intro _ s₁ hs₁
    exact ih (frame + 1) hs₁

variable [Surface σ]

/-- The error and the scene in which the frames of a run stopped with it: some step of the sketch, the
opening of a frame or its closing failed so. -/
inductive Raised (sketch : Sketch τ σ) : RunError → Scene τ σ → Prop
  | setup {s s' : Scene τ σ} {cause : SketchError} (h : sketch.setup s = .error cause s') :
      Raised sketch ⟨some .setup, cause⟩ s'
  | skipped {frame : Nat} {s s' : Scene τ σ} {cause : SketchError}
      (h : sketch.draw frame s = .error cause s') :
      Raised sketch ⟨some (.skippedFrame frame), cause⟩
        { s' with context := s'.context.setMuted false }
  | shown {frame : Nat} {s s' : Scene τ σ} {cause : SketchError}
      (h : sketch.draw frame s = .error cause s') : Raised sketch ⟨some (.frame frame), cause⟩ s'
  | opening {s s' : Scene τ σ} {cause : SketchError}
      (h : SceneM.onContext Context.beginFrame s = .error cause s') : Raised sketch ⟨none, cause⟩ s'
  | closing {s s' : Scene τ σ} {cause : SketchError}
      (h : SceneM.onContext Context.endFrame s = .error cause s') : Raised sketch ⟨none, cause⟩ s'

section Frames

variable {sketch : Sketch τ σ} {s : Scene τ σ} (hP : Context.Lasting P) (hsketch : sketch.Respects P)
include hP hsketch

theorem showFrame_ends (a : Animation) (frame : Nat) (hs : P s.context) :
    Ends (showFrame a sketch frame) s (fun _ s' => P s'.context)
      fun e s' => P s'.context ∧ Raised sketch e s' := by
  have hopen : Keeps (fun s : Scene τ σ => P s.context) (SceneM.onContext Context.beginFrame) :=
    hP.command .beginFrame
  have hclose : Keeps (fun s : Scene τ σ => P s.context) (SceneM.onContext Context.endFrame) :=
    hP.command .endFrame
  unfold showFrame
  refine Ends.seq (during_raises hopen hs fun _ _ hrun => .opening hrun) ?_
  intro _ s₁ hs₁
  refine Ends.seq (during_raises (hsketch.draw frame) hs₁ fun _ _ hrun => .shown hrun) ?_
  intro _ s₂ hs₂
  refine Ends.seq (during_raises hclose hs₂ fun _ _ hrun => .closing hrun) ?_
  intro _ s₃ hs₃
  exact Ends.bind (Ends.get (Ends.bind (Ends.modify (Ends.pure (hP.note _ _ hs₃)))))

theorem showFrames_ends (a : Animation) (left frame : Nat) (reports : Array FrameReport)
    (hs : P s.context) :
    Ends (showFrames a sketch left frame reports) s (fun _ s' => P s'.context)
      fun e s' => P s'.context ∧ Raised sketch e s' := by
  -- on the frames left; between two of them only the property is known
  induction left generalizing frame reports s with
  | zero => exact Ends.pure hs
  | succ left ih =>
    have hshow : ∀ skipped {s : Scene τ σ}, P s.context →
        Ends (showFrame a sketch (frame + skipped) >>= fun report =>
            showFrames a sketch left (frame + skipped + 1) (reports.push report)) s
          (fun _ s' => P s'.context) fun e s' => P s'.context ∧ Raised sketch e s' := by
      intro skipped s hs
      refine Ends.seq (showFrame_ends hP hsketch a _ hs) ?_
      intro report s₁ hs₁
      exact ih _ _ hs₁
    unfold showFrames
    dsimp only
    generalize (if frame = 0 then 0 else a.skipFrames) = skipped
    split
    · refine Ends.bind (muted_ends ?_)
      refine (drawSkipped_ends hsketch _ frame (hP.setMuted true hs)).imp ?_ ?_
      · intro _ s₁ hs₁
        exact hshow _ (hP.setMuted false hs₁)
      · intro e s₁ ⟨hs₁, number, s₀, cause, hrun, he⟩
        subst he
        exact ⟨hP.setMuted false hs₁, .skipped hrun⟩
    · exact hshow _ hs

theorem runFrames_ends (a : Animation) (hs : P s.context) :
    Ends (runFrames a sketch) s (fun _ s' => P s'.context)
      fun e s' => P s'.context ∧ Raised sketch e s' := by
  unfold runFrames
  refine Ends.seq (during_raises hsketch.setup hs fun _ _ hrun => .setup hrun) ?_
  intro _ s₁ hs₁
  refine Ends.bind (Ends.modify (Ends.seq (showFrames_ends hP hsketch a _ _ _ (hP.note _ _ hs₁)) ?_))
  intro _ s₂ hs₂
  exact Ends.bind (Ends.modify (Ends.pure (hP.note _ _ hs₂)))

end Frames

/-! ### The first frames of a run -/

/-- The setup and so many of the frames that are shown. -/
def showFirst (a : Animation) (sketch : Sketch τ σ) (shown : Nat) :
    RunM τ σ (Nat × Array FrameReport) := do
  during (some .setup) sketch.setup
  note (.running a.frames a.displayedFrames a.interval)
  showFrames a sketch shown 0 #[]

section First

variable {a : Animation} {sketch : Sketch τ σ} {s s' : Scene τ σ}

theorem showFrames_add (first later frame : Nat) (reports : Array FrameReport) :
    showFrames a sketch (first + later) frame reports =
      showFrames a sketch first frame reports >>= fun shown =>
        showFrames a sketch later shown.1 shown.2 := by
  induction first generalizing frame reports with
  | zero => rw [Nat.zero_add, showFrames, pure_bind]
  | succ first ih =>
    rw [Nat.add_right_comm]
    simp only [showFrames, ih]
    generalize (if frame = 0 then 0 else a.skipFrames) = skipped
    split <;> simp only [bind_assoc]

theorem showFirst_add (first later : Nat) :
    showFirst a sketch (first + later) =
      showFirst a sketch first >>= fun shown => showFrames a sketch later shown.1 shown.2 := by
  unfold showFirst
  simp only [showFrames_add, bind_assoc]

theorem runFrames_eq_showFirst :
    runFrames a sketch = showFirst a sketch a.displayedFrames >>= fun shown =>
      note (.finished shown.1) >>= fun _ => pure shown.2.toList := by
  unfold runFrames showFirst
  simp only [bind_assoc]

theorem ok_of_runFrames {reports : List FrameReport} (hrun : runFrames a sketch s = .ok reports s') :
    ∃ shown s₁, showFirst a sketch a.displayedFrames s = .ok shown s₁ ∧
      note (.finished shown.1) s₁ = .ok () s' ∧ reports = shown.2.toList := by
  rw [runFrames_eq_showFirst] at hrun
  obtain ⟨shown, s₁, hshown, hrun⟩ := ok_of_bind hrun
  obtain ⟨_, _, hnote, hrun⟩ := ok_of_bind hrun
  cases hrun
  exact ⟨shown, s₁, hshown, hnote, rfl⟩

theorem ok_of_showFirst {first shown : Nat} (hle : first ≤ shown) {result : Nat × Array FrameReport}
    (hrun : showFirst a sketch shown s = .ok result s') :
    ∃ earlier s₁, showFirst a sketch first s = .ok earlier s₁ := by
  obtain ⟨later, rfl⟩ := Nat.exists_eq_add_of_le hle
  rw [showFirst_add] at hrun
  obtain ⟨earlier, s₁, hearlier, -⟩ := ok_of_bind hrun
  exact ⟨earlier, s₁, hearlier⟩

end First

/-! ### Whole runs -/

def cleanUp : RunM τ σ Unit := during (some .teardown) (SceneM.onContext Context.teardown)

/-- The surface is cleared however the frames ended, and their error counts. -/
theorem run_ends {a : Animation} {sketch : Sketch τ σ} {s : Scene τ σ}
    {ok : List FrameReport → Scene τ σ → Prop} {fail : RunError → Scene τ σ → Prop}
    (h : Ends (runFrames a sketch) s
      (fun reports s₁ => Ends cleanUp s₁ (fun _ s' => ok reports s') fail)
      fun e s₁ => Ends cleanUp s₁ (fun _ s' => fail e s') fun _ s' => fail e s') :
    Ends (a.run sketch) s ok fail := by
  unfold Ends at h ⊢
  unfold run
  cases hframes : runFrames a sketch s with
  | ok reports s₁ =>
    rw [hframes] at h
    unfold cleanUp at h
    dsimp only at h ⊢
    cases hclear : during (some .teardown) (SceneM.onContext Context.teardown) s₁ <;>
      rw [hclear] at h <;> exact h
  | error e s₁ =>
    rw [hframes] at h
    unfold cleanUp at h
    dsimp only at h ⊢
    cases hclear : during (some .teardown) (SceneM.onContext Context.teardown) s₁ <;>
      rw [hclear] at h <;> exact h

section Results

variable {a : Animation} {sketch : Sketch τ σ} {s s₁ s' : Scene τ σ} {reports : List FrameReport}
  {e : RunError}

theorem run_of_ok (hframes : runFrames a sketch s = .ok reports s₁)
    (hclear : cleanUp s₁ = .ok () s') : a.run sketch s = .ok reports s' := by
  unfold cleanUp at hclear
  unfold run
  rw [hframes]
  dsimp only
  rw [hclear]

theorem run_of_unclear (hframes : runFrames a sketch s = .ok reports s₁)
    (hclear : cleanUp s₁ = .error e s') : a.run sketch s = .error e s' := by
  unfold cleanUp at hclear
  unfold run
  rw [hframes]
  dsimp only
  rw [hclear]

theorem run_of_error (hframes : runFrames a sketch s = .error e s₁)
    (hclear : cleanUp s₁ = .ok () s' ∨ ∃ e', cleanUp s₁ = .error e' s') :
    a.run sketch s = .error e s' := by
  unfold cleanUp at hclear
  unfold run
  rw [hframes]
  dsimp only
  rcases hclear with hclear | ⟨e', hclear⟩
  · rw [hclear]
  · rw [hclear]

theorem ok_of_run (hrun : a.run sketch s = .ok reports s') :
    ∃ s₁, runFrames a sketch s = .ok reports s₁ ∧ cleanUp s₁ = .ok () s' := by
  have hends : Ends (a.run sketch) s
      (fun reports s' => ∃ s₁, runFrames a sketch s = .ok reports s₁ ∧ cleanUp s₁ = .ok () s')
      fun _ _ => True := by
    apply run_ends
    apply Ends.intro
    · intro reports s₁ hframes
      exact Ends.intro (fun _ s' hclear => ⟨s₁, hframes, hclear⟩) fun _ _ _ => trivial
    · intro e s₁ _
      exact Ends.trivial
  exact hends.of_ok hrun

end Results

theorem run_keeps (hP : Context.Lasting P) (a : Animation) {sketch : Sketch τ σ}
    (hsketch : sketch.Respects P) : Keeps (fun s : Scene τ σ => P s.context) (a.run sketch) := by
  have hclear : ∀ s : Scene τ σ, P s.context →
      Ends cleanUp s (fun _ s' => P s'.context) fun _ s' => P s'.context := fun s hs =>
    during_ends (hP.command .teardown s hs)
  intro s hs
  apply run_ends
  exact (runFrames_ends hP hsketch a hs).imp (fun _ s₁ h => hclear s₁ h) fun _ s₁ h => hclear s₁ h.1

end Animation

/-! ### The past of a context -/

/-- What may be done with a context, by itself or by an animation that runs a script on it. -/
inductive Deed where
  | command (command : Command)
  | animation (a : Animation) (script : Script)

section Past

variable [Surface σ]

def Deed.after (deed : Deed) (c : Context σ) : Context σ :=
  match deed with
  | .command asked => (stateAfter asked.run (⟨(), c⟩ : Scene Unit σ)).context
  | .animation a script => (stateAfter (a.run script.sketch) ⟨{}, c⟩).context

def Context.afterAll (past : List Deed) (c : Context σ) : Context σ :=
  past.foldl (fun c deed => deed.after c) c

theorem Context.Lasting.after (h : Context.Lasting P) (deed : Deed) {c : Context σ} (hc : P c) :
    P (deed.after c) := by
  cases deed with
  | command command =>
    exact (h.command command (⟨(), c⟩ : Scene Unit σ) hc).stateAfter
  | animation a script =>
    exact (Animation.run_keeps h a (h.script script) (⟨{}, c⟩ : Scene Script.Seen σ) hc).stateAfter

theorem Context.Lasting.afterAll (h : Context.Lasting P) (past : List Deed) {c : Context σ}
    (hc : P c) : P (c.afterAll past) := by
  induction past generalizing c with
  | nil => exact hc
  | cons deed rest ih => exact ih (h.after deed hc)

end Past

end Redraw
