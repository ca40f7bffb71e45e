import Redraw.Sketch.Script
import Redraw.Surface.Recorder
import Redraw.Proofs.Ending

namespace Redraw

/-! ### Steps of a muted context -/

namespace Context

variable {σ : Type} {c : Context σ}

theorem unlessMuted_of_muted (h : c.muted = true) (change : Context σ → Context σ) :
    unlessMuted change c = c := by
  rw [unlessMuted, if_pos h]

theorem unlessMuted_of_heard (h : c.muted = false) (change : Context σ → Context σ) :
    unlessMuted change c = change c := by
  rw [unlessMuted, h, if_neg Bool.false_ne_true]

theorem whenHeard_of_muted (h : c.muted = true) (step : ContextM σ Unit) :
    whenHeard step c = .ok () c := by
  show (if (!c.muted) = true then step else pure ()) c = .ok () c
  rw [h]
  rfl

theorem whenHeard_of_heard (h : c.muted = false) (step : ContextM σ Unit) :
    whenHeard step c = step c := by
  show (if (!c.muted) = true then step else pure ()) c = step c
  rw [h]
  rfl

theorem whenHeard_ends {step : ContextM σ Unit} {ok : Unit → Context σ → Prop}
    {fail : CacheError → Context σ → Prop} (hmuted : c.muted = true → ok () c)
    (hheard : c.muted = false → Ends step c ok fail) : Ends (whenHeard step) c ok fail := by
  cases h : c.muted with
  | true => exact Ends.of_eq (whenHeard_of_muted h step) (Ends.pure (hmuted h))
  | false => exact Ends.of_eq (whenHeard_of_heard h step) (hheard h)

def dropVertices (c : Context σ) : Context σ := { c with vertices := #[] }

theorem dropVertices_eq_iff : c.dropVertices = c ↔ c.vertices = #[] := by
  constructor
  · intro h
    rw [← h]
    rfl
  · intro h
    cases c
    cases h
    rfl

theorem endShape_of_muted [Surface σ] (h : c.muted = true) (close : Bool) :
    endShape close c = .ok () c.dropVertices := by
  have hdropped : c.dropVertices.muted = true := h
  exact whenHeard_of_muted hdropped _

end Context

/-! ### Commands of a frame -/

namespace Command

def draws : Command → Bool
  | fill _ | noFill | stroke _ | noStroke | strokeWeight _ | noSmooth => true
  | background _ | rect _ | ellipse .. | beginShape | vertex _ | endShape _ => true
  | beginFrame | endFrame | teardown | setBatching _ | setMuted _ | fillComponents _ | fail _ => false

def ofFrame : Command → Bool
  | beginFrame | endFrame => true
  | command => command.draws

def endsShape : Command → Bool
  | endShape _ => true
  | _ => false

end Command

variable {τ σ : Type}

/-- The scene after commands that found it muted. -/
def Scene.unheard (s : Scene τ σ) (commands : List Command) : Scene τ σ :=
  if commands.any Command.endsShape then { s with context := s.context.dropVertices } else s

namespace Scene

variable {s : Scene τ σ}

theorem unheard_muted (commands : List Command) :
    (s.unheard commands).context.muted = s.context.muted := by
  unfold unheard
  split <;> rfl

theorem unheard_cons (command : Command) (rest : List Command) :
    (s.unheard [command]).unheard rest = s.unheard (command :: rest) := by
  unfold unheard
  cases hfirst : command.endsShape <;> cases hrest : rest.any Command.endsShape <;>
    simp [hfirst, hrest, Context.dropVertices]

theorem unheard_eq_iff (commands : List Command) :
    s.unheard commands = s ↔
      commands.any Command.endsShape = false ∨ s.context.vertices = #[] := by
  unfold unheard
  cases hshape : commands.any Command.endsShape with
  | false => simp
  | true =>
    obtain ⟨state, context⟩ := s
    simp [Context.dropVertices_eq_iff]

end Scene

namespace Command

variable {s : Scene τ σ}

theorem change_of_muted (h : s.context.muted = true) (f : Context σ → Context σ) :
    SceneM.change (Context.unlessMuted f) s = .ok () s := by
  show EStateM.Result.ok () { s with context := Context.unlessMuted f s.context } = .ok () s
  rw [Context.unlessMuted_of_muted h]

theorem onContext_of_muted (h : s.context.muted = true) (step : ContextM σ Unit) :
    SceneM.onContext (Context.whenHeard step) s = .ok () s := by
  unfold SceneM.onContext
  rw [Context.whenHeard_of_muted h]

variable [Surface σ]

theorem run_of_muted (command : Command) (hframe : command.ofFrame = true)
    (h : s.context.muted = true) : command.run s = .ok () (s.unheard [command]) := by
  cases command with
  | endShape close =>
    show SceneM.onContext (Context.endShape close) s = _
    unfold SceneM.onContext
    rw [Context.endShape_of_muted h]
    rfl
  | beginFrame => exact onContext_of_muted h _
  | endFrame => exact onContext_of_muted h _
  | background => exact onContext_of_muted h _
  | rect => exact onContext_of_muted h _
  | ellipse => exact onContext_of_muted h _
  | fill => exact change_of_muted h _
  | noFill => exact change_of_muted h _
  | stroke => exact change_of_muted h _
  | noStroke => exact change_of_muted h _
  | strokeWeight => exact change_of_muted h _
  | noSmooth => exact change_of_muted h _
  | beginShape => exact change_of_muted h _
  | vertex => exact change_of_muted h _
  | teardown => cases hframe
  | setBatching => cases hframe
  | setMuted => cases hframe
  | fillComponents => cases hframe
  | fail => cases hframe

theorem runAll_cons {command : Command} {rest : List Command} {s s' : Scene τ σ}
    (h : command.run s = .ok () s') : runAll (command :: rest) s = runAll rest s' :=
  bind_of_ok h

theorem runAll_append {first rest : List Command} {s s' : Scene τ σ}
    (h : runAll first s = .ok () s') : runAll (first ++ rest) s = runAll rest s' := by
  induction first generalizing s with
  | nil =>
    cases h
    rfl
  | cons command first ih =>
    obtain ⟨_, s₁, hrun, hlater⟩ := ok_of_bind h
    rw [List.cons_append, runAll_cons hrun]
    exact ih hlater

theorem runAll_of_muted (commands : List Command) (hframe : ∀ command ∈ commands, command.ofFrame = true)
    (h : s.context.muted = true) : runAll commands s = .ok () (s.unheard commands) := by
  induction commands generalizing s with
  | nil => rfl
  | cons command rest ih =>
    obtain ⟨hfirst, hrest⟩ := List.forall_mem_cons.mp hframe
    have hmuted : (s.unheard [command]).context.muted = true := (Scene.unheard_muted _).trans h
    rw [runAll_cons (run_of_muted command hfirst h), ih hrest hmuted, Scene.unheard_cons]

/-- On any surface, a muted context answers all commands of a frame. They leave it as it was, except
that a shape which is ended takes the vertices with it: it is the same as before exactly if no shape is
ended or no vertices had been collected. -/
theorem runAll_muted (commands : List Command) (hframe : ∀ command ∈ commands, command.ofFrame = true)
    (s : Scene τ σ) (h : s.context.muted = true) :
    ∃ s', runAll commands s = .ok () s' ∧ s' = s.unheard commands ∧
      (s' = s ↔ commands.any endsShape = false ∨ s.context.vertices = #[]) :=
  ⟨s.unheard commands, runAll_of_muted commands hframe h, rfl, Scene.unheard_eq_iff commands⟩

/-- A frame with a rectangle held back and a triangle half collected when the context is muted. -/
def halfDrawn : List Command :=
  [.beginFrame, .noStroke, .rect ⟨0.0, 0.0, 1.0, 1.0⟩, .beginShape, .vertex (0.0, 0.0),
    .vertex (2.0, 0.0), .vertex (0.0, 2.0), .setMuted true]

theorem runAll_halfDrawn :
    ∃ s : Scene Unit Recorder,
      runAll halfDrawn ⟨(), Context.onCanvas Recorder.empty 4.0 4.0⟩ = .ok () s ∧
      s.context.muted = true ∧ s.context.batch.size = 1 ∧ s.context.vertices.size = 3 := by
  have hpasses : passes (runAll halfDrawn)
      (⟨(), Context.onCanvas Recorder.empty 4.0 4.0⟩ : Scene Unit Recorder)
      (fun _ s => s.context.muted && s.context.batch.size == 1 && s.context.vertices.size == 3) =
        true := by decide +kernel
  obtain ⟨_, hrun, hcheck⟩ := ok_of_passes hpasses
  simp only [Bool.and_eq_true, beq_iff_eq] at hcheck
  obtain ⟨⟨hmuted, hbatch⟩, hvertices⟩ := hcheck
  exact ⟨_, hrun, hmuted, hbatch, hvertices⟩

theorem runAll_muted_halfDrawn :
    ∃ s : Scene Unit Recorder,
      runAll halfDrawn ⟨(), Context.onCanvas Recorder.empty 4.0 4.0⟩ = .ok () s ∧
      s.context.muted = true ∧ s.context.batch.size = 1 ∧ s.context.vertices.size = 3 ∧
      ∃ s', runAll [noFill, rect ⟨1.0, 1.0, 1.0, 1.0⟩, vertex (3.0, 3.0), endFrame] s = .ok () s' ∧
        s' = s := by
  obtain ⟨s, hrun, hmuted, hbatch, hvertices⟩ := runAll_halfDrawn
  obtain ⟨s', hrun', _, hsame⟩ := runAll_muted
    [noFill, rect ⟨1.0, 1.0, 1.0, 1.0⟩, vertex (3.0, 3.0), endFrame] (by decide) s hmuted
  exact ⟨s, hrun, hmuted, hbatch, hvertices, s', hrun', hsame.mpr (.inl rfl)⟩

/-- The half-collected triangle is lost, though the context is muted when it is ended. -/
theorem muted_endShape_drops :
    ∃ s : Scene Unit Recorder,
      runAll halfDrawn ⟨(), Context.onCanvas Recorder.empty 4.0 4.0⟩ = .ok () s ∧
      s.context.muted = true ∧ s.context.vertices.size = 3 ∧
      ∃ s', runAll [endShape true] s = .ok () s' ∧ s'.context.vertices.size = 0 ∧ s' ≠ s := by
  obtain ⟨s, hrun, hmuted, _, hvertices⟩ := runAll_halfDrawn
  have hend : runAll [endShape true] s = .ok () (s.unheard [endShape true]) :=
    runAll_cons (run_of_muted (endShape true) rfl hmuted)
  refine ⟨s, hrun, hmuted, hvertices, _, hend, rfl, ?_⟩
  intro hsame
  have hsize : (s.unheard [endShape true]).context.vertices.size = 0 := rfl
  rw [hsame, hvertices] at hsize
  cases hsize

end Command

end Redraw
