import Redraw.Sketch.Basic

/-!
# Sketches written as commands

Everything that a sketch can ask of a context, as data, and sketches that are lists of such commands.
-/

namespace Redraw

inductive Command where
  | beginFrame
  | endFrame
  | teardown
  | fill (color : Color)
  | noFill
  | stroke (color : Color)
  | noStroke
  | strokeWeight (weight : Float)
  | noSmooth
  | background (color : Color)
  | rect (r : Rect)
  | ellipse (centerX centerY width height : Float)
  | beginShape
  | vertex (v : Vertex)
  | endShape (close : Bool)
  | setBatching (grid : Option Nat)
  | setMuted (muted : Bool)
  | fillComponents (components : List Float)
  | fail (text : String)
  deriving Repr

namespace Command

open SceneM

def run {τ σ : Type} [Surface σ] : Command → SceneM τ σ Unit
  | beginFrame => onContext Context.beginFrame
  | endFrame => onContext Context.endFrame
  | teardown => onContext Context.teardown
  | fill color => change (Context.setFill color)
  | noFill => change Context.noFill
  | stroke color => change (Context.setStroke color)
  | noStroke => change Context.noStroke
  | strokeWeight weight => change (Context.setStrokeWeight weight)
  | noSmooth => change Context.noSmooth
  | background color => onContext (Context.background color)
  | rect r => onContext (Context.rect r)
  | ellipse cx cy w h => onContext (Context.ellipse cx cy w h)
  | beginShape => change Context.beginShape
  | vertex v => change (Context.addVertex v)
  | endShape close => onContext (Context.endShape close)
  | setBatching grid => change (Context.setBatching grid)
  | setMuted muted => change (Context.setMuted muted)
  | fillComponents components => do change (Context.setFill (← colorOf components))
  | fail text => throw (.other text)

def runAll {τ σ : Type} [Surface σ] : List Command → SceneM τ σ Unit
  | [] => pure ()
  | command :: rest => do
    command.run
    runAll rest

end Command

/-- A sketch by its commands. The frames go through the lists of commands in a circle. -/
structure Script where
  setup : List Command := []
  frames : List (List Command)
  deriving Repr

namespace Script

def commandsAt (s : Script) (frame : Nat) : List Command :=
  (s.frames[frame % s.frames.length]?).getD []

/-- What a script has been asked to draw so far: the frames in order, each with whether the context
was muted. -/
structure Seen where
  frames : Array (Nat × Bool) := #[]
  deriving Repr

def sketch {σ : Type} [Surface σ] (s : Script) : Sketch Seen σ where
  setup := Command.runAll s.setup
  draw frame := do
    modify fun scene =>
      { scene with state := ⟨scene.state.frames.push (frame, scene.context.muted)⟩ }
    Command.runAll (s.commandsAt frame)

end Script

end Redraw
