import Redraw.Context

/-!
# Sketches

A sketch is a program with a state of its own that draws one frame at a time on a context.
-/

namespace Redraw

inductive SketchError where
  | cache (error : CacheError)
  | color (error : ColorError)
  | other (text : String)
  deriving Repr

def SketchError.message : SketchError → String
  | .cache error => error.message
  | .color error => error.message
  | .other text => text

structure Scene (τ σ : Type) where
  state : τ
  context : Context σ

abbrev SceneM (τ σ : Type) := EStateM SketchError (Scene τ σ)

structure Sketch (τ σ : Type) where
  /-- Runs once before the first frame; no frame is open yet -/
  setup : SceneM τ σ Unit := pure ()
  /-- Draws the frame of a number; frames that are not shown count too -/
  draw : Nat → SceneM τ σ Unit

namespace SceneM

variable {τ σ : Type}

def onContext {α : Type} (step : ContextM σ α) : SceneM τ σ α := fun s =>
  match step s.context with
  | .ok a context => .ok a { s with context := context }
  | .error e context => .error (.cache e) { s with context := context }

def change (f : Context σ → Context σ) : SceneM τ σ Unit :=
  modify fun s => { s with context := f s.context }

def context : SceneM τ σ (Context σ) := Scene.context <$> get

/-- The color of some components, or the sketch gives up. -/
def colorOf (components : List Float) : SceneM τ σ Color :=
  match Color.ofComponents components with
  | .ok color => pure color
  | .error e => throw (.color e)

end SceneM

end Redraw
