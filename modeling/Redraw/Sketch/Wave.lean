import Redraw.Sketch.Basic

/-!
# A sine wave

A wave traced through evenly spaced vertices as one open line.
-/

namespace Redraw.Wave

open SceneM

def samples : Nat := 48

/-- The double nearest to a full turn. -/
def fullTurn : Float := 6.283185307179586

def vertexAt (width height : Float) (frame i : Nat) : Vertex :=
  let x := Float.ofNat i * (width / Float.ofNat samples)
  let phase := x / width * fullTurn + Float.ofNat frame * 0.1
  (x, height / 2.0 + height / 4.0 * phase.sin)

def addVertices {σ : Type} : List Vertex → SceneM Unit σ Unit
  | [] => pure ()
  | v :: rest => do
    change (Context.addVertex v)
    addVertices rest

def sketch {σ : Type} [Surface σ] (background : Color) : Sketch Unit σ where
  setup := do
    change Context.noFill
    change (Context.setStroke (← colorOf [20.0, 160.0, 90.0]))
    change (Context.setStrokeWeight 3.0)
  draw frame := do
    onContext (Context.background background)
    let width := (← context).width
    let height := (← context).height
    change Context.beginShape
    addVertices ((List.range (samples + 1)).map (vertexAt width height frame))
    onContext (Context.endShape false)

end Redraw.Wave
