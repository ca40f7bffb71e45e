import Redraw.Sketch.Basic

/-!
# Bouncing balls

Three balls of one size inside a framed box. Only the balls move, so the background and the frame are
used again untouched.
-/

namespace Redraw

structure Ball where
  x : Float
  y : Float
  dx : Float
  dy : Float
  color : Color
  deriving Repr, Inhabited

namespace Bounce

open SceneM

def ballSize : Float := 20.0

def margin : Float := 10.0

def low : Float := margin + ballSize / 2.0

def ballAt (i : Nat) (color : Color) : Ball :=
  let n := Float.ofNat i
  ⟨40.0 + 30.0 * n, 50.0 + 20.0 * n, 3.0 + n, 2.0 + 0.5 * n, color⟩

def balls : List Ball := [ballAt 0 .redInk, ballAt 1 .orange, ballAt 2 .yellow]

/-- One coordinate after a step: a ball that leaves the box is put back to its side and turns. -/
def advance (extent position speed : Float) : Float × Float :=
  let moved := position + speed
  if moved < low || extent - low < moved then
    (Number.clamp low (Number.greater (extent - low) low) moved, -speed)
  else (moved, speed)

def Ball.step (width height : Float) (b : Ball) : Ball :=
  let (x, dx) := advance width b.x b.dx
  let (y, dy) := advance height b.y b.dy
  ⟨x, y, dx, dy, b.color⟩

def frameRect (width height : Float) : Rect :=
  ⟨margin, margin, Number.greater (width - 2.0 * margin) 0.0,
    Number.greater (height - 2.0 * margin) 0.0⟩

def drawBalls {σ : Type} [Surface σ] : List Ball → SceneM (List Ball) σ Unit
  | [] => pure ()
  | ball :: rest => do
    change (Context.setFill ball.color)
    onContext (Context.ellipse ball.x ball.y ballSize ballSize)
    drawBalls rest

def sketch {σ : Type} [Surface σ] (background : Color) : Sketch (List Ball) σ where
  draw _ := do
    let width := (← context).width
    let height := (← context).height
    modify fun scene => { scene with state := scene.state.map (Ball.step width height) }
    onContext (Context.background background)
    change Context.noFill
    change (Context.setStroke (← colorOf [80.0]))
    change (Context.setStrokeWeight 2.0)
    onContext (Context.rect (frameRect width height))
    change Context.noStroke
    drawBalls (← get).state

end Bounce

end Redraw
