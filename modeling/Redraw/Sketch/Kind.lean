import Redraw.Sketch.Bounce
import Redraw.Sketch.Tiles
import Redraw.Sketch.Wave

/-!
# The sketches that come with the program
-/

namespace Redraw

inductive SketchKind where
  /-- Balls bouncing inside a framed box -/
  | bounce
  /-- Columns of tiles that merge into one outline -/
  | tiles
  /-- A sine wave as an open line -/
  | wave
  deriving DecidableEq, Repr

namespace SketchKind

def all : List SketchKind := [bounce, tiles, wave]

def name : SketchKind → String
  | bounce => "bounce"
  | tiles => "tiles"
  | wave => "wave"

def about : SketchKind → String
  | bounce => "Balls bouncing inside a framed box"
  | tiles => "Columns of stacked tiles that merge into one outline"
  | wave => "A sine wave drawn as an open polyline"

def named? (name : String) : Option SketchKind := all.find? (·.name == name)

def State : SketchKind → Type
  | bounce => List Ball
  | tiles => Unit
  | wave => Unit

def start : (kind : SketchKind) → kind.State
  | bounce => Bounce.balls
  | tiles => ()
  | wave => ()

def sketch {σ : Type} [Surface σ] (background : Color) :
    (kind : SketchKind) → Sketch kind.State σ
  | bounce => Bounce.sketch background
  | tiles => Tiles.sketch background
  | wave => Wave.sketch background

end SketchKind

end Redraw
