import Redraw.Text.Lower

/-!
# Colors

Red, green, blue and opacity as doubles from 0 to 1, built from the 0 to 255 components that sketches
use, or looked up by name.
-/

namespace Redraw

/-- A color; every part is 0.0 at its least and 1.0 at its greatest. -/
structure Color where
  red : Float
  green : Float
  blue : Float
  alpha : Float
  deriving BEq, Repr, Inhabited

structure ColorError where
  components : Nat
  deriving DecidableEq, Repr

def ColorError.message (e : ColorError) : String :=
  s!"expected 1 to 4 color components, got {e.components}"

namespace Color

def maxComponent : Float := 255.0

/-- One component is gray, two are gray and opacity, three are red, green and blue, four add the
opacity. -/
def ofComponents : List Float → Except ColorError Color
  | [v] => .ok ⟨v / maxComponent, v / maxComponent, v / maxComponent, 1.0⟩
  | [v, a] => .ok ⟨v / maxComponent, v / maxComponent, v / maxComponent, a / maxComponent⟩
  | [r, g, b] => .ok ⟨r / maxComponent, g / maxComponent, b / maxComponent, 1.0⟩
  | [r, g, b, a] => .ok ⟨r / maxComponent, g / maxComponent, b / maxComponent, a / maxComponent⟩
  | components => .error ⟨components.length⟩

/-! ### Named colors -/

def redInk : Color := ⟨1.0, 0.0, 0.0, 1.0⟩
def greenInk : Color := ⟨0.0, 1.0, 0.0, 1.0⟩
def blueInk : Color := ⟨0.0, 0.0, 1.0, 1.0⟩
def yellow : Color := ⟨1.0, 1.0, 0.0, 1.0⟩
def orange : Color := ⟨1.0, 0.5, 0.0, 1.0⟩
def pink : Color := ⟨1.0, 0.0, 1.0, 1.0⟩
def white : Color := ⟨1.0, 1.0, 1.0, 1.0⟩
def black : Color := ⟨0.0, 0.0, 0.0, 1.0⟩

/-- The palette of names, all in lower case. -/
def palette : List (String × Color) :=
  [("red", redInk), ("green", greenInk), ("blue", blueInk), ("yellow", yellow),
    ("orange", orange), ("pink", pink), ("white", white), ("black", black)]

def named? (name : String) : Option Color := palette.lookup (Text.lower name)

end Color

end Redraw
