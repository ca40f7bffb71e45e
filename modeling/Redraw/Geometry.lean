import Redraw.Number.Shortest

/-!
# Geometry of shapes

Rectangles, ellipses and polygons, and the kind under which a shape may serve a later request. The
kind of an ellipse includes its size, because some surfaces fix the radii when a shape is made.
-/

namespace Redraw

inductive RectField where
  | x
  | y
  | width
  | height
  deriving DecidableEq, Repr

def RectField.all : List RectField := [.x, .y, .width, .height]

structure Rect where
  x : Float
  y : Float
  width : Float
  height : Float
  deriving BEq, Repr, Inhabited

namespace Rect

def get (r : Rect) : RectField → Float
  | .x => r.x
  | .y => r.y
  | .width => r.width
  | .height => r.height

def set (r : Rect) (field : RectField) (value : Float) : Rect :=
  match field with
  | .x => { r with x := value }
  | .y => { r with y := value }
  | .width => { r with width := value }
  | .height => { r with height := value }

theorem get_set (r : Rect) (field other : RectField) (value : Float) :
    (r.set field value).get other = if other = field then value else r.get other := by
  cases field <;> cases other <;> simp [set, get]

end Rect

abbrev Vertex := Float × Float

inductive Geometry where
  /-- A rectangle along the axes -/
  | rect (r : Rect)
  /-- An ellipse by its center and its full size -/
  | ellipse (centerX centerY width height : Float)
  /-- A line through the points, led back to the first one when closed -/
  | polygon (points : List Vertex) (closed : Bool)
  deriving BEq, Repr, Inhabited

/-- The identity under which a shape can be used again. -/
inductive ShapeKind where
  | rect
  | ellipse (width height : Float)
  | polygon
  deriving BEq, Repr, Inhabited

/-- The three families of shapes; a shape never leaves its family. -/
inductive Family where
  | rect
  | ellipse
  | polygon
  deriving DecidableEq, Repr

def ShapeKind.text : ShapeKind → String
  | .rect => "Rect"
  | .ellipse width height =>
    "Ellipse \x7b width: " ++ Number.detailed width ++ ", height: " ++ Number.detailed height ++ " \x7d"
  | .polygon => "Polygon"

namespace Geometry

def kind : Geometry → ShapeKind
  | .rect _ => .rect
  | .ellipse _ _ width height => .ellipse width height
  | .polygon _ _ => .polygon

def family : Geometry → Family
  | .rect _ => .rect
  | .ellipse _ _ _ _ => .ellipse
  | .polygon _ _ => .polygon

def isFinite : Geometry → Bool
  | .rect r => r.x.isFinite && r.y.isFinite && r.width.isFinite && r.height.isFinite
  | .ellipse cx cy w h => cx.isFinite && cy.isFinite && w.isFinite && h.isFinite
  | .polygon points _ => points.all fun p => p.1.isFinite && p.2.isFinite

def size? : Geometry → Option (Float × Float)
  | .rect r => some (r.width, r.height)
  | .ellipse _ _ width height => some (width, height)
  | .polygon _ _ => none

end Geometry

end Redraw
