import Redraw.Outline.Trace
import Redraw.Geometry

/-!
# Batches of rectangles

Rectangles without an outline are collected on an integer grid and drawn as the outlines of their
union. This module holds the way onto the grid and back.
-/

namespace Redraw.Batch

/-! ### Onto the grid -/

/-- How far a coordinate may lie beside a grid line, relative to its size. -/
def tolerance : Float := 1e-9

/-- The coordinate lies on a grid line, up to the noise of decimal fractions. -/
def onGrid (grid : Nat) (value : Float) : Bool :=
  let scaled := value * Float.ofNat grid
  let slack := tolerance * Number.greater scaled.abs 1.0
  scaled.isFinite && (scaled - Number.nearestWhole scaled).abs ≤ slack

/-- The nearest grid line. -/
def quantize (grid : Nat) (value : Float) : Int := Number.nearestInt64 (value * Float.ofNat grid)

/-- All four sides of the rectangle lie on grid lines. -/
def aligned (grid : Nat) (r : Rect) : Bool :=
  onGrid grid r.x && onGrid grid r.y && onGrid grid (r.x + r.width) && onGrid grid (r.y + r.height)

def cornersOf (grid : Nat) (r : Rect) : Outline.Corners where
  first := ⟨quantize grid r.x, quantize grid r.y⟩
  second := ⟨quantize grid (r.x + r.width), quantize grid (r.y + r.height)⟩

/-! ### Back to the surface -/

/-- A grid point in surface units. -/
def unquantize (grid : Nat) (p : Outline.Point) : Vertex :=
  (Float.ofInt p.x / Float.ofNat grid, Float.ofInt p.y / Float.ofNat grid)

def leastPoint : Outline.Polygon → Outline.Point
  | [] => ⟨0, 0⟩
  | p :: rest => rest.foldl (fun least q => if q.byColumn least then q else least) p

def greatestPoint : Outline.Polygon → Outline.Point
  | [] => ⟨0, 0⟩
  | p :: rest => rest.foldl (fun greatest q => if greatest.byColumn q then q else greatest) p

/-- An outline of four vertices is drawn as a rectangle, any other as a closed polygon. -/
def shapeOf (grid : Nat) (outline : Outline.Polygon) : Geometry :=
  if outline.length = 4 then
    let (x1, y1) := unquantize grid (leastPoint outline)
    let (x2, y2) := unquantize grid (greatestPoint outline)
    .rect ⟨x1, y1, x2 - x1, y2 - y1⟩
  else .polygon (outline.map (unquantize grid)) true

/-- The shapes that a batch is drawn as, in order. -/
def shapes (grid : Nat) (batch : List Outline.Corners) : List Geometry :=
  (Outline.outlines batch).map (shapeOf grid)

theorem shapes_nil (grid : Nat) : shapes grid [] = [] := by
  simp [shapes, Outline.outlines_nil]

end Redraw.Batch
