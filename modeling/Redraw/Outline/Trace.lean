import Redraw.Outline.Slab
import Redraw.Outline.Matching

/-!
# Outlines

The boundary of a union of rectangles as closed polygons. From a vertex the boundary is followed by
vertical and horizontal edges in turn until it comes back; the vertices met are then taken out, and
the first vertex left begins the next outline. Holes are outlines too and are not told apart. Two
boxes that meet in a corner only share a vertex that cancels, so that the outline touches itself.
-/

namespace Redraw.Outline

/-- A closed boundary in the order it is walked; the first point is not repeated at the end. -/
abbrev Polygon := List Point

inductive Axis where
  | vertical
  | horizontal
  deriving DecidableEq, Repr

def Axis.turn : Axis → Axis
  | .vertical => .horizontal
  | .horizontal => .vertical

/-- The edges that are still to be walked. -/
structure Edges where
  horizontal : Matching
  vertical : Matching

namespace Edges

def along (e : Edges) : Axis → Matching
  | .vertical => e.vertical
  | .horizontal => e.horizontal

/-- Takes out the edge at `p` along one axis, in the direction away from `p` only. -/
def erase (e : Edges) (p : Point) : Axis → Edges
  | .vertical => { e with vertical := e.vertical.erase p }
  | .horizontal => { e with horizontal := e.horizontal.erase p }

def eraseVertex (e : Edges) (p : Point) : Edges :=
  ⟨e.horizontal.erase p, e.vertical.erase p⟩

def size (e : Edges) : Nat := e.horizontal.size + e.vertical.size

def ofVertices (vertices : List Point) : Edges :=
  ⟨horizontalMatching vertices, verticalMatching vertices⟩

theorem size_erase_lt (e : Edges) (axis : Axis) (p q : Point) (h : (e.along axis)[p]? = some q) :
    (e.erase p axis).size < e.size := by
  cases axis with
  | vertical =>
    have hlt := Matching.size_erase_lt e.vertical p q h
    simp only [size, erase]
    omega
  | horizontal =>
    have hlt := Matching.size_erase_lt e.horizontal p q h
    simp only [size, erase]
    omega

end Edges

/-- Follows the edges from `current` and consumes them, until a horizontal edge leads back to `start`
or no edge is left. Returns the vertices met after `current` and the edges that remain. -/
def follow (start current : Point) (axis : Axis) (edges : Edges) : Polygon × Edges :=
  match _h : (edges.along axis)[current]? with
  | none => ([], edges)
  | some next =>
    let remaining := edges.erase current axis
    if next = start ∧ axis = .horizontal then ([], remaining)
    else
      let (met, remaining) := follow start next axis.turn remaining
      (next :: met, remaining)
termination_by edges.size
decreasing_by exact Edges.size_erase_lt edges axis current next _h

/-- The outline through `start`, first along its vertical edge, and the edges at all other vertices. -/
def outlineAt (start : Point) (edges : Edges) : Polygon × Edges :=
  let (met, remaining) := follow start start .vertical (edges.erase start .horizontal)
  let outline := start :: met
  (outline, outline.foldl Edges.eraseVertex remaining)

/-- The outlines through the given vertices; a vertex that has no edge left lies on an earlier one. -/
def outlinesThrough : List Point → Edges → List Polygon
  | [], _ => []
  | start :: rest, edges =>
    if edges.horizontal.contains start then
      let (outline, remaining) := outlineAt start edges
      outline :: outlinesThrough rest remaining
    else outlinesThrough rest edges

/-- The boundary of boxes that do not overlap. -/
def boundary (boxes : List Box) : List Polygon :=
  let vertices := oddCorners boxes
  outlinesThrough vertices (.ofVertices vertices)

/-- The outlines of the union of rectangles. -/
def outlines (rects : List Corners) : List Polygon := boundary (disjointBoxes rects)

theorem outlines_nil : outlines [] = [] := by
  simp [outlines, disjointBoxes_nil, boundary, oddCorners, cancelPairs, outlinesThrough]

end Redraw.Outline
