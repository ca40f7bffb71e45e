import Redraw.Outline.Overlap

/-!
# Disjoint boxes

Cuts overlapping boxes into slabs between neighbouring y coordinates. Within a slab the boxes that
span it are intervals of x, which are joined into runs wherever they touch or overlap.
-/

namespace Redraw.Outline

/-! ### Runs -/

structure Span where
  left : Int
  right : Int
  deriving DecidableEq, Repr

/-- By left end, then by right end. -/
def Span.before (s t : Span) : Bool := s.left < t.left || s.left == t.left && s.right ≤ t.right

def Box.span (b : Box) : Span := ⟨b.left, b.right⟩

/-- Extends the current run by the spans that touch it and goes on with the next run after a gap. -/
def runsFrom (run : Span) : List Span → List Span
  | [] => [run]
  | s :: rest =>
    if s.left ≤ run.right then runsFrom ⟨run.left, max run.right s.right⟩ rest
    else run :: runsFrom s rest

/-- The maximal runs covered by spans that are sorted by their left ends. -/
def runs : List Span → List Span
  | [] => []
  | s :: rest => runsFrom s rest

/-! ### Slabs -/

/-- The y coordinates of all sides, each once, in increasing order. -/
def levels (boxes : List Box) : List Int :=
  ((boxes.flatMap fun b => [b.top, b.bottom]).mergeSort fun a b => decide (a ≤ b)).eraseReps

/-- The runs of the boxes that span the slab from `top` to `bottom`, as boxes of that height. -/
def slabBoxes (top bottom : Int) (spanning : List Box) : List Box :=
  (runs ((spanning.map Box.span).mergeSort Span.before)).map fun run =>
    ⟨run.left, top, run.right, bottom⟩

/-- Goes down the levels. `active` are the boxes that began above and may have ended by now;
`waiting` are the later ones, in order of their tops. -/
def sweepSlabs : List Int → List Box → List Box → List Box
  | top :: bottom :: below, active, waiting =>
    let arrived := waiting.takeWhile fun b => decide (b.top ≤ top)
    let spanning := (active.filter fun b => decide (top < b.bottom)) ++ arrived
    slabBoxes top bottom spanning ++
      sweepSlabs (bottom :: below) spanning (waiting.dropWhile fun b => decide (b.top ≤ top))
  | _, _, _ => []

/-- The same area cut into runs of slabs. -/
def slabRuns (boxes : List Box) : List Box :=
  sweepSlabs (levels boxes) [] (boxes.mergeSort fun b c => decide (b.top ≤ c.top))

/-- Boxes without overlap that cover the area of the given rectangles. Boxes that do not overlap stay
as they are. -/
def disjointBoxes (rects : List Corners) : List Box :=
  let boxes := properBoxes rects
  if hasOverlap boxes then slabRuns boxes else boxes

theorem disjointBoxes_nil : disjointBoxes [] = [] := by
  simp [disjointBoxes, properBoxes, hasOverlap_nil]

end Redraw.Outline
