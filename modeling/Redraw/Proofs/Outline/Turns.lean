import Redraw.Proofs.Outline.Boundary
import Redraw.Proofs.Outline.Region

namespace Redraw.Outline

/-- The unit cells that have the point as a corner. -/
def Point.cells (p : Point) : List (Int × Int) :=
  [(p.x - 1, p.y - 1), (p.x, p.y - 1), (p.x - 1, p.y), (p.x, p.y)]

def coveredAround (rects : List Corners) (p : Point) : Nat :=
  p.cells.countP fun cell => decide (Covered rects cell.1 cell.2)

theorem coveredAround_le (rects : List Corners) (p : Point) : coveredAround rects p ≤ 4 :=
  List.countP_le_length

theorem quadrant_parity (rects : List Corners) (i j : Int) :
    (oddCorners (disjointBoxes rects)).countP (inQuadrant i j) % 2 =
      if Covered rects i j then 1 else 0 := by
  have hodd := odd_vertices_iff_covered rects i j
  split
  · next hcover => exact hodd.mpr hcover
  · next hclear =>
    rw [← hodd] at hclear
    omega

theorem mem_vertices_iff (rects : List Corners) (p : Point) :
    p ∈ oddCorners (disjointBoxes rects) ↔ coveredAround rects p % 2 = 1 := by
  have hcount := countP_quadrants (oddCorners (disjointBoxes rects)) p
  have habove := quadrant_parity rects (p.x - 1) (p.y - 1)
  have hright := quadrant_parity rects p.x (p.y - 1)
  have hleft := quadrant_parity rects (p.x - 1) p.y
  have hbelow := quadrant_parity rects p.x p.y
  rw [mem_iff_odd_countP (oddCorners_nodup _)]
  simp only [coveredAround, Point.cells, List.countP_cons, List.countP_nil, decide_eq_true_eq]
  omega

/-- Whatever the rectangles, a point with one or three covered cells around it occurs once among the
points of all outlines, and no other point occurs. -/
theorem outlines_turn_once (rects : List Corners) (p : Point) :
    (outlines rects).flatten.count p =
      if coveredAround rects p = 1 ∨ coveredAround rects p = 3 then 1 else 0 := by
  have hvertices := flatten_boundary_perm (disjointBoxes rects)
  have hodd : p ∈ oddCorners (disjointBoxes rects) ↔
      coveredAround rects p = 1 ∨ coveredAround rects p = 3 := by
    have hle := coveredAround_le rects p
    rw [mem_vertices_iff]
    omega
  rw [outlines, hvertices.count_eq, (oddCorners_nodup _).count]
  simp only [hodd]

/-- Where two squares touch in a corner, the outline goes straight on. -/
example : coveredAround [⟨⟨0, 0⟩, ⟨1, 1⟩⟩, ⟨⟨1, 1⟩, ⟨2, 2⟩⟩] ⟨1, 1⟩ = 2 := by decide

end Redraw.Outline
