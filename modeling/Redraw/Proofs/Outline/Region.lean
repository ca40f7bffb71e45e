import Redraw.Outline.Trace
import Redraw.Proofs.Outline.Cells
import Redraw.Proofs.Outline.Vertices

/-!
# Outlines depend on the region only

A point is a vertex exactly if an odd number of the four cells around it is covered. So however the region
is cut, its vertices and its outlines are the same.
-/

namespace Redraw.Outline

def Covered (rects : List Corners) (i j : Int) : Prop := ∃ c ∈ rects, c.Covers i j

instance (rects : List Corners) (i j : Int) : Decidable (Covered rects i j) :=
  inferInstanceAs (Decidable (∃ c ∈ rects, c.Covers i j))

/-! ### Points and quadrants -/

theorem countP_quadrants (points : List Point) (p : Point) :
    points.countP (inQuadrant p.x p.y) + points.countP (inQuadrant (p.x - 1) (p.y - 1)) =
      points.countP (fun q => decide (q = p)) + points.countP (inQuadrant (p.x - 1) p.y) +
        points.countP (inQuadrant p.x (p.y - 1)) := by
  induction points with
  | nil => rfl
  | cons q rest ih =>
    have hq : q = p ↔ (q.x ≤ p.x ∧ ¬q.x ≤ p.x - 1) ∧ q.y ≤ p.y ∧ ¬q.y ≤ p.y - 1 := by
      cases q
      cases p
      simp only [Point.mk.injEq]
      omega
    simp only [List.countP_cons, inQuadrant, decide_eq_true_eq, hq] at ih ⊢
    by_cases hx : q.x ≤ p.x <;> by_cases hx' : q.x ≤ p.x - 1 <;> by_cases hy : q.y ≤ p.y <;>
      by_cases hy' : q.y ≤ p.y - 1 <;> simp [hx, hx', hy, hy'] <;> omega

theorem mem_iff_odd_countP {points : List Point} (hnodup : points.Nodup) (p : Point) :
    p ∈ points ↔ points.countP (fun q => decide (q = p)) % 2 = 1 := by
  have hcount : points.countP (fun q => decide (q = p)) = points.count p := rfl
  rw [hcount, hnodup.count]
  by_cases hp : p ∈ points <;> simp [hp]

/-- Points in strict order are known from how many of them, up to an even number, lie in each
quadrant. -/
theorem eq_of_quadrants {points points' : List Point} (hsorted : points.Pairwise Point.Precedes)
    (hsorted' : points'.Pairwise Point.Precedes)
    (hsame : ∀ i j, points.countP (inQuadrant i j) % 2 = points'.countP (inQuadrant i j) % 2) :
    points = points' := by
  have hnodup : points.Nodup := hsorted.imp Point.Precedes.ne
  have hnodup' : points'.Nodup := hsorted'.imp Point.Precedes.ne
  apply eq_of_increasing hsorted hsorted'
  intro p
  have hcount := countP_quadrants points p
  have hcount' := countP_quadrants points' p
  have h₁ := hsame p.x p.y
  have h₂ := hsame (p.x - 1) (p.y - 1)
  have h₃ := hsame (p.x - 1) p.y
  have h₄ := hsame p.x (p.y - 1)
  rw [mem_iff_odd_countP hnodup, mem_iff_odd_countP hnodup']
  omega

/-! ### Vertices of a region -/

/-- However a region is cut into boxes, its boundary is the same. -/
theorem boundary_congr {boxes boxes' : List Box} (hproper : ∀ b ∈ boxes, b.Proper)
    (hapart : boxes.Pairwise Box.Apart) (hproper' : ∀ b ∈ boxes', b.Proper)
    (hapart' : boxes'.Pairwise Box.Apart)
    (hcover : ∀ i j, (∃ b ∈ boxes, b.Covers i j) ↔ ∃ b ∈ boxes', b.Covers i j) :
    boundary boxes = boundary boxes' := by
  have hvertices : oddCorners boxes = oddCorners boxes' := by
    apply eq_of_quadrants (oddCorners_increasing boxes) (oddCorners_increasing boxes')
    intro i j
    have hodd := odd_quadrant_iff_covers hproper hapart i j
    have hodd' := odd_quadrant_iff_covers hproper' hapart' i j
    rw [hcover i j, ← hodd'] at hodd
    omega
  simp only [boundary, hvertices]

theorem odd_vertices_iff_covered (rects : List Corners) (i j : Int) :
    (oddCorners (disjointBoxes rects)).countP (inQuadrant i j) % 2 = 1 ↔ Covered rects i j :=
  (odd_quadrant_iff_covers (disjointBoxes_proper rects) (disjointBoxes_apart rects) i j).trans
    (disjointBoxes_covers rects i j)

theorem slabRuns_proper {boxes : List Box} (hproper : ∀ b ∈ boxes, b.Proper) :
    ∀ r ∈ slabRuns boxes, r.Proper := by
  refine sweepSlabs_proper (levels_increasing boxes) ?_
  exact fun b hb => hproper b (List.mem_mergeSort.mp hb)

theorem outlines_eq_boundary_slabRuns (rects : List Corners) :
    outlines rects = boundary (slabRuns (properBoxes rects)) := by
  have hproper : ∀ b ∈ properBoxes rects, b.Proper := fun b hb => proper_of_mem_properBoxes hb
  apply boundary_congr (disjointBoxes_proper rects) (disjointBoxes_apart rects)
    (slabRuns_proper hproper) (sweepSlabs_apart (levels_increasing _))
  intro i j
  rw [disjointBoxes_covers, slabRuns_covers hproper, covers_properBoxes]

/-! ### Outlines of a region -/

/-- Rectangles that cover the same cells have the same outlines, point by point, and these are also
the outlines of the slabs that either of them can be cut into. -/
theorem outlines_eq_of_covered_iff {rects rects' : List Corners}
    (hcover : ∀ i j, Covered rects i j ↔ Covered rects' i j) :
    outlines rects = outlines rects' ∧
      outlines rects = boundary (slabRuns (properBoxes rects')) := by
  have hsame : outlines rects = outlines rects' := by
    apply boundary_congr (disjointBoxes_proper rects) (disjointBoxes_apart rects)
      (disjointBoxes_proper rects') (disjointBoxes_apart rects')
    intro i j
    rw [disjointBoxes_covers, disjointBoxes_covers]
    exact hcover i j
  exact ⟨hsame, hsame.trans (outlines_eq_boundary_slabRuns rects')⟩

/-- One rectangle, and the same area as two that overlap, one with its corners turned round, together
with a piece inside and one without an area. -/
def whole : List Corners := [⟨⟨0, 0⟩, ⟨4, 2⟩⟩]

def pieces : List Corners :=
  [⟨⟨4, 2⟩, ⟨1, 0⟩⟩, ⟨⟨0, 0⟩, ⟨2, 2⟩⟩, ⟨⟨1, 1⟩, ⟨2, 2⟩⟩, ⟨⟨9, 0⟩, ⟨9, 5⟩⟩]

theorem outlines_eq_of_covered_iff_pieces :
    (∀ i j, Covered whole i j ↔ Covered pieces i j) ∧
      outlines whole = outlines pieces ∧
        outlines whole = boundary (slabRuns (properBoxes pieces)) := by
  have hcover : ∀ i j, Covered whole i j ↔ Covered pieces i j := by
    intro i j
    simp only [Covered, whole, pieces, List.mem_cons, List.not_mem_nil, or_false, exists_eq_or_imp,
      exists_eq_left, Corners.Covers]
    omega
  exact ⟨hcover, outlines_eq_of_covered_iff hcover⟩

end Redraw.Outline
