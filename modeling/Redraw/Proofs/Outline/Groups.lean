import Redraw.Proofs.Outline.Carrying
import Redraw.Proofs.Outline.Turns

namespace Redraw.Outline

/-! ### Points of the plane -/

/-- All points of a box in the plane, its sides included. -/
def Box.inPlane (b : Box) : Set (ℝ × ℝ) :=
  Set.Icc (Point.inPlane ⟨b.left, b.top⟩) (Point.inPlane ⟨b.right, b.bottom⟩)

/-- All points of the plane that lie in a rectangle with an area, its sides included. -/
def closedRegion (rects : List Corners) : Set (ℝ × ℝ) := ⋃ b ∈ properBoxes rects, b.inPlane

theorem mem_inPlane (b : Box) (x y : ℝ) : (x, y) ∈ b.inPlane ↔
    (b.left ≤ x ∧ b.top ≤ y) ∧ x ≤ b.right ∧ y ≤ b.bottom := Iff.rfl

theorem mem_closedRegion_of_touched {rects : List Corners} {p : Point}
    (h : 0 < coveredAround rects p) : p.inPlane ∈ closedRegion rects := by
  obtain ⟨⟨i, j⟩, hcell, hcover⟩ := List.countP_pos_iff.mp h
  obtain ⟨b, hb, hbox⟩ := (covers_properBoxes rects i j).mpr (of_decide_eq_true hcover)
  simp only [Point.cells, List.mem_cons, Prod.mk.injEq, List.not_mem_nil, or_false] at hcell
  simp only [Box.Covers] at hbox
  refine Set.mem_biUnion hb ?_
  rw [Point.inPlane, mem_inPlane]
  simp only [Int.cast_le]
  omega

/-- No point is touched by covered cells of both groups. -/
def Separate (group others : List Corners) : Prop :=
  ∀ p, coveredAround group p = 0 ∨ coveredAround others p = 0

theorem separate_of_disjoint {group others : List Corners}
    (h : Disjoint (closedRegion group) (closedRegion others)) : Separate group others := by
  intro p
  by_contra hboth
  rw [not_or] at hboth
  exact Set.disjoint_left.mp h (mem_closedRegion_of_touched (Nat.pos_of_ne_zero hboth.1))
    (mem_closedRegion_of_touched (Nat.pos_of_ne_zero hboth.2))

theorem Separate.symm {group others : List Corners} (h : Separate group others) :
    Separate others group := fun p => (h p).symm

/-! ### Touched points -/

section Touched

variable {rects : List Corners} {p : Point}

theorem touched_of_mem (h : p ∈ oddCorners (disjointBoxes rects)) : 0 < coveredAround rects p := by
  rw [mem_vertices_iff] at h
  omega

theorem touched_of_covered {i j : Int} (hcell : (i, j) ∈ p.cells) (h : Covered rects i j) :
    0 < coveredAround rects p :=
  List.countP_pos_iff.mpr ⟨(i, j), hcell, decide_eq_true h⟩

/-- With an odd number of vertices up to a place of a line, one of the cells beside it is covered. -/
theorem touched_of_odd_upTo {axis : Axis} (hodd : (oddCorners (disjointBoxes rects)).countP
    (axis.upTo (axis.line p) (axis.place p)) % 2 = 1) : 0 < coveredAround rects p := by
  by_contra hnone
  have hclear : ∀ i j, (i, j) ∈ p.cells → ¬Covered rects i j :=
    fun i j hcell hcover => hnone (touched_of_covered hcell hcover)
  have hparity := quadrant_parity rects p.x p.y
  rw [if_neg (hclear _ _ (by simp [Point.cells]))] at hparity
  cases axis with
  | vertical =>
    have hcolumn := countP_inQuadrant_column (p.x - 1) p.y (oddCorners (disjointBoxes rects))
    have hleft := quadrant_parity rects (p.x - 1) p.y
    rw [if_neg (hclear _ _ (by simp [Point.cells]))] at hleft
    rw [Int.sub_add_cancel] at hcolumn
    simp only [Axis.line, Axis.place] at hodd
    omega
  | horizontal =>
    have hrow := countP_inQuadrant_row p.x (p.y - 1) (oddCorners (disjointBoxes rects))
    have habove := quadrant_parity rects p.x (p.y - 1)
    rw [if_neg (hclear _ _ (by simp [Point.cells]))] at habove
    rw [Int.sub_add_cancel] at hrow
    simp only [Axis.line, Axis.place] at hodd
    omega

end Touched

/-! ### Both groups together -/

section Together

variable {rects group others : List Corners}

theorem covered_together (hperm : rects.Perm (group ++ others)) (i j : Int) :
    Covered rects i j ↔ Covered group i j ∨ Covered others i j := by
  simp only [Covered, hperm.mem_iff, List.mem_append, or_and_right, exists_or]

theorem coveredAround_together (hperm : rects.Perm (group ++ others)) {p : Point}
    (hnone : coveredAround others p = 0) : coveredAround rects p = coveredAround group p := by
  apply List.countP_congr
  intro cell hcell
  have hclear := List.countP_eq_zero.mp hnone cell hcell
  simp only [decide_eq_true_eq] at hclear ⊢
  rw [covered_together hperm]
  exact or_iff_left hclear

theorem vertices_together (hperm : rects.Perm (group ++ others)) (hapart : Separate group others) :
    (oddCorners (disjointBoxes rects)).Perm
      (oddCorners (disjointBoxes group) ++ oddCorners (disjointBoxes others)) := by
  have hback := hperm.trans List.perm_append_comm
  have hdisjoint : ∀ p ∈ oddCorners (disjointBoxes group),
      p ∉ oddCorners (disjointBoxes others) := by
    intro p hp hp'
    have htouched := touched_of_mem hp
    have htouched' := touched_of_mem hp'
    have hnone := hapart p
    omega
  have hnodup := List.nodup_append'.mpr
    ⟨oddCorners_nodup (disjointBoxes group), oddCorners_nodup (disjointBoxes others), hdisjoint⟩
  refine (List.perm_ext_iff_of_nodup (oddCorners_nodup _) hnodup).mpr ?_
  intro p
  rw [List.mem_append, mem_vertices_iff, mem_vertices_iff, mem_vertices_iff]
  rcases hapart p with hnone | hnone
  · rw [coveredAround_together hback hnone, hnone]
    simp
  · rw [coveredAround_together hperm hnone, hnone]
    simp

theorem carried_together (hperm : rects.Perm (group ++ others)) (hapart : Separate group others) :
    Carried (disjointBoxes group) (disjointBoxes rects) id := by
  have hvertices := vertices_together hperm hapart
  refine ⟨fun p _ q _ hpq => hpq, ?_⟩
  intro axis p q hpq honwards
  have hsound := sound_ofVertices (disjointBoxes group) axis
  have hline := hsound.same_line p q hpq
  have hp := (hsound.defined p).mpr ⟨q, hpq⟩
  have hq := (hsound.defined q).mpr ⟨p, hsound.symm p q hpq⟩
  -- where the edge goes, only cells of its own group touch
  have hclear : ∀ v, axis.line v = axis.line p → axis.place p ≤ axis.place v →
      axis.place v < axis.place q → coveredAround others v = 0 := by
    intro v hv hle hlt
    have hover : axis.Over (axis.line v) (axis.place v) (p, q) := axis.over_of_lt hv.symm hle hlt
    have htouched := touched_of_odd_upTo (odd_upTo_of_over hpq hover)
    have hnone := hapart v
    omega
  apply along_of_odd (hvertices.mem_iff.mpr (List.mem_append_left _ hp))
    (hvertices.mem_iff.mpr (List.mem_append_left _ hq)) hline honwards
  · intro v hv hsame hafter
    by_contra hbefore
    rcases List.mem_append.mp (hvertices.mem_iff.mp hv) with hmem | hmem
    · exact hbefore (place_le_of_onwards hpq honwards hmem hsame hafter)
    · have htouched := touched_of_mem hmem
      have hnone := hclear v hsame (by omega) (by omega)
      omega
  · have hodd := odd_upTo_of_onwards hpq honwards
    have heven : (oddCorners (disjointBoxes others)).countP
        (axis.upTo (axis.line p) (axis.place p)) % 2 ≠ 1 := by
      intro hother
      have htouched := touched_of_odd_upTo hother
      have hnone := hclear p rfl (Int.le_refl _) honwards
      omega
    rw [hvertices.countP_eq, List.countP_append]
    omega

theorem outlines_subset_together (hperm : rects.Perm (group ++ others))
    (hapart : Separate group others) : ∀ polygon ∈ outlines group, polygon ∈ outlines rects := by
  intro polygon hpolygon
  have hmem := (carried_together hperm hapart).mem_boundary hpolygon
  rwa [List.map_id] at hmem

end Together

/-- Two groups of rectangles without a common point in the plane, in whatever order they are given
together, have the outlines of the one group and those of the other, in order of their first vertices. -/
theorem outlines_of_groups {rects group others : List Corners} (hperm : rects.Perm (group ++ others))
    (hapart : Disjoint (closedRegion group) (closedRegion others)) :
    (outlines rects).Perm (outlines group ++ outlines others) ∧
      (outlines rects).Pairwise FirstBefore := by
  have hseparate := separate_of_disjoint hapart
  have hvertices := vertices_together hperm hseparate
  refine ⟨(perm_boundary ?_ ?_ ?_).symm, boundary_ordered _⟩
  · refine List.nodup_append'.mpr ⟨boundary_distinct _, boundary_distinct _, ?_⟩
    intro polygon hpolygon hpolygon'
    obtain ⟨first, rest, rfl, -⟩ := boundary_least hpolygon
    have htouched := touched_of_mem (mem_of_mem_boundary hpolygon first List.mem_cons_self)
    have htouched' := touched_of_mem (mem_of_mem_boundary hpolygon' first List.mem_cons_self)
    have hnone := hseparate first
    omega
  · intro polygon hpolygon
    rcases List.mem_append.mp hpolygon with h | h
    · exact outlines_subset_together hperm hseparate polygon h
    · exact outlines_subset_together (hperm.trans List.perm_append_comm) hseparate.symm polygon h
  · intro p hp
    rcases List.mem_append.mp (hvertices.mem_iff.mp hp) with h | h
    · obtain ⟨polygon, hpolygon, hmem⟩ := exists_mem_boundary h
      exact ⟨polygon, List.mem_append_left _ hpolygon, hmem⟩
    · obtain ⟨polygon, hpolygon, hmem⟩ := exists_mem_boundary h
      exact ⟨polygon, List.mem_append_right _ hpolygon, hmem⟩

/-- Two squares that overlap lie in the hole of a frame, and the rectangles are given mixed. -/
theorem outlines_of_groups_nested :
    let frame : List Corners :=
      [⟨⟨0, 0⟩, ⟨7, 1⟩⟩, ⟨⟨0, 0⟩, ⟨1, 7⟩⟩, ⟨⟨6, 1⟩, ⟨7, 7⟩⟩, ⟨⟨1, 6⟩, ⟨7, 7⟩⟩]
    let squares : List Corners := [⟨⟨2, 2⟩, ⟨4, 4⟩⟩, ⟨⟨5, 5⟩, ⟨3, 3⟩⟩]
    let mixed : List Corners :=
      [⟨⟨0, 0⟩, ⟨7, 1⟩⟩, ⟨⟨2, 2⟩, ⟨4, 4⟩⟩, ⟨⟨0, 0⟩, ⟨1, 7⟩⟩, ⟨⟨6, 1⟩, ⟨7, 7⟩⟩, ⟨⟨5, 5⟩, ⟨3, 3⟩⟩,
        ⟨⟨1, 6⟩, ⟨7, 7⟩⟩]
    mixed.Perm (frame ++ squares) ∧ Disjoint (closedRegion frame) (closedRegion squares) ∧
      (outlines mixed).Perm (outlines frame ++ outlines squares) ∧
        (outlines mixed).Pairwise FirstBefore := by
  intro frame squares mixed
  have hperm : mixed.Perm (frame ++ squares) := by decide
  have hapart : Disjoint (closedRegion frame) (closedRegion squares) := by
    have hframe : properBoxes frame =
        [⟨0, 0, 7, 1⟩, ⟨0, 0, 1, 7⟩, ⟨6, 1, 7, 7⟩, ⟨1, 6, 7, 7⟩] := by decide
    have hsquares : properBoxes squares = [⟨2, 2, 4, 4⟩, ⟨3, 3, 5, 5⟩] := by decide
    rw [Set.disjoint_left]
    rintro ⟨x, y⟩ hz hz'
    simp only [closedRegion, hframe, hsquares, Set.mem_iUnion, List.mem_cons, List.not_mem_nil,
      or_false, exists_prop, exists_eq_or_imp, exists_eq_left, mem_inPlane] at hz hz'
    norm_num at hz hz'
    rcases hz' with hz' | hz' <;> rcases hz with hz | hz | hz | hz <;> linarith
  exact ⟨hperm, hapart, outlines_of_groups hperm hapart⟩

end Redraw.Outline
