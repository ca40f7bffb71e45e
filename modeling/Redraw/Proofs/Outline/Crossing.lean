import Mathlib
import Redraw.Proofs.Outline.Sides

namespace Redraw.Outline

/-! ### Cells on both sides of an edge -/

theorem flatten_parity {keep keep' : Point → Bool} {polygons : List Polygon}
    (h : ∀ polygon ∈ polygons, polygon.countP keep % 2 = polygon.countP keep' % 2) :
    polygons.flatten.countP keep % 2 = polygons.flatten.countP keep' % 2 := by
  induction polygons with
  | nil => rfl
  | cons polygon rest ih =>
    obtain ⟨hfirst, hrest⟩ := List.forall_mem_cons.mp h
    have hrest := ih hrest
    rw [List.flatten_cons, List.countP_append, List.countP_append]
    omega

/-- The vertices up to a place of a line are even or odd in number as the edges that go over it. -/
theorem upTo_parity (boxes : List Box) (axis : Axis) (c t : Int) :
    (oddCorners boxes).countP (axis.upTo c t) % 2 =
      (oddCorners boxes).countP ((Edges.ofVertices (oddCorners boxes)).beginsOver axis c t) % 2 := by
  have hsound := sound_ofVertices boxes
  have hperm := flatten_boundary_perm boxes
  have hparity := flatten_parity fun polygon (hpolygon : polygon ∈ boundary boxes) =>
    (outlines_of_mem_boundary hpolygon).upTo hsound axis c t
  rwa [hperm.countP_eq, hperm.countP_eq] at hparity

theorem odd_upTo_of_over {boxes : List Box} {axis : Axis} {c t : Int} {p q : Point}
    (hpq : ((Edges.ofVertices (oddCorners boxes)).along axis)[p]? = some q)
    (hover : axis.Over c t (p, q)) : (oddCorners boxes).countP (axis.upTo c t) % 2 = 1 := by
  have hsound := sound_ofVertices boxes
  have hparity := upTo_parity boxes axis c t
  have hbegins : (Edges.ofVertices (oddCorners boxes)).beginsOver axis c t p = true := by
    unfold Edges.beginsOver
    rw [hpq]
    exact decide_eq_true hover
  have hsome : 0 < (oddCorners boxes).countP
      ((Edges.ofVertices (oddCorners boxes)).beginsOver axis c t) :=
    List.countP_pos_iff.mpr ⟨p, ((hsound axis).defined p).mpr ⟨q, hpq⟩, hbegins⟩
  have hone := countP_beginsOver_le (oddCorners_nodup boxes) boxes axis c t
  omega

section Cells

variable {rects : List Corners} {i j : Int} {p q : Point}

theorem covered_beside_column
    (hpq : ((Edges.ofVertices (oddCorners (disjointBoxes rects))).along .vertical)[p]? = some q)
    (hover : Axis.vertical.Over i j (p, q)) : Covered rects i j ↔ ¬Covered rects (i - 1) j := by
  have hodd := odd_upTo_of_over hpq hover
  have hcolumn := countP_inQuadrant_column (i - 1) j (oddCorners (disjointBoxes rects))
  rw [Int.sub_add_cancel] at hcolumn
  rw [← odd_vertices_iff_covered, ← odd_vertices_iff_covered]
  omega

theorem covered_beside_row
    (hpq : ((Edges.ofVertices (oddCorners (disjointBoxes rects))).along .horizontal)[p]? = some q)
    (hover : Axis.horizontal.Over j i (p, q)) : Covered rects i j ↔ ¬Covered rects i (j - 1) := by
  have hodd := odd_upTo_of_over hpq hover
  have hrow := countP_inQuadrant_row i (j - 1) (oddCorners (disjointBoxes rects))
  rw [Int.sub_add_cancel] at hrow
  rw [← odd_vertices_iff_covered, ← odd_vertices_iff_covered]
  omega

/-- Of the four cells around the point exactly two are covered, and these lie across from each other. -/
def Checkered (rects : List Corners) (p : Point) : Prop :=
  Covered rects (p.x - 1) (p.y - 1) ∧ Covered rects p.x p.y ∧
      ¬Covered rects p.x (p.y - 1) ∧ ¬Covered rects (p.x - 1) p.y ∨
    ¬Covered rects (p.x - 1) (p.y - 1) ∧ ¬Covered rects p.x p.y ∧
      Covered rects p.x (p.y - 1) ∧ Covered rects (p.x - 1) p.y

end Cells

/-! ### Edges in the plane -/

def Point.inPlane (p : Point) : ℝ × ℝ := (p.x, p.y)

/-- All points of an edge, its ends included. -/
def trace (side : Point × Point) : Set (ℝ × ℝ) := segment ℝ side.1.inPlane side.2.inPlane

def Axis.lineAt : Axis → ℝ × ℝ → ℝ
  | .vertical => Prod.fst
  | .horizontal => Prod.snd

def Axis.placeAt : Axis → ℝ × ℝ → ℝ
  | .vertical => Prod.snd
  | .horizontal => Prod.fst

theorem mem_trace (axis : Axis) {p q : Point} (hline : axis.line p = axis.line q) {z : ℝ × ℝ} :
    z ∈ trace (p, q) ↔ axis.lineAt z = axis.line p ∧
      ((min (axis.place p) (axis.place q) : Int) : ℝ) ≤ axis.placeAt z ∧
        axis.placeAt z ≤ (max (axis.place p) (axis.place q) : Int) := by
  obtain ⟨x, y⟩ := z
  rw [Int.cast_min, Int.cast_max]
  unfold trace Point.inPlane
  cases axis with
  | vertical =>
    have hx : p.x = q.x := hline
    rw [← hx, ← Prod.image_mk_segment_right, segment_eq_uIcc]
    simp only [Set.mem_image, Prod.mk.injEq, Set.uIcc, Set.mem_Icc, Axis.lineAt, Axis.placeAt,
      Axis.line, Axis.place]
    constructor
    · intro h
      obtain ⟨_, hplace, hx, hy⟩ := h
      exact ⟨hx.symm, hy ▸ hplace⟩
    · intro h
      obtain ⟨hx, hplace⟩ := h
      exact ⟨y, hplace, hx.symm, rfl⟩
  | horizontal =>
    have hy : p.y = q.y := hline
    rw [← hy, ← Prod.image_mk_segment_left, segment_eq_uIcc]
    simp only [Set.mem_image, Prod.mk.injEq, Set.uIcc, Set.mem_Icc, Axis.lineAt, Axis.placeAt,
      Axis.line, Axis.place]
    constructor
    · intro h
      obtain ⟨_, hplace, hx, hy⟩ := h
      exact ⟨hy.symm, hx ▸ hplace⟩
    · intro h
      obtain ⟨hy, hplace⟩ := h
      exact ⟨x, hplace, rfl, hy.symm⟩

/-- Edges on one axis have no point in common, unless they are the same. -/
theorem disjoint_of_parallel {boxes : List Box} {axis : Axis} {side side' : Point × Point}
    (h : ((Edges.ofVertices (oddCorners boxes)).along axis)[side.1]? = some side.2)
    (h' : ((Edges.ofVertices (oddCorners boxes)).along axis)[side'.1]? = some side'.2)
    (hne : side' ≠ side) (hneBack : side' ≠ side.swap) : Disjoint (trace side) (trace side') := by
  have hsound := sound_ofVertices boxes axis
  have hsame := hsound.same_line _ _ h
  have hsame' := hsound.same_line _ _ h'
  rw [Set.disjoint_left]
  intro z hz hz'
  obtain ⟨hline, hlow, hhigh⟩ := (mem_trace axis hsame).mp hz
  obtain ⟨hline', hlow', hhigh'⟩ := (mem_trace axis hsame').mp hz'
  have hlines : axis.line side.1 = axis.line side'.1 := Int.cast_inj.mp (hline.symm.trans hline')
  have hmeet := Int.cast_le.mp (hlow.trans hhigh')
  have hmeet' := Int.cast_le.mp (hlow'.trans hhigh)
  rcases eq_of_meet h h' hlines hmeet hmeet' with ⟨hfst, hsnd⟩ | ⟨hfst, hsnd⟩
  · exact hne (Prod.ext hfst hsnd)
  · exact hneBack (Prod.ext hfst hsnd)

theorem trace_inter_of_perpendicular {side side' : Point × Point} (hx : side.1.x = side.2.x)
    (hy : side'.1.y = side'.2.y) : Disjoint (trace side) (trace side') ∨
      trace side ∩ trace side' = {Point.inPlane ⟨side.1.x, side'.1.y⟩} ∧
        (min side.1.y side.2.y ≤ side'.1.y ∧ side'.1.y ≤ max side.1.y side.2.y) ∧
          min side'.1.x side'.2.x ≤ side.1.x ∧ side.1.x ≤ max side'.1.x side'.2.x := by
  have hside : ∀ z : ℝ × ℝ, z ∈ trace side ↔ z.1 = side.1.x ∧
      ((min side.1.y side.2.y : Int) : ℝ) ≤ z.2 ∧ z.2 ≤ (max side.1.y side.2.y : Int) :=
    fun _ => mem_trace .vertical hx
  have hside' : ∀ z : ℝ × ℝ, z ∈ trace side' ↔ z.2 = side'.1.y ∧
      ((min side'.1.x side'.2.x : Int) : ℝ) ≤ z.1 ∧ z.1 ≤ (max side'.1.x side'.2.x : Int) :=
    fun _ => mem_trace .horizontal hy
  have hpoint : ∀ z, z ∈ trace side ∩ trace side' → z = Point.inPlane ⟨side.1.x, side'.1.y⟩ := by
    intro z hz
    exact Prod.ext ((hside z).mp hz.1).1 ((hside' z).mp hz.2).1
  have hmem : Point.inPlane ⟨side.1.x, side'.1.y⟩ ∈ trace side ∩ trace side' ↔
      (min side.1.y side.2.y ≤ side'.1.y ∧ side'.1.y ≤ max side.1.y side.2.y) ∧
        min side'.1.x side'.2.x ≤ side.1.x ∧ side.1.x ≤ max side'.1.x side'.2.x := by
    rw [Set.mem_inter_iff, hside, hside']
    simp only [Point.inPlane, Int.cast_le, true_and]
  by_cases hboth : Point.inPlane ⟨side.1.x, side'.1.y⟩ ∈ trace side ∩ trace side'
  · exact Or.inr ⟨Set.eq_singleton_iff_unique_mem.mpr ⟨hboth, hpoint⟩, hmem.mp hboth⟩
  · left
    rw [Set.disjoint_left]
    intro z hz hz'
    exact hboth (hpoint z ⟨hz, hz'⟩ ▸ ⟨hz, hz'⟩)

/-! ### Sides of the outlines -/

/-- One side follows the other, and they have the vertex between them in common and nothing else. -/
def Joined (polygon : Polygon) (side side' : Point × Point) : Prop :=
  Consecutive polygon side side' ∧ trace side ∩ trace side' = {side.2.inPlane}

/-- The sides cross at the point, which ends neither of them. -/
def Crosses (p : Point) (side side' : Point × Point) : Prop :=
  trace side ∩ trace side' = {p.inPlane} ∧ p ∉ [side.1, side.2, side'.1, side'.2]

/-- The sides are apart, or joined, or they cross between cells like those of a chessboard. -/
def Meets (rects : List Corners) (side side' : Point × Point) : Prop :=
  Disjoint (trace side) (trace side') ∨
    (∃ polygon ∈ outlines rects, Joined polygon side side' ∨ Joined polygon side' side) ∨
      ∃ p, Checkered rects p ∧ Crosses p side side'

theorem Meets.symm {rects : List Corners} {side side' : Point × Point}
    (h : Meets rects side side') : Meets rects side' side := by
  rcases h with h | ⟨polygon, hpolygon, h⟩ | ⟨p, hp, hinter, hends⟩
  · exact Or.inl h.symm
  · exact Or.inr (Or.inl ⟨polygon, hpolygon, h.symm⟩)
  · refine Or.inr (Or.inr ⟨p, hp, Set.inter_comm _ _ ▸ hinter, ?_⟩)
    simp only [List.mem_cons, List.not_mem_nil, or_false, not_or] at hends ⊢
    tauto

theorem exists_over {boxes : List Box} {axis : Axis} {side : Point × Point} {c t : Int}
    (h : ((Edges.ofVertices (oddCorners boxes)).along axis)[side.1]? = some side.2)
    (hline : axis.line side.1 = c) (hlow : min (axis.place side.1) (axis.place side.2) < t)
    (hhigh : t < max (axis.place side.1) (axis.place side.2)) :
    ∃ p q, ((Edges.ofVertices (oddCorners boxes)).along axis)[p]? = some q ∧
      axis.Over c (t - 1) (p, q) ∧ axis.Over c t (p, q) := by
  have hsound := sound_ofVertices boxes axis
  have hline' := (hsound.same_line _ _ h).symm.trans hline
  by_cases hlt : axis.place side.1 < axis.place side.2
  · exact ⟨side.1, side.2, h, axis.over_of_lt hline (by omega) (by omega),
      axis.over_of_lt hline (by omega) (by omega)⟩
  · exact ⟨side.2, side.1, hsound.symm _ _ h, axis.over_of_lt hline' (by omega) (by omega),
      axis.over_of_lt hline' (by omega) (by omega)⟩

section Pair

variable {rects : List Corners} {side side' : Point × Point} {v : Point}

/-- Where edges go through a point along both axes, the cells around it take turns. -/
theorem checkered_of_through
    (h : ((Edges.ofVertices (oddCorners (disjointBoxes rects))).along .vertical)[side.1]? =
      some side.2)
    (h' : ((Edges.ofVertices (oddCorners (disjointBoxes rects))).along .horizontal)[side'.1]? =
      some side'.2)
    (hx : side.1.x = v.x) (hy : side'.1.y = v.y)
    (hthrough : min side.1.y side.2.y < v.y ∧ v.y < max side.1.y side.2.y)
    (hthrough' : min side'.1.x side'.2.x < v.x ∧ v.x < max side'.1.x side'.2.x) :
    Checkered rects v := by
  obtain ⟨p, q, hpq, habove, hbelow⟩ := exists_over h hx hthrough.1 hthrough.2
  obtain ⟨p', q', hpq', -, hright⟩ := exists_over h' hy hthrough'.1 hthrough'.2
  have hcolumn := covered_beside_column hpq hbelow
  have hcolumn' := covered_beside_column hpq habove
  have hrow := covered_beside_row hpq' hright
  unfold Checkered
  tauto

theorem meets_of_perpendicular (h : side ∈ (outlines rects).flatMap sides)
    (h' : side' ∈ (outlines rects).flatMap sides)
    (halong : ((Edges.ofVertices (oddCorners (disjointBoxes rects))).along .vertical)[side.1]? =
      some side.2)
    (halong' : ((Edges.ofVertices (oddCorners (disjointBoxes rects))).along .horizontal)[side'.1]? =
      some side'.2) : Meets rects side side' := by
  have hsound := sound_ofVertices (disjointBoxes rects)
  have hx := (hsound .vertical).same_line _ _ halong
  have hy := (hsound .horizontal).same_line _ _ halong'
  rcases trace_inter_of_perpendicular hx hy with hapart | ⟨hinter, hbounds, hbounds'⟩
  · exact Or.inl hapart
  generalize hvertex : (⟨side.1.x, side'.1.y⟩ : Point) = v at hinter
  have hvx : side.1.x = v.x := hvertex ▸ rfl
  have hvy : side'.1.y = v.y := hvertex ▸ rfl
  rw [hvy] at hbounds
  rw [hvx] at hbounds'
  by_cases hv : v ∈ oddCorners (disjointBoxes rects)
  · -- both edges end at the vertex, and one of them leads on from there
    right
    left
    have hne : side ≠ side' := by
      intro heq
      subst heq
      cases axis_unique halong halong'
    have hend := eq_end_of_between halong hv hvx.symm hbounds.1 hbounds.2
    have hend' := eq_end_of_between halong' hv hvy.symm hbounds'.1 hbounds'.2
    rcases hend with hend | hend
    · rcases hend' with hend' | hend'
      · exact absurd (eq_of_fst_eq h h' (hend.symm.trans hend')) hne
      · obtain ⟨⟨polygon, hpolygon, hnext⟩, -⟩ :=
          follows_of_snd_eq_fst h' h halong' (hend'.symm.trans hend)
        refine ⟨polygon, hpolygon, Or.inr ⟨hnext, ?_⟩⟩
        rw [Set.inter_comm, hinter, hend']
    · rcases hend' with hend' | hend'
      · obtain ⟨⟨polygon, hpolygon, hnext⟩, -⟩ :=
          follows_of_snd_eq_fst h h' halong (hend.symm.trans hend')
        refine ⟨polygon, hpolygon, Or.inl ⟨hnext, ?_⟩⟩
        rw [hinter, hend]
      · exact absurd (eq_of_snd_eq h h' (hend.symm.trans hend')) hne
  · have hfst := ((hsound .vertical).defined side.1).mpr ⟨_, halong⟩
    have hsnd := ((hsound .vertical).defined side.2).mpr ⟨_, (hsound .vertical).symm _ _ halong⟩
    have hfst' := ((hsound .horizontal).defined side'.1).mpr ⟨_, halong'⟩
    have hsnd' := ((hsound .horizontal).defined side'.2).mpr
      ⟨_, (hsound .horizontal).symm _ _ halong'⟩
    have hends : v ≠ side.1 ∧ v ≠ side.2 ∧ v ≠ side'.1 ∧ v ≠ side'.2 :=
      ⟨fun heq => hv (heq ▸ hfst), fun heq => hv (heq ▸ hsnd), fun heq => hv (heq ▸ hfst'),
        fun heq => hv (heq ▸ hsnd')⟩
    have hapart : v.y ≠ side.1.y ∧ v.y ≠ side.2.y ∧ v.x ≠ side'.1.x ∧ v.x ≠ side'.2.x :=
      ⟨fun heq => hends.1 (Axis.vertical.ext hvx.symm heq),
        fun heq => hends.2.1 (Axis.vertical.ext (hvx.symm.trans hx) heq),
        fun heq => hends.2.2.1 (Axis.horizontal.ext hvy.symm heq),
        fun heq => hends.2.2.2 (Axis.horizontal.ext (hvy.symm.trans hy) heq)⟩
    have hcheckered := checkered_of_through halong halong' hvx hvy (by omega) (by omega)
    refine Or.inr (Or.inr ⟨v, hcheckered, hinter, ?_⟩)
    simp only [List.mem_cons, List.not_mem_nil, or_false, not_or]
    exact hends

theorem meets_of_ne (h : side ∈ (outlines rects).flatMap sides)
    (h' : side' ∈ (outlines rects).flatMap sides) (hne : side ≠ side') :
    Meets rects side side' := by
  obtain ⟨axis, halong, -⟩ := exists_next h
  obtain ⟨axis', halong', -⟩ := exists_next h'
  by_cases haxis : axis' = axis
  · subst haxis
    refine Or.inl (disjoint_of_parallel halong halong' hne.symm ?_)
    -- a side that led back would follow the other and turn
    intro hback
    obtain ⟨-, hturn⟩ := follows_of_snd_eq_fst h h' halong (congrArg Prod.fst hback).symm
    exact axis'.turn_ne (axis_unique hturn halong')
  · cases axis with
    | vertical =>
      cases axis' with
      | vertical => exact absurd rfl haxis
      | horizontal => exact meets_of_perpendicular h h' halong halong'
    | horizontal =>
      cases axis' with
      | vertical => exact (meets_of_perpendicular h' h halong' halong).symm
      | horizontal => exact absurd rfl haxis

end Pair

/-! ### Simple outlines -/

def curve (polygon : Polygon) : Set (ℝ × ℝ) := ⋃ side ∈ sides polygon, trace side

/-- The curve meets itself only where one side ends and the next one begins. -/
def Simple (polygon : Polygon) : Prop :=
  (sides polygon).Pairwise fun side side' =>
    Disjoint (trace side) (trace side') ∨ Joined polygon side side' ∨ Joined polygon side' side

theorem mem_of_mem_sides {polygon : Polygon} {side : Point × Point} (h : side ∈ sides polygon) :
    side.1 ∈ polygon := by
  have hmem := List.mem_map_of_mem (f := Prod.fst) h
  rwa [map_fst_sides] at hmem

theorem Joined.mem_sides {polygon : Polygon} {side side' : Point × Point}
    (h : Joined polygon side side') : side ∈ sides polygon ∧ side' ∈ sides polygon := by
  obtain ⟨⟨k, hk, hnext⟩, -⟩ := h
  exact ⟨List.mem_of_getElem? hk, List.mem_of_getElem? hnext⟩

theorem eq_of_mem_sides {rects : List Corners} {polygon polygon' : Polygon} {side : Point × Point}
    (hpolygon : polygon ∈ outlines rects) (hpolygon' : polygon' ∈ outlines rects)
    (h : side ∈ sides polygon) (h' : side ∈ sides polygon') : polygon = polygon' := by
  obtain ⟨-, hapart⟩ := List.nodup_flatten.mp (flatten_boundary_nodup (disjointBoxes rects))
  by_cases heq : polygon = polygon'
  · exact heq
  · have hsymm : Std.Symm (List.Disjoint : Polygon → Polygon → Prop) := ⟨fun _ _ h => h.symm⟩
    have hdisjoint := hapart.forall hpolygon hpolygon' heq
    exact absurd (mem_of_mem_sides h') (hdisjoint (mem_of_mem_sides h))

/-- Two sides of the outlines of whatever rectangles are apart, or they are consecutive sides of one
outline and share the vertex between them, or they cross at a point where two cells that touch are
covered and the two others around it are not. So without such points every outline is simple, and no
two outlines meet. -/
theorem outlines_meet (rects : List Corners) :
    ((outlines rects).flatMap sides).Pairwise (Meets rects) ∧
      ((∀ p, ¬Checkered rects p) → (∀ polygon ∈ outlines rects, Simple polygon) ∧
        (outlines rects).Pairwise fun polygon polygon' =>
          Disjoint (curve polygon) (curve polygon')) := by
  have hmeets : ((outlines rects).flatMap sides).Pairwise (Meets rects) :=
    (sides_boundary_nodup (disjointBoxes rects)).pairwise_of_forall_ne
      fun _ h _ h' hne => meets_of_ne h h' hne
  refine ⟨hmeets, ?_⟩
  intro hclear
  obtain ⟨hwithin, hbetween⟩ := List.pairwise_flatMap.mp hmeets
  obtain ⟨-, hapart⟩ := List.nodup_flatten.mp (flatten_boundary_nodup (disjointBoxes rects))
  constructor
  · intro polygon hpolygon
    refine (hwithin polygon hpolygon).imp_of_mem ?_
    intro side side' hside hside' hmeet
    rcases hmeet with h | ⟨other, hother, h⟩ | ⟨p, hp, -⟩
    · exact Or.inl h
    · have hmem : side ∈ sides other := h.elim (fun h => h.mem_sides.1) fun h => h.mem_sides.2
      obtain rfl := eq_of_mem_sides hpolygon hother hside hmem
      exact Or.inr h
    · exact absurd hp (hclear p)
  · refine (hbetween.and hapart).imp_of_mem ?_
    intro polygon polygon' hpolygon hpolygon' hboth
    obtain ⟨hmeet, hshare⟩ := hboth
    simp only [curve, Set.disjoint_iUnion_left, Set.disjoint_iUnion_right]
    intro side' hside' side hside
    rcases hmeet side hside side' hside' with h | ⟨other, hother, h⟩ | ⟨p, hp, -⟩
    · exact h
    · -- both sides would belong to one outline
      have hmem : side ∈ sides other ∧ side' ∈ sides other :=
        h.elim (fun h => h.mem_sides) fun h => h.mem_sides.symm
      obtain rfl := eq_of_mem_sides hpolygon hother hside hmem.1
      obtain rfl := eq_of_mem_sides hpolygon' hpolygon hside' hmem.2
      exact absurd (mem_of_mem_sides hside) (hshare (mem_of_mem_sides hside))
    · exact absurd hp (hclear p)

/-- A square with a hole has two outlines. -/
theorem outlines_meet_hole :
    let rects : List Corners :=
      [⟨⟨0, 0⟩, ⟨3, 1⟩⟩, ⟨⟨0, 1⟩, ⟨1, 2⟩⟩, ⟨⟨2, 1⟩, ⟨3, 2⟩⟩, ⟨⟨0, 2⟩, ⟨3, 3⟩⟩]
    (∀ p, ¬Checkered rects p) ∧ (outlines rects).length = 2 ∧
      (∀ polygon ∈ outlines rects, Simple polygon) ∧
        (outlines rects).Pairwise fun polygon polygon' =>
          Disjoint (curve polygon) (curve polygon') := by
  intro rects
  have hcover : ∀ i j, Covered rects i j ↔
      (0 ≤ i ∧ i < 3) ∧ (0 ≤ j ∧ j < 3) ∧ ¬(i = 1 ∧ j = 1) := by
    intro i j
    simp only [Covered, rects, List.mem_cons, List.not_mem_nil, or_false, exists_eq_or_imp,
      exists_eq_left, Corners.Covers]
    omega
  have hclear : ∀ p, ¬Checkered rects p := by
    intro p
    simp only [Checkered, hcover]
    omega
  have hlength : (outlines rects).length = 2 := by cbv
  exact ⟨hclear, hlength, (outlines_meet rects).2 hclear⟩

/-- Two squares that touch in a corner have one outline, which crosses itself there. -/
example : outlines [⟨⟨0, 0⟩, ⟨1, 1⟩⟩, ⟨⟨1, 1⟩, ⟨2, 2⟩⟩] =
    [[⟨0, 0⟩, ⟨0, 1⟩, ⟨2, 1⟩, ⟨2, 2⟩, ⟨1, 2⟩, ⟨1, 0⟩]] := by cbv

end Redraw.Outline
