import Redraw.Proofs.Outline.Parity

/-!
# Tracing ends with nothing left

A walk takes out one direction of every edge that it follows, and the other directions go with the vertices
that it has met. So the edges that are left match the vertices that are left, along both axes.
-/

namespace Redraw.Outline

/-! ### One outline after the other -/

/-- Every trace comes back to its start, meets no vertex twice, and takes out what it met. -/
theorem outlineAt_returns {e : Edges} {vertices : Point → Prop} {start : Point}
    (hsound : e.Sound vertices) (hstart : vertices start) :
    ∃ met left, Returns start .vertical start (e.erase start .horizontal) met left ∧
      (start :: met).Nodup ∧
      outlineAt start e = (start :: met, (start :: met).foldl Edges.eraseVertex left) := by
  obtain ⟨met, left, hreturns⟩ := (walking_start hstart).returns hsound
  have htraced : outlineAt start e = (start :: met, (start :: met).foldl Edges.eraseVertex left) := by
    simp only [outlineAt, hreturns.follow_eq]
  obtain ⟨-, -, hnodup, -⟩ := outlineAt_walk hsound hstart
  rw [htraced] at hnodup
  exact ⟨met, left, hreturns, hnodup, htraced⟩

/-- What the tracing of the boundary may have reached: the outlines so far and the edges that are left. -/
inductive Traced (boxes : List Box) : List Polygon → Edges → Prop where
  | outset : Traced boxes [] (.ofVertices (oddCorners boxes))
  | next {polygons : List Polygon} {edges : Edges} {start : Point} (h : Traced boxes polygons edges)
    (hstart : edges.horizontal.minKey? = some start) :
    Traced boxes (polygons ++ [(outlineAt start edges).1]) (outlineAt start edges).2

theorem mem_horizontal_iff {edges : Edges} {vertices : Point → Prop} (hsound : edges.Sound vertices)
    (p : Point) : p ∈ edges.horizontal ↔ vertices p := by
  rw [← contains_horizontal_iff hsound, Std.TreeMap.contains_iff_mem]

section Least

variable {points : List Point} {edges : Edges} {vertices : Point → Prop} {start : Point}

theorem outlinesThrough_next (hsound : edges.Sound vertices)
    (hpoints : ∀ p, vertices p → p ∈ points) (hsorted : points.Pairwise Point.Precedes)
    (hstart : edges.horizontal.minKey? = some start) :
    outlinesThrough points edges =
      (outlineAt start edges).1 :: outlinesThrough points (outlineAt start edges).2 := by
  obtain ⟨hmem, hleast⟩ := Std.TreeMap.minKey?_eq_some_iff_mem_and_forall.mp hstart
  have hvertex := (mem_horizontal_iff hsound start).mp hmem
  obtain ⟨-, houtline, -, -⟩ := outlineAt_walk hsound hvertex
  obtain ⟨-, hremaining⟩ := outlineAt_remaining hsound hvertex
  induction points with
  | nil => exact absurd (hpoints start hvertex) List.not_mem_nil
  | cons p rest ih =>
    have hcontains := contains_horizontal_iff hsound p
    have hkept := contains_horizontal_iff hremaining p
    -- the list is in order, so all that stands before the start has lost its edges and is passed over
    by_cases hp : vertices p
    · have hps : p = start := by
        rcases List.mem_cons.mp (hpoints start hvertex) with heq | hlater
        · exact heq.symm
        · have hbefore := List.rel_of_pairwise_cons hsorted hlater
          have hle := hleast p ((mem_horizontal_iff hsound p).mpr hp)
          rw [← Point.compare_eq_lt_iff, ← Std.OrientedCmp.gt_iff_lt] at hbefore
          rw [hbefore] at hle
          exact absurd hle (by decide)
      subst hps
      have hgone : ¬(outlineAt p edges).2.horizontal.contains p = true :=
        fun h => (hkept.mp h).2 houtline
      rw [outlinesThrough, if_pos (hcontains.mpr hp), outlinesThrough, if_neg hgone]
    · have hgone : ¬(outlineAt start edges).2.horizontal.contains p = true :=
        fun h => hp (hkept.mp h).1
      rw [outlinesThrough, if_neg fun h => hp (hcontains.mp h), outlinesThrough, if_neg hgone]
      apply ih _ hsorted.of_cons
      intro q hq
      rcases List.mem_cons.mp (hpoints q hq) with heq | hq
      · exact absurd (heq ▸ hq) hp
      · exact hq

theorem outlinesThrough_eq_nil (h : edges.horizontal.isEmpty = true) :
    outlinesThrough points edges = [] := by
  induction points with
  | nil => rfl
  | cons p rest ih =>
    rw [outlinesThrough, Std.TreeMap.contains_of_isEmpty h]
    exact ih

end Least

/-! ### What is left -/

/-- The edges left match the vertices that lie on none of the outlines so far, and these outlines are the
first ones of the boundary. -/
structure Leaves (boxes : List Box) (polygons : List Polygon) (edges : Edges) : Prop where
  sound : edges.Sound fun p => p ∈ oddCorners boxes ∧ p ∉ polygons.flatten
  boundary_eq : boundary boxes = polygons ++ outlinesThrough (oddCorners boxes) edges

section Leaves

variable {boxes : List Box} {polygons : List Polygon} {edges : Edges} {start : Point}

theorem leaves_outset (boxes : List Box) : Leaves boxes [] (.ofVertices (oddCorners boxes)) := by
  constructor
  · have hsound := sound_ofVertices boxes
    simpa using hsound
  · rfl

theorem Leaves.outlinesThrough_eq (h : Leaves boxes polygons edges)
    (hstart : edges.horizontal.minKey? = some start) :
    outlinesThrough (oddCorners boxes) edges =
      (outlineAt start edges).1 :: outlinesThrough (oddCorners boxes) (outlineAt start edges).2 :=
  outlinesThrough_next h.sound (fun _ hp => hp.1) (oddCorners_increasing boxes) hstart

theorem Leaves.vertex (h : Leaves boxes polygons edges)
    (hstart : edges.horizontal.minKey? = some start) :
    start ∈ oddCorners boxes ∧ start ∉ polygons.flatten := by
  obtain ⟨hmem, -⟩ := Std.TreeMap.minKey?_eq_some_iff_mem_and_forall.mp hstart
  exact (mem_horizontal_iff h.sound start).mp hmem

theorem Leaves.next (h : Leaves boxes polygons edges)
    (hstart : edges.horizontal.minKey? = some start) :
    Leaves boxes (polygons ++ [(outlineAt start edges).1]) (outlineAt start edges).2 := by
  constructor
  · obtain ⟨-, hremaining⟩ := outlineAt_remaining h.sound (h.vertex hstart)
    have hsame : (fun p => (p ∈ oddCorners boxes ∧ p ∉ polygons.flatten) ∧
        p ∉ (outlineAt start edges).1) = fun p => p ∈ oddCorners boxes ∧
          p ∉ (polygons ++ [(outlineAt start edges).1]).flatten := by
      funext p
      simp [and_assoc]
    rw [← hsame]
    exact hremaining
  · rw [h.boundary_eq, h.outlinesThrough_eq hstart, List.append_assoc, List.singleton_append]

theorem Traced.leaves (h : Traced boxes polygons edges) : Leaves boxes polygons edges := by
  induction h with
  | outset => exact leaves_outset boxes
  | next _ hstart ih => exact ih.next hstart

theorem Leaves.vertical_isEmpty (h : Leaves boxes polygons edges)
    (hempty : edges.horizontal.isEmpty = true) : edges.vertical.isEmpty = true := by
  rw [Std.TreeMap.isEmpty_iff_forall_not_mem] at hempty ⊢
  intro p hp
  rw [Std.TreeMap.mem_iff_isSome_getElem?, Option.isSome_iff_exists] at hp
  have hvertex := ((h.sound .vertical).defined p).mpr hp
  exact hempty p ((mem_horizontal_iff h.sound p).mpr hvertex)

theorem Leaves.boundary_of_isEmpty (h : Leaves boxes polygons edges)
    (hempty : edges.horizontal.isEmpty = true) : boundary boxes = polygons := by
  rw [h.boundary_eq, outlinesThrough_eq_nil hempty, List.append_nil]

/-- Each outline traced is one fewer to come, until the boundary is complete. -/
theorem Traced.complete (h : Traced boxes polygons edges) :
    ∃ left, Traced boxes (boundary boxes) left ∧ left.horizontal.isEmpty = true := by
  induction hcome : (outlinesThrough (oddCorners boxes) edges).length using Nat.strongRecOn
    generalizing polygons edges with
  | ind come ih =>
    cases hmin : edges.horizontal.minKey? with
    | none =>
      have hempty := Std.TreeMap.minKey?_eq_none_iff.mp hmin
      rw [h.leaves.boundary_of_isEmpty hempty]
      exact ⟨edges, h, hempty⟩
    | some start =>
      rw [h.leaves.outlinesThrough_eq hmin, List.length_cons] at hcome
      exact ih _ (by omega) (h.next hmin) rfl

end Leaves

/-- Whatever has been reached while the outlines of rectangles are traced: the outlines so far are the first
ones of the result and have no vertex twice; the edges left match, along both axes, the vertices on none of
them; the next trace comes back to its start by a horizontal edge, without missing an edge or meeting a
vertex twice; and if there is no next one, no vertical edge is left either. Tracing does come to that end,
with all outlines. -/
theorem outlines_traced (rects : List Corners) :
    (∀ polygons edges, Traced (disjointBoxes rects) polygons edges →
      polygons <+: outlines rects ∧ polygons.flatten.Nodup ∧
      (edges.Sound fun p => p ∈ oddCorners (disjointBoxes rects) ∧ p ∉ polygons.flatten) ∧
      (∀ start, edges.horizontal.minKey? = some start →
        ∃ met left, Returns start .vertical start (edges.erase start .horizontal) met left ∧
          (start :: met).Nodup ∧
          outlineAt start edges = (start :: met, (start :: met).foldl Edges.eraseVertex left)) ∧
      (edges.horizontal.isEmpty = true →
        outlines rects = polygons ∧ edges.vertical.isEmpty = true)) ∧
    ∃ left, Traced (disjointBoxes rects) (outlines rects) left ∧
      left.horizontal.isEmpty = true ∧ left.vertical.isEmpty = true := by
  constructor
  · intro polygons edges h
    have hleaves := h.leaves
    have hbefore : polygons <+: outlines rects := ⟨_, hleaves.boundary_eq.symm⟩
    have hnodup := flatten_boundary_nodup (disjointBoxes rects)
    rw [hleaves.boundary_eq, List.flatten_append] at hnodup
    refine ⟨hbefore, hnodup.of_append_left, hleaves.sound, ?_, ?_⟩
    · intro start hstart
      exact outlineAt_returns hleaves.sound (hleaves.vertex hstart)
    · intro hempty
      exact ⟨hleaves.boundary_of_isEmpty hempty, hleaves.vertical_isEmpty hempty⟩
  · have houtset : Traced (disjointBoxes rects) [] _ := .outset
    obtain ⟨left, htraced, hempty⟩ := houtset.complete
    exact ⟨left, htraced, hempty, htraced.leaves.vertical_isEmpty hempty⟩

/-- Four bars around a square: once the outer outline has been traced, the outline of the square is walked
from its first vertex and back to it. -/
theorem outlines_traced_frame :
    let rects : List Corners :=
      [⟨⟨0, 0⟩, ⟨3, 1⟩⟩, ⟨⟨0, 1⟩, ⟨1, 2⟩⟩, ⟨⟨2, 1⟩, ⟨3, 2⟩⟩, ⟨⟨0, 2⟩, ⟨3, 3⟩⟩]
    let edges := Edges.ofVertices (oddCorners (disjointBoxes rects))
    let remaining := (outlineAt ⟨0, 0⟩ edges).2
    Traced (disjointBoxes rects) [[⟨0, 0⟩, ⟨0, 3⟩, ⟨3, 3⟩, ⟨3, 0⟩]] remaining ∧
      remaining.horizontal.minKey? = some ⟨1, 1⟩ ∧
      ∃ left, Returns ⟨1, 1⟩ .vertical ⟨1, 1⟩ (remaining.erase ⟨1, 1⟩ .horizontal)
        [⟨1, 2⟩, ⟨2, 2⟩, ⟨2, 1⟩] left := by
  intro rects edges remaining
  have hfirst : edges.horizontal.minKey? = some ⟨0, 0⟩ := by cbv
  have houter : (outlineAt ⟨0, 0⟩ edges).1 = [⟨0, 0⟩, ⟨0, 3⟩, ⟨3, 3⟩, ⟨3, 0⟩] := by cbv
  have hsecond : (outlineAt ⟨0, 0⟩ edges).2.horizontal.minKey? = some ⟨1, 1⟩ := by cbv
  have hinner : (outlineAt ⟨1, 1⟩ (outlineAt ⟨0, 0⟩ edges).2).1 =
      [⟨1, 1⟩, ⟨1, 2⟩, ⟨2, 2⟩, ⟨2, 1⟩] := by cbv
  have htraced : Traced (disjointBoxes rects) [[⟨0, 0⟩, ⟨0, 3⟩, ⟨3, 3⟩, ⟨3, 0⟩]] remaining := by
    have hnext := Traced.next .outset hfirst
    rwa [houter] at hnext
  obtain ⟨hreached, -⟩ := outlines_traced rects
  obtain ⟨-, -, -, htrace, -⟩ := hreached _ _ htraced
  obtain ⟨met, left, hreturns, -, houtline⟩ := htrace _ hsecond
  rw [houtline, List.cons.injEq] at hinner
  rw [hinner.2] at hreturns
  exact ⟨htraced, hsecond, left, hreturns⟩

end Redraw.Outline
