import Mathlib.Algebra.Ring.Parity
import Redraw.Proofs.Batch.Painting
import Redraw.Proofs.Outline.Listing

namespace Redraw.Outline

open Batch

/-- A polygon as an outline is written. -/
structure Canonical (polygon : Polygon) : Prop where
  even : polygon.length % 2 = 0
  four_le : 4 ≤ polygon.length
  vertical : ∀ k side, (sides polygon)[2 * k]? = some side →
    side.1.x = side.2.x ∧ side.1.y ≠ side.2.y
  horizontal : ∀ k side, (sides polygon)[2 * k + 1]? = some side →
    side.1.y = side.2.y ∧ side.1.x ≠ side.2.x
  least : LeastFirst polygon
  downwards : ∃ side ∈ (sides polygon).head?, side.1.y < side.2.y

/-- The polygon goes around a rectangle, whose corners are its least and its greatest vertex. -/
def Rectangular (polygon : Polygon) : Prop :=
  ∃ b : Box, b.Proper ∧ polygon = around b.left b.top b.right b.bottom ∧
    leastPoint polygon = ⟨b.left, b.top⟩ ∧ greatestPoint polygon = ⟨b.right, b.bottom⟩

/-! ### Sides by position -/

theorem Axis.turn_involutive : Function.Involutive Axis.turn := by
  intro axis
  cases axis <;> rfl

section Walks

variable {e : Edges} {vertices : Point → Prop} {polygon : Polygon}

theorem Outlines.side_runs (hsound : e.Sound vertices) (h : Outlines e polygon) {k : Nat}
    {side : Point × Point} (hside : (sides polygon)[k]? = some side) {axis : Axis}
    (haxis : Axis.turn^[k] .vertical = axis) :
    axis.line side.1 = axis.line side.2 ∧ axis.place side.1 ≠ axis.place side.2 := by
  have halong := h.along_side hside
  rw [haxis] at halong
  have hline := (hsound axis).same_line _ _ halong
  have hne := (hsound axis).ne _ _ halong
  exact ⟨hline, fun hplace => hne (axis.ext hline hplace)⟩

theorem Outlines.vertical_side (hsound : e.Sound vertices) (h : Outlines e polygon) {k : Nat}
    {side : Point × Point} (hside : (sides polygon)[2 * k]? = some side) :
    side.1.x = side.2.x ∧ side.1.y ≠ side.2.y :=
  h.side_runs hsound hside (congrFun (Axis.turn_involutive.iterate_two_mul k) .vertical)

theorem Outlines.horizontal_side (hsound : e.Sound vertices) (h : Outlines e polygon) {k : Nat}
    {side : Point × Point} (hside : (sides polygon)[2 * k + 1]? = some side) :
    side.1.y = side.2.y ∧ side.1.x ≠ side.2.x :=
  h.side_runs hsound hside (congrFun (Axis.turn_involutive.iterate_two_mul_add_one k) .vertical)

theorem Outlines.even_length (h : Outlines e polygon) : polygon.length % 2 = 0 := by
  have hturn := h.turn_length
  rcases Nat.even_or_odd polygon.length with heven | hodd
  · exact Nat.even_iff.mp heven
  · rw [Axis.turn_involutive.iterate_odd hodd] at hturn
    cases hturn

/-- Two vertices do not make an outline: the sides between them would lie on each other. -/
theorem Outlines.four_le_length (hsound : e.Sound vertices) (h : Outlines e polygon) :
    4 ≤ polygon.length := by
  have heven := h.even_length
  match polygon, h, heven with
  | [], h, _ =>
    obtain ⟨start, met, hnil, -⟩ := h
    cases hnil
  | [p, q], h, _ =>
    have hvertical := h.vertical_side hsound (k := 0) rfl
    have hhorizontal := h.horizontal_side hsound (k := 0) rfl
    exact absurd hhorizontal.1.symm hvertical.2
  | _ :: _ :: _ :: _ :: _, _, _ => simp

theorem Outlines.downwards (hsound : e.Sound vertices) (h : Outlines e polygon)
    (hleast : LeastFirst polygon) : ∃ side ∈ (sides polygon).head?, side.1.y < side.2.y := by
  have hfour := h.four_le_length hsound
  obtain ⟨first, rest, rfl, hfirst⟩ := hleast
  match rest, hfour with
  | second :: rest, _ =>
    obtain ⟨hx, -⟩ := h.vertical_side hsound (k := 0) rfl
    have hprecedes := hfirst second List.mem_cons_self
    refine ⟨(first, second), rfl, ?_⟩
    simp only [Point.Precedes] at hprecedes hx ⊢
    omega

theorem Outlines.canonical (hsound : e.Sound vertices) (h : Outlines e polygon)
    (hleast : LeastFirst polygon) : Canonical polygon where
  even := h.even_length
  four_le := h.four_le_length hsound
  vertical _ _ hside := h.vertical_side hsound hside
  horizontal _ _ hside := h.horizontal_side hsound hside
  least := hleast
  downwards := h.downwards hsound hleast

end Walks

/-! ### Outlines of four vertices -/

theorem Canonical.rectangular {e : Edges} {vertices : Point → Prop} {polygon : Polygon}
    (h : Canonical polygon) (hsound : e.Sound vertices) (houtlines : Outlines e polygon)
    (hlength : polygon.length = 4) : Rectangular polygon := by
  obtain ⟨x, y, x', y', rfl⟩ := eq_around hsound houtlines hlength
  obtain ⟨-, hx⟩ := h.horizontal 0 _ rfl
  have hy : y < y' := by
    obtain ⟨side, hside, hdown⟩ := h.downwards
    cases hside
    exact hdown
  have hle : x < x' := by
    obtain ⟨first, rest, heq, hfirst⟩ := h.least
    obtain ⟨rfl, rfl⟩ := List.cons.inj heq
    have hprecedes := hfirst ⟨x', y'⟩ (by simp)
    simp only [Point.Precedes] at hprecedes hx
    omega
  refine ⟨⟨x, y, x', y'⟩, ⟨hle, hy⟩, rfl, ?_, ?_⟩
  · rw [leastPoint_around, Int.min_eq_left (Int.le_of_lt hle), Int.min_eq_left (Int.le_of_lt hy)]
  · rw [greatestPoint_around, Int.max_eq_right (Int.le_of_lt hle),
      Int.max_eq_right (Int.le_of_lt hy)]

/-- The outlines of whatever rectangles are canonical, those of four vertices go around rectangles, and
they are listed in order of their first vertices. -/
theorem outlines_canonical (rects : List Corners) :
    (∀ polygon ∈ outlines rects,
        Canonical polygon ∧ (polygon.length = 4 → Rectangular polygon)) ∧
      (outlines rects).Pairwise FirstBefore := by
  have hsound := sound_ofVertices (disjointBoxes rects)
  refine ⟨?_, boundary_ordered _⟩
  intro polygon hpolygon
  have houtlines := outlines_of_mem_boundary hpolygon
  have hcanonical := houtlines.canonical hsound (boundary_least hpolygon)
  exact ⟨hcanonical, hcanonical.rectangular hsound houtlines⟩

/-- A bent region and a square beside it. -/
theorem outlines_canonical_bent :
    let rects : List Corners := [⟨⟨5, 0⟩, ⟨6, 1⟩⟩, ⟨⟨0, 0⟩, ⟨2, 1⟩⟩, ⟨⟨0, 0⟩, ⟨1, 2⟩⟩]
    let bent : Polygon := [⟨0, 0⟩, ⟨0, 2⟩, ⟨1, 2⟩, ⟨1, 1⟩, ⟨2, 1⟩, ⟨2, 0⟩]
    outlines rects = [bent, around 5 0 6 1] ∧ Canonical bent ∧
      Canonical (around 5 0 6 1) ∧ Rectangular (around 5 0 6 1) ∧
        FirstBefore bent (around 5 0 6 1) := by
  intro rects bent
  have houtlines : outlines rects = [bent, around 5 0 6 1] := by cbv
  obtain ⟨hcanonical, hordered⟩ := outlines_canonical rects
  rw [houtlines] at hcanonical hordered
  obtain ⟨⟨hbent, -⟩, hsquare⟩ := List.forall_mem_cons.mp hcanonical
  obtain ⟨hsquare, hrectangular⟩ := List.forall_mem_singleton.mp hsquare
  exact ⟨houtlines, hbent, hsquare, hrectangular rfl,
    List.rel_of_pairwise_cons hordered List.mem_cons_self⟩

end Redraw.Outline
