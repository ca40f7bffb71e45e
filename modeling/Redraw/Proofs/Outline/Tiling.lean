import Mathlib.Algebra.Order.Archimedean.Real.Basic
import Mathlib.Data.List.Pairwise
import Mathlib.Data.List.Permutation
import Mathlib.Order.CompletePartialOrder
import Redraw.Proofs.Outline.Cells

namespace Redraw.Outline

/-! ### Insides in the plane -/

/-- The points inside a box, its sides left out. -/
def Box.interior (b : Box) : Set (ℝ × ℝ) :=
  Set.Ioo (b.left : ℝ) b.right ×ˢ Set.Ioo (b.top : ℝ) b.bottom

theorem Box.covers_floor {b : Box} {p : ℝ × ℝ} (h : p ∈ b.interior) : b.Covers ⌊p.1⌋ ⌊p.2⌋ := by
  obtain ⟨⟨hleft, hright⟩, htop, hbottom⟩ := h
  exact ⟨Int.le_floor.mpr hleft.le, Int.floor_lt.mpr hright, Int.le_floor.mpr htop.le,
    Int.floor_lt.mpr hbottom⟩

theorem Box.Apart.disjoint_interior {b c : Box} (h : b.Apart c) : Disjoint b.interior c.interior := by
  rw [Set.disjoint_left]
  intro p hb hc
  exact h _ _ (covers_floor hb) (covers_floor hc)

/-! ### Slabs -/

section Slabs

variable {levels : List Int} {active waiting : List Box}

/-- Every piece reaches from one level to the next. -/
theorem sweepSlabs_rows : ∀ r ∈ sweepSlabs levels active waiting, [r.top, r.bottom] <:+: levels := by
  fun_induction sweepSlabs levels active waiting with
  | case1 top bottom below active waiting arrived spanning ih =>
    intro r hr
    rcases List.mem_append.mp hr with hr | hr
    · obtain ⟨htop, hbottom⟩ := slabBoxes_rows r hr
      rw [htop, hbottom]
      exact (List.prefix_append [top, bottom] below).isInfix
    · exact (ih r hr).trans (List.suffix_cons top _).isInfix
  | case2 => simp

end Slabs

theorem Box.Precedes.gap {b c : Box} (h : b.Precedes c) {j : Int} (hb : j < b.bottom)
    (hc : c.top ≤ j) : b.right < c.left := by
  rcases h with hrows | ⟨_, _, hgap⟩
  · omega
  · exact hgap

section Beside

variable {boxes : List Box}

theorem gap_of_pairwise (hboxes : boxes.Pairwise Box.Precedes) {b c : Box} (hb : b ∈ boxes)
    (hc : c ∈ boxes) (hne : c ≠ b) {j : Int} (hbj : b.top ≤ j ∧ j < b.bottom)
    (hcj : c.top ≤ j ∧ j < c.bottom) : b.right < c.left ∨ c.right < b.left := by
  have hsymm : Std.Symm fun b c : Box => b.Precedes c ∨ c.Precedes b := ⟨fun _ _ h => h.symm⟩
  have heither : boxes.Pairwise fun b c => b.Precedes c ∨ c.Precedes b := hboxes.imp Or.inl
  rcases heither.forall hb hc hne.symm with h | h
  · exact Or.inl (h.gap hbj.2 hcj.1)
  · exact Or.inr (h.gap hcj.2 hbj.1)

theorem not_covers_beside (hproper : ∀ b ∈ boxes, b.Proper) (hboxes : boxes.Pairwise Box.Precedes)
    {b : Box} (hb : b ∈ boxes) {j : Int} (hj : b.top ≤ j ∧ j < b.bottom) :
    (¬∃ c ∈ boxes, c.Covers (b.left - 1) j) ∧ ¬∃ c ∈ boxes, c.Covers b.right j := by
  have hwide := (hproper b hb).1
  constructor
  · intro hsome
    obtain ⟨c, hc, hleft, hright, hcj⟩ := hsome
    by_cases hne : c = b
    · subst hne
      omega
    · have hgap := gap_of_pairwise hboxes hb hc hne hj hcj
      omega
  · intro hsome
    obtain ⟨c, hc, hleft, hright, hcj⟩ := hsome
    by_cases hne : c = b
    · subst hne
      omega
    · have hgap := gap_of_pairwise hboxes hb hc hne hj hcj
      omega

end Beside

/-! ### The area cut -/

/-- The boxes that the given area is cut into have an area, no two of them have a common point inside,
and together they cover exactly the cells that the given rectangles cover. If some of these overlap, every
box reaches from one level to the next, there is a gap between any two that lie between the same levels,
and directly to the left and to the right of a box no cell is covered. -/
theorem disjointBoxes_tile (rects : List Corners) :
    (∀ b ∈ disjointBoxes rects, b.left < b.right ∧ b.top < b.bottom) ∧
      (disjointBoxes rects).Pairwise (fun b c => Disjoint b.interior c.interior) ∧
      (∀ i j, (∃ b ∈ disjointBoxes rects, b.Covers i j) ↔ ∃ c ∈ rects, c.Covers i j) ∧
      (hasOverlap (properBoxes rects) = true →
        disjointBoxes rects = slabRuns (properBoxes rects) ∧
        (∀ b ∈ disjointBoxes rects, [b.top, b.bottom] <:+: levels (properBoxes rects)) ∧
        (disjointBoxes rects).Pairwise (fun b c => b.top = c.top → b.right < c.left) ∧
        ∀ b ∈ disjointBoxes rects, ∀ j, b.top ≤ j → j < b.bottom →
          (¬∃ c ∈ rects, c.Covers (b.left - 1) j) ∧ ¬∃ c ∈ rects, c.Covers b.right j) := by
  have hproper := disjointBoxes_proper rects
  have hcovers := disjointBoxes_covers rects
  refine ⟨hproper, (disjointBoxes_apart rects).imp Box.Apart.disjoint_interior, hcovers, ?_⟩
  intro hoverlap
  have hcut : disjointBoxes rects = slabRuns (properBoxes rects) := by
    simp only [disjointBoxes, hoverlap, if_true]
  have hprecedes : (disjointBoxes rects).Pairwise Box.Precedes := by
    rw [hcut]
    exact sweepSlabs_precedes (levels_increasing _)
  refine ⟨hcut, ?_, ?_, ?_⟩
  · rw [hcut]
    exact sweepSlabs_rows
  · refine hprecedes.imp_of_mem ?_
    intro b c hb hc h htop
    exact h.gap (hproper b hb).2 (Int.le_of_eq htop.symm)
  · intro b hb j htop hbottom
    rw [← hcovers, ← hcovers]
    exact not_covers_beside hproper hprecedes hb ⟨htop, hbottom⟩

/-- Two squares that overlap at a corner are cut into three boxes. -/
theorem disjointBoxes_tile_corner :
    let rects : List Corners := [⟨⟨0, 0⟩, ⟨2, 2⟩⟩, ⟨⟨3, 3⟩, ⟨1, 1⟩⟩]
    hasOverlap (properBoxes rects) = true ∧
      disjointBoxes rects = [⟨0, 0, 2, 1⟩, ⟨0, 1, 3, 2⟩, ⟨1, 2, 3, 3⟩] ∧
      (⟨0, 1, 3, 2⟩ : Box) ∈ disjointBoxes rects ∧
      Disjoint (Box.interior ⟨0, 0, 2, 1⟩) (Box.interior ⟨0, 1, 3, 2⟩) ∧
      [(1 : Int), 2] <:+: levels (properBoxes rects) ∧
      ¬∃ c ∈ rects, c.Covers 3 1 := by
  intro rects
  have hoverlap : hasOverlap (properBoxes rects) = true := by cbv
  have hboxes : disjointBoxes rects = [⟨0, 0, 2, 1⟩, ⟨0, 1, 3, 2⟩, ⟨1, 2, 3, 3⟩] := by
    cbv
  have hmem : (⟨0, 1, 3, 2⟩ : Box) ∈ disjointBoxes rects := by
    rw [hboxes]
    decide
  obtain ⟨-, hinteriors, -, hcut⟩ := disjointBoxes_tile rects
  obtain ⟨-, hrows, -, hbeside⟩ := hcut hoverlap
  rw [hboxes] at hinteriors
  have hfirst : Disjoint (Box.interior ⟨0, 0, 2, 1⟩) (Box.interior ⟨0, 1, 3, 2⟩) :=
    List.rel_of_pairwise_cons hinteriors List.mem_cons_self
  exact ⟨hoverlap, hboxes, hmem, hfirst, hrows _ hmem,
    (hbeside _ hmem 1 (by decide) (by decide)).2⟩

end Redraw.Outline
