import Redraw.Proofs.Outline.Carrying
import Redraw.Proofs.Outline.Turns

namespace Redraw.Outline

def Point.rescale (f g : Int → Int) (p : Point) : Point := ⟨f p.x, g p.y⟩

def Corners.rescale (f g : Int → Int) (c : Corners) : Corners :=
  ⟨c.first.rescale f g, c.second.rescale f g⟩

/-- Where the rectangles have their sides along an axis: the columns in use for the vertical axis, and the
rows in use for the horizontal one. -/
def lines (axis : Axis) (rects : List Corners) : List Int :=
  rects.flatMap fun c => [axis.line c.first, axis.line c.second]

section Used

variable {rects : List Corners} {c : Corners}

theorem mem_lines (axis : Axis) (h : c ∈ rects) :
    axis.line c.first ∈ lines axis rects ∧ axis.line c.second ∈ lines axis rects :=
  ⟨List.mem_flatMap.mpr ⟨c, h, by simp⟩, List.mem_flatMap.mpr ⟨c, h, by simp⟩⟩

/-- Across a column that is not in use, cells are covered alike. -/
theorem covered_across_column {i : Int} (h : i ∉ lines .vertical rects) (j : Int) :
    Covered rects (i - 1) j ↔ Covered rects i j := by
  refine exists_congr fun c => and_congr_right fun hc => ?_
  have hfirst : c.first.x ≠ i := fun heq => h (heq ▸ (mem_lines .vertical hc).1)
  have hsecond : c.second.x ≠ i := fun heq => h (heq ▸ (mem_lines .vertical hc).2)
  simp only [Corners.Covers]
  omega

theorem covered_across_row {j : Int} (h : j ∉ lines .horizontal rects) (i : Int) :
    Covered rects i (j - 1) ↔ Covered rects i j := by
  refine exists_congr fun c => and_congr_right fun hc => ?_
  have hfirst : c.first.y ≠ j := fun heq => h (heq ▸ (mem_lines .horizontal hc).1)
  have hsecond : c.second.y ≠ j := fun heq => h (heq ▸ (mem_lines .horizontal hc).2)
  simp only [Corners.Covers]
  omega

theorem used_of_mem_vertices {p : Point} (hp : p ∈ oddCorners (disjointBoxes rects)) :
    p.x ∈ lines .vertical rects ∧ p.y ∈ lines .horizontal rects := by
  rw [mem_vertices_iff] at hp
  simp only [coveredAround, Point.cells, List.countP_cons, List.countP_nil, decide_eq_true_eq] at hp
  constructor
  · by_contra hx
    rw [if_congr (covered_across_column hx (p.y - 1)) rfl rfl,
      if_congr (covered_across_column hx p.y) rfl rfl] at hp
    omega
  · by_contra hy
    rw [if_congr (covered_across_row hy (p.x - 1)) rfl rfl,
      if_congr (covered_across_row hy p.x) rfl rfl] at hp
    omega

end Used

/-! ### Cells in other coordinates -/

theorem exists_cut {f : Int → Int} {xs : List Int} (hf : StrictMonoOn f {x | x ∈ xs}) (t : Int) :
    ∃ i, ∀ x ∈ xs, f x ≤ t ↔ x ≤ i := by
  have hfinite : {x | x ∈ xs}.Finite := List.finite_toSet xs
  by_cases hsome : ∃ x ∈ xs, f x ≤ t
  · obtain ⟨i, ⟨hi, hle⟩, hlast⟩ := Set.exists_max_image {x | x ∈ xs ∧ f x ≤ t} id
      (hfinite.subset fun x hx => hx.1) hsome
    refine ⟨i, fun x hx => ⟨fun h => hlast x ⟨hx, h⟩, ?_⟩⟩
    exact fun h => ((hf.le_iff_le hx hi).mpr h).trans hle
  · obtain ⟨i, hi⟩ := hfinite.bddBelow
    refine ⟨i - 1, fun x hx => ⟨fun h => absurd ⟨x, hx, h⟩ hsome, ?_⟩⟩
    intro h
    have hix : i ≤ x := hi hx
    omega

section Rescale

variable {rects : List Corners} {f g : Int → Int}

theorem covered_rescale {i j i' j' : Int} (hi : ∀ x ∈ lines .vertical rects, f x ≤ i' ↔ x ≤ i)
    (hj : ∀ y ∈ lines .horizontal rects, g y ≤ j' ↔ y ≤ j) :
    Covered (rects.map (Corners.rescale f g)) i' j' ↔ Covered rects i j := by
  simp only [Covered, List.mem_map, exists_exists_and_eq_and]
  refine exists_congr fun c => and_congr_right fun hc => ?_
  have hx : f c.first.x ≤ i' ↔ c.first.x ≤ i := hi _ (mem_lines .vertical hc).1
  have hx' : f c.second.x ≤ i' ↔ c.second.x ≤ i := hi _ (mem_lines .vertical hc).2
  have hy : g c.first.y ≤ j' ↔ c.first.y ≤ j := hj _ (mem_lines .horizontal hc).1
  have hy' : g c.second.y ≤ j' ↔ c.second.y ≤ j := hj _ (mem_lines .horizontal hc).2
  simp only [Corners.Covers, Corners.rescale, Point.rescale]
  omega

variable (hf : StrictMonoOn f {x | x ∈ lines .vertical rects})
  (hg : StrictMonoOn g {y | y ∈ lines .horizontal rects})

include hf hg

theorem precedes_rescale {p q : Point} (hp : p ∈ oddCorners (disjointBoxes rects))
    (hq : q ∈ oddCorners (disjointBoxes rects)) (h : p.Precedes q) :
    (p.rescale f g).Precedes (q.rescale f g) := by
  obtain ⟨hpx, hpy⟩ := used_of_mem_vertices hp
  obtain ⟨hqx, hqy⟩ := used_of_mem_vertices hq
  rcases h with hx | ⟨hx, hy⟩
  · exact Or.inl (hf hpx hqx hx)
  · exact Or.inr ⟨congrArg f hx, hg hpy hqy hy⟩

theorem vertices_rescale : oddCorners (disjointBoxes (rects.map (Corners.rescale f g))) =
    (oddCorners (disjointBoxes rects)).map (Point.rescale f g) := by
  apply eq_of_quadrants (oddCorners_increasing _)
  · refine List.pairwise_map.mpr ((oddCorners_increasing _).imp_of_mem ?_)
    exact fun hp hq h => precedes_rescale hf hg hp hq h
  · intro i' j'
    obtain ⟨i, hi⟩ := exists_cut hf i'
    obtain ⟨j, hj⟩ := exists_cut hg j'
    have hquadrant : (oddCorners (disjointBoxes rects)).countP
        (inQuadrant i' j' ∘ Point.rescale f g) =
          (oddCorners (disjointBoxes rects)).countP (inQuadrant i j) := by
      apply List.countP_congr
      intro p hp
      obtain ⟨hx, hy⟩ := used_of_mem_vertices hp
      simp only [Function.comp_apply, inQuadrant, Point.rescale, decide_eq_true_eq, hi _ hx, hj _ hy]
    rw [List.countP_map, hquadrant, quadrant_parity, quadrant_parity]
    exact if_congr (covered_rescale hi hj) rfl rfl

section Vertices

variable {p q : Point} (hp : p ∈ oddCorners (disjointBoxes rects))
  (hq : q ∈ oddCorners (disjointBoxes rects)) (axis : Axis)

include hp hq

theorem line_rescale_iff : axis.line (p.rescale f g) = axis.line (q.rescale f g) ↔
    axis.line p = axis.line q := by
  obtain ⟨hpx, hpy⟩ := used_of_mem_vertices hp
  obtain ⟨hqx, hqy⟩ := used_of_mem_vertices hq
  cases axis with
  | vertical => exact hf.eq_iff_eq hpx hqx
  | horizontal => exact hg.eq_iff_eq hpy hqy

theorem place_rescale_iff : axis.place (p.rescale f g) ≤ axis.place (q.rescale f g) ↔
    axis.place p ≤ axis.place q := by
  obtain ⟨hpx, hpy⟩ := used_of_mem_vertices hp
  obtain ⟨hqx, hqy⟩ := used_of_mem_vertices hq
  cases axis with
  | vertical => exact hg.le_iff_le hpy hqy
  | horizontal => exact hf.le_iff_le hpx hqx

end Vertices

theorem carried_rescale : Carried (disjointBoxes rects)
    (disjointBoxes (rects.map (Corners.rescale f g))) (Point.rescale f g) := by
  refine ⟨fun p hp q hq h => precedes_rescale hf hg hp hq h, ?_⟩
  intro axis p q hpq honwards
  have hsound := sound_ofVertices (disjointBoxes rects) axis
  have hp := (hsound.defined p).mpr ⟨q, hpq⟩
  have hq := (hsound.defined q).mpr ⟨p, hsound.symm p q hpq⟩
  have hline := hsound.same_line p q hpq
  have hvertices := vertices_rescale hf hg
  have hlt : ∀ v w, v ∈ oddCorners (disjointBoxes rects) → w ∈ oddCorners (disjointBoxes rects) →
      (axis.place (v.rescale f g) < axis.place (w.rescale f g) ↔ axis.place v < axis.place w) := by
    intro v w hv hw
    have hle := place_rescale_iff hf hg hw hv axis
    omega
  apply along_of_odd
  · exact hvertices ▸ List.mem_map_of_mem hp
  · exact hvertices ▸ List.mem_map_of_mem hq
  · exact (line_rescale_iff hf hg hp hq axis).mpr hline
  · exact (hlt p q hp hq).mpr honwards
  · intro v' hv' hsame hafter
    rw [hvertices] at hv'
    obtain ⟨v, hv, rfl⟩ := List.mem_map.mp hv'
    rw [line_rescale_iff hf hg hv hp] at hsame
    rw [hlt p v hp hv] at hafter
    rw [place_rescale_iff hf hg hq hv]
    exact place_le_of_onwards hpq honwards hv hsame hafter
  · rw [hvertices, List.countP_map, ← odd_upTo_of_onwards hpq honwards]
    congr 1
    apply List.countP_congr
    intro v hv
    simp only [Function.comp_apply, Axis.upTo, decide_eq_true_eq,
      line_rescale_iff hf hg hv hp axis, place_rescale_iff hf hg hv hp axis]

end Rescale

/-- Where columns and rows are renamed in order, by whatever maps that increase on the coordinates in
use, the vertices of the outlines are renamed and the outlines stay the same, also in their order. -/
theorem outlines_rescale (rects : List Corners) (f g : Int → Int)
    (hf : StrictMonoOn f {x | x ∈ lines .vertical rects})
    (hg : StrictMonoOn g {y | y ∈ lines .horizontal rects}) :
    outlines (rects.map (Corners.rescale f g)) =
      (outlines rects).map (List.map (Point.rescale f g)) := by
  have hcarried := carried_rescale hf hg
  have hordered := hcarried.ordered_map
  have hperm : ((outlines rects).map (List.map (Point.rescale f g))).Perm
      (outlines (rects.map (Corners.rescale f g))) := by
    apply perm_boundary (hordered.imp FirstBefore.ne)
    · rw [List.forall_mem_map]
      exact fun polygon hpolygon => hcarried.mem_boundary hpolygon
    · intro p' hp'
      rw [vertices_rescale hf hg] at hp'
      obtain ⟨p, hp, rfl⟩ := List.mem_map.mp hp'
      obtain ⟨polygon, hpolygon, hmem⟩ := exists_mem_boundary hp
      exact ⟨_, List.mem_map_of_mem hpolygon, List.mem_map_of_mem hmem⟩
  refine (hperm.eq_of_pairwise ?_ hordered (boundary_ordered _)).symm
  exact fun _ _ _ _ h h' => absurd h' h.asymm

/-- Squaring increases on the columns that two overlapping rectangles use, though not everywhere. -/
theorem outlines_rescale_squared :
    let rects : List Corners := [⟨⟨0, 0⟩, ⟨2, 2⟩⟩, ⟨⟨3, 3⟩, ⟨1, 1⟩⟩]
    let square : Int → Int := fun x => x * x
    let finer : Int → Int := fun y => 4 * y - 7
    StrictMonoOn square {x | x ∈ lines .vertical rects} ∧
      StrictMonoOn finer {y | y ∈ lines .horizontal rects} ∧
        outlines (rects.map (Corners.rescale square finer)) =
          (outlines rects).map (List.map (Point.rescale square finer)) := by
  intro rects square finer
  have hcolumns : ∀ a ∈ lines .vertical rects, ∀ b ∈ lines .vertical rects,
      a < b → square a < square b := by decide
  have hrows : ∀ a ∈ lines .horizontal rects, ∀ b ∈ lines .horizontal rects,
      a < b → finer a < finer b := by decide
  have hsquare : StrictMonoOn square {x | x ∈ lines .vertical rects} :=
    fun a ha b hb hab => hcolumns a ha b hb hab
  have hfiner : StrictMonoOn finer {y | y ∈ lines .horizontal rects} :=
    fun a ha b hb hab => hrows a ha b hb hab
  exact ⟨hsquare, hfiner, outlines_rescale rects square finer hsquare hfiner⟩

end Redraw.Outline
