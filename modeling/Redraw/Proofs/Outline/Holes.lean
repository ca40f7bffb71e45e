import Redraw.Proofs.Outline.Winding

namespace Redraw.Outline

open Batch

/-- The cell lies inside the polygon, by the even-odd rule. -/
def Inside (polygon : Polygon) (cell : Int × Int) : Prop :=
  passings cell.1 cell.2 [polygon] % 2 = 1

/-- All along the polygon the covered cells are those inside. -/
def Outer (rects : List Corners) (polygon : Polygon) : Prop :=
  ∀ side ∈ sides polygon, ∀ cell, Flanks side cell →
    (Covered rects cell.1 cell.2 ↔ Inside polygon cell)

/-- All along the polygon the covered cells are those outside. -/
def Hole (rects : List Corners) (polygon : Polygon) : Prop :=
  ∀ side ∈ sides polygon, ∀ cell, Flanks side cell →
    (Covered rects cell.1 cell.2 ↔ ¬Inside polygon cell)

/-! ### Covered cells and cells inside -/

section Sides

variable {boxes : List Box} {polygon : Polygon} {axis : Axis} {c t : Int}

theorem odd_upTo_iff_separates : (oddCorners boxes).countP (axis.upTo c t) % 2 = 1 ↔
    (Edges.ofVertices (oddCorners boxes)).Separates axis c t := by
  constructor
  · exact exists_over_of_odd
  · rintro ⟨p, q, hpq, hover⟩
    exact odd_upTo_of_over hpq hover

theorem odd_upTo_outline_iff (hpolygon : polygon ∈ boundary boxes) :
    polygon.countP (axis.upTo c t) % 2 = 1 ↔ ∃ p ∈ polygon, ∃ q,
      ((Edges.ofVertices (oddCorners boxes)).along axis)[p]? = some q ∧ axis.Over c t (p, q) := by
  have hparity := (outlines_of_mem_boundary hpolygon).upTo (sound_ofVertices boxes) axis c t
  have hone := countP_beginsOver_le (boundary_nodup hpolygon) boxes axis c t
  have hbegins : ∀ p, (Edges.ofVertices (oddCorners boxes)).beginsOver axis c t p = true ↔
      ∃ q, ((Edges.ofVertices (oddCorners boxes)).along axis)[p]? = some q ∧
        axis.Over c t (p, q) := by
    intro p
    unfold Edges.beginsOver
    split
    · next q hpq => simp [hpq]
    · next hnone => simp [hnone]
  have hpos : polygon.countP (axis.upTo c t) % 2 = 1 ↔
      0 < polygon.countP ((Edges.ofVertices (oddCorners boxes)).beginsOver axis c t) := by
    omega
  simp only [hpos, List.countP_pos_iff, hbegins]

theorem Outlines.inside_iff {e : Edges} {vertices : Point → Prop} (h : Outlines e polygon)
    (hsound : e.Sound vertices) (cell : Int × Int) :
    Inside polygon cell ↔ polygon.countP (inQuadrant cell.1 cell.2) % 2 = 1 := by
  obtain ⟨start, met, rfl, hleads⟩ := h
  have hpassings := hleads.passings hsound cell.1 cell.2
  simp only [pointsAhead] at hpassings
  simp only [Inside, passings, List.flatMap_cons, List.flatMap_nil, List.append_nil, sides,
    hpassings]

end Sides

section Alike

variable {rects : List Corners} {polygon : Polygon}

/-- The cell is covered and inside the polygon, or neither. -/
def Alike (rects : List Corners) (polygon : Polygon) (cell : Int × Int) : Prop :=
  Covered rects cell.1 cell.2 ↔ Inside polygon cell

/-- Across a side of the polygon both change, and where nothing separates the cells neither does. -/
theorem alike_across (hpolygon : polygon ∈ outlines rects) {axis : Axis} {c t : Int}
    (hown : ∀ p q, ((edgesOf rects).along axis)[p]? = some q → axis.Over c t (p, q) → p ∈ polygon) :
    Alike rects polygon (axis.cell (c - 1) t) ↔ Alike rects polygon (axis.cell c t) := by
  have hsound := sound_ofVertices (disjointBoxes rects)
  have houtlines := outlines_of_mem_boundary hpolygon
  have hall := countP_inQuadrant_cell axis c t (oddCorners (disjointBoxes rects))
  have hpart := countP_inQuadrant_cell axis c t polygon
  have hboth : (oddCorners (disjointBoxes rects)).countP (axis.upTo c t) % 2 = 1 ↔
      polygon.countP (axis.upTo c t) % 2 = 1 := by
    rw [odd_upTo_iff_separates, odd_upTo_outline_iff hpolygon]
    constructor
    · rintro ⟨p, q, hpq, hover⟩
      exact ⟨p, hown p q hpq hover, q, hpq, hover⟩
    · rintro ⟨p, -, q, hpq, hover⟩
      exact ⟨p, q, hpq, hover⟩
  simp only [Alike, houtlines.inside_iff hsound, ← odd_vertices_iff_covered]
  omega

theorem spreads_alike (hpolygon : polygon ∈ outlines rects) :
    Spreads (edgesOf rects) (Alike rects polygon) := by
  intro axis c t hnone
  exact alike_across hpolygon fun p q hpq hover => absurd ⟨p, q, hpq, hover⟩ hnone

theorem spreads_not_alike (hpolygon : polygon ∈ outlines rects) :
    Spreads (edgesOf rects) fun cell => ¬Alike rects polygon cell := by
  intro axis c t hnone
  exact not_congr (spreads_alike hpolygon axis c t hnone)

theorem alike_around (hpolygon : polygon ∈ outlines rects) {v : Point} (hv : v ∈ polygon) :
    (Alike rects polygon (v.x, v.y) → Around (Alike rects polygon) v) ∧
      (¬Alike rects polygon (v.x, v.y) → Around (fun cell => ¬Alike rects polygon cell) v) := by
  have hsound := sound_ofVertices (disjointBoxes rects)
  have hclosed := (outlines_of_mem_boundary hpolygon).closed hsound (boundary_nodup hpolygon)
  have hvertex := mem_of_mem_boundary hpolygon v hv
  have hown : ∀ (axis : Axis) (t : Int), t = axis.place v - 1 ∨ t = axis.place v →
      ∀ p q, ((edgesOf rects).along axis)[p]? = some q → axis.Over (axis.line v) t (p, q) →
        p ∈ polygon := by
    intro axis t ht p q hpq hover
    rcases eq_or_eq_of_over_beside hvertex hpq ht hover with rfl | rfl
    · exact hv
    · exact hclosed q hv axis p ((hsound axis).symm p q hpq)
  have habove := alike_across hpolygon (hown .vertical (v.y - 1) (Or.inl rfl))
  have hbelow := alike_across hpolygon (hown .vertical v.y (Or.inr rfl))
  have hright := alike_across hpolygon (hown .horizontal v.x (Or.inr rfl))
  simp only [Axis.cell, Axis.line] at habove hbelow hright
  simp only [Around, Point.cells, List.forall_mem_cons, List.not_mem_nil, false_implies,
    implies_true, and_true]
  tauto

/-- The cell at one vertex tells which cells are covered all along the outline. -/
theorem outer_or_hole (hclear : ∀ v, ¬Checkered rects v) (hpolygon : polygon ∈ outlines rects) :
    (∀ v ∈ polygon, Alike rects polygon (v.x, v.y) → Outer rects polygon) ∧
      ∀ v ∈ polygon, ¬Alike rects polygon (v.x, v.y) → Hole rects polygon := by
  constructor
  · intro v hv halike side hside cell hflanks
    have hspreads := spreads_alike hpolygon
    have haround := hspreads.around hclear hpolygon hv ((alike_around hpolygon hv).1 halike)
    exact hspreads.beside_side hclear hpolygon haround hside hflanks
  · intro v hv hnot side hside cell hflanks
    have hspreads := spreads_not_alike hpolygon
    have haround := hspreads.around hclear hpolygon hv ((alike_around hpolygon hv).2 hnot)
    have hdiffer := hspreads.beside_side hclear hpolygon haround hside hflanks
    unfold Alike at hdiffer
    tauto

theorem outer_iff_not_hole (hclear : ∀ v, ¬Checkered rects v) (hpolygon : polygon ∈ outlines rects) :
    Outer rects polygon ↔ ¬Hole rects polygon := by
  have hsound := sound_ofVertices (disjointBoxes rects)
  have houtlines := outlines_of_mem_boundary hpolygon
  have hleast := boundary_least hpolygon
  constructor
  · -- the cell beside the first side cannot be covered on both conditions
    intro houter hhole
    obtain ⟨side, hhead, hdown⟩ := houtlines.downwards hsound hleast
    have hfirst : (sides polygon)[2 * 0]? = some side := List.head?_eq_getElem?.symm.trans hhead
    have hside := List.mem_of_getElem? hfirst
    obtain ⟨hx, -⟩ := houtlines.vertical_side hsound hfirst
    have hflanks : Flanks side (side.1.x, side.1.y) := Or.inl ⟨hx, Or.inr rfl, by omega, by omega⟩
    have hinside := houter side hside _ hflanks
    have houtside := hhole side hside _ hflanks
    tauto
  · intro hnot
    obtain ⟨first, rest, rfl, -⟩ := hleast
    by_contra houter
    by_cases halike : Alike rects (first :: rest) (first.x, first.y)
    · exact houter ((outer_or_hole hclear hpolygon).1 first List.mem_cons_self halike)
    · exact hnot ((outer_or_hole hclear hpolygon).2 first List.mem_cons_self halike)

theorem Point.Precedes.trans {p q r : Point} (hpq : p.Precedes q) (hqr : q.Precedes r) :
    p.Precedes r := by
  simp only [Precedes] at *
  omega

theorem countP_inQuadrant_least {points : List Point} (hnodup : points.Nodup) {first : Point}
    (hfirst : first ∈ points) (hleast : ∀ p ∈ points, p = first ∨ first.Precedes p) :
    points.countP (inQuadrant first.x first.y) = 1 := by
  have honly : points.countP (inQuadrant first.x first.y) = points.count first := by
    apply List.countP_congr
    intro p hp
    simp only [inQuadrant, decide_eq_true_eq, beq_iff_eq]
    rcases hleast p hp with rfl | hprecedes
    · simp
    · have hne := hprecedes.ne
      simp only [Point.Precedes] at hprecedes
      constructor
      · omega
      · exact fun heq => absurd heq.symm hne
  rw [honly, List.count_eq_one_of_mem hnodup hfirst]

/-- The outline through the least vertex of all is not a hole. -/
theorem exists_outer (hclear : ∀ v, ¬Checkered rects v) (hpolygon : polygon ∈ outlines rects) :
    ∃ outer ∈ outlines rects, Outer rects outer := by
  have hordered := boundary_ordered (disjointBoxes rects)
  match houtlines : outlines rects, hpolygon with
  | outer :: others, _ =>
    have houter : outer ∈ outlines rects := houtlines ▸ List.mem_cons_self
    rw [show boundary (disjointBoxes rects) = outer :: others from houtlines] at hordered
    have hwalk := outlines_of_mem_boundary houter
    have hnodup := boundary_nodup houter
    obtain ⟨first, rest, rfl, hleast⟩ := boundary_least houter
    have hfirst := mem_of_mem_boundary houter first List.mem_cons_self
    have hown : ∀ p ∈ first :: rest, p = first ∨ first.Precedes p := fun p hp =>
      (List.mem_cons.mp hp).imp_right (hleast p)
    have hall : ∀ p ∈ oddCorners (disjointBoxes rects), p = first ∨ first.Precedes p := by
      intro p hp
      obtain ⟨other, hother, hmem⟩ := exists_mem_boundary hp
      rw [show boundary (disjointBoxes rects) = (first :: rest) :: others from houtlines] at hother
      rcases List.mem_cons.mp hother with rfl | hother
      · exact hown p hmem
      · obtain ⟨_, ⟨⟩, first', hhead, hbefore⟩ := List.rel_of_pairwise_cons hordered hother
        have hother' : other ∈ outlines rects := houtlines ▸ List.mem_cons_of_mem _ hother
        obtain ⟨_, _, rfl, hlater⟩ := boundary_least hother'
        obtain rfl := Option.some.inj hhead
        rcases List.mem_cons.mp hmem with rfl | hmem
        · exact Or.inr hbefore
        · exact Or.inr (hbefore.trans (hlater p hmem))
    refine ⟨first :: rest, List.mem_cons_self, ?_⟩
    refine (outer_or_hole hclear houter).1 first List.mem_cons_self ?_
    rw [Alike, hwalk.inside_iff (sound_ofVertices _), ← odd_vertices_iff_covered,
      countP_inQuadrant_least (oddCorners_nodup _) hfirst hall,
      countP_inQuadrant_least hnodup List.mem_cons_self hown]

end Alike

/-! ### Outlines and holes -/

/-- Where no cells touch in a corner only, all outlines wind in the same direction, those whose inside is
covered and those whose outside is. So the signed areas tell the one from the other exactly if there is
nothing to tell. -/
theorem outlines_wind_alike (rects : List Corners) (hclear : ∀ v, ¬Checkered rects v) :
    (∀ polygon ∈ outlines rects,
        shoelace polygon < 0 ∧ (Outer rects polygon ↔ ¬Hole rects polygon)) ∧
      ((∀ outer ∈ outlines rects, ∀ hole ∈ outlines rects, Outer rects outer → Hole rects hole →
          shoelace outer * shoelace hole < 0) ↔ ∀ polygon ∈ outlines rects, ¬Hole rects polygon) := by
  refine ⟨?_, ?_, ?_⟩
  · intro polygon hpolygon
    exact ⟨shoelace_neg hclear hpolygon, outer_iff_not_hole hclear hpolygon⟩
  · intro hopposite hole hmem hhole
    obtain ⟨outer, houter, hcovers⟩ := exists_outer hclear hmem
    have hproduct := hopposite outer houter hole hmem hcovers hhole
    have hpos := mul_pos_of_neg_of_neg (shoelace_neg hclear houter) (shoelace_neg hclear hmem)
    omega
  · intro hnone outer _ hole hmem _ hhole
    exact absurd hhole (hnone hole hmem)

theorem covered_ring (i j : Int) : Covered ring i j ↔
    (0 ≤ i ∧ i < 3) ∧ (0 ≤ j ∧ j < 3) ∧ ¬(i = 1 ∧ j = 1) := by
  simp only [Covered, ring, List.mem_cons, List.not_mem_nil, or_false, exists_eq_or_imp,
    exists_eq_left, Corners.Covers]
  omega

theorem ring_clear (v : Point) : ¬Checkered ring v := by
  simp only [Checkered, covered_ring]
  omega

theorem outlines_ring : outlines ring = [around 0 0 3 3, around 1 1 2 2] := by cbv

theorem outlines_wind_alike_ring :
    (∀ v, ¬Checkered ring v) ∧ outlines ring = [around 0 0 3 3, around 1 1 2 2] ∧
      shoelace (around 0 0 3 3) < 0 ∧ shoelace (around 1 1 2 2) < 0 := by
  obtain ⟨halike, -⟩ := outlines_wind_alike ring ring_clear
  rw [outlines_ring] at halike
  obtain ⟨houter, hhole⟩ := List.forall_mem_cons.mp halike
  exact ⟨ring_clear, outlines_ring, houter.1, (List.forall_mem_singleton.mp hhole).1⟩

section Around

variable {x y x' y' : Int}

theorem inside_around (hx : x < x') (hy : y < y') (cell : Int × Int) :
    Inside (around x y x' y') cell ↔ (x ≤ cell.1 ∧ cell.1 < x') ∧ y ≤ cell.2 ∧ cell.2 < y' := by
  simp only [Inside, passings, around, sides, List.flatMap_cons, List.flatMap_nil, List.append_nil,
    List.cons_append, List.nil_append, List.zip_cons_cons, List.zip_nil_right, List.countP_cons,
    List.countP_nil, Passes, decide_eq_true_eq, Int.ne_of_lt hx, (Int.ne_of_lt hx).symm, true_and,
    false_and, if_false]
  split <;> split <;> omega

theorem flanks_around (hx : x < x') (hy : y < y') {side : Point × Point}
    (hside : side ∈ sides (around x y x' y')) {cell : Int × Int} (hflanks : Flanks side cell) :
    ((cell.1 = x - 1 ∨ cell.1 = x ∨ cell.1 = x' - 1 ∨ cell.1 = x') ∧ y ≤ cell.2 ∧ cell.2 < y') ∨
      (cell.2 = y - 1 ∨ cell.2 = y ∨ cell.2 = y' - 1 ∨ cell.2 = y') ∧ x ≤ cell.1 ∧ cell.1 < x' := by
  simp only [around, sides, List.cons_append, List.nil_append, List.zip_cons_cons,
    List.zip_nil_right, List.mem_cons, List.not_mem_nil, or_false] at hside
  rcases hside with rfl | rfl | rfl | rfl <;> simp only [Flanks] at hflanks <;> omega

end Around

/-- The ring and the hole in it are walked in the same direction. -/
theorem hole_winds_alike : (∀ v, ¬Checkered ring v) ∧
    ∃ outer ∈ outlines ring, ∃ hole ∈ outlines ring, Outer ring outer ∧ Hole ring hole ∧
      ¬shoelace outer * shoelace hole < 0 := by
  refine ⟨ring_clear, around 0 0 3 3, ?_, around 1 1 2 2, ?_, ?_, ?_, by decide⟩
  · rw [outlines_ring]
    exact List.mem_cons_self
  · rw [outlines_ring]
    exact List.mem_cons_of_mem _ List.mem_cons_self
  · intro side hside cell hflanks
    have hbeside := flanks_around (by decide) (by decide) hside hflanks
    rw [inside_around (by decide) (by decide), covered_ring]
    omega
  · intro side hside cell hflanks
    have hbeside := flanks_around (by decide) (by decide) hside hflanks
    rw [inside_around (by decide) (by decide), covered_ring]
    omega

end Redraw.Outline
