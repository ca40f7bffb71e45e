import Redraw.Proofs.Outline.Carrying
import Redraw.Proofs.Outline.Turns

/-!
# Cells along an outline

Where no cells touch in a corner only, what may only change across edges holds of all cells along an
outline as soon as it holds of the cells around one vertex: no edge crosses a side, and around a vertex
only the two edges that end there separate cells.
-/

namespace Redraw.Outline

abbrev edgesOf (rects : List Corners) : Edges := .ofVertices (oddCorners (disjointBoxes rects))

/-! ### Cells behind a line -/

/-- The cell behind a line at a place of it. -/
def Axis.cell : Axis → Int → Int → Int × Int
  | .vertical, line, place => (line, place)
  | .horizontal, line, place => (place, line)

/-- An edge goes over the place of the line, between the cells on both sides of it. -/
def Edges.Separates (e : Edges) (axis : Axis) (c t : Int) : Prop :=
  ∃ p q, (e.along axis)[p]? = some q ∧ axis.Over c t (p, q)

/-- The property is the same for cells side by side that no edge separates. -/
def Spreads (e : Edges) (R : Int × Int → Prop) : Prop :=
  ∀ (axis : Axis) (c t : Int), ¬e.Separates axis c t → (R (axis.cell (c - 1) t) ↔ R (axis.cell c t))

def Around (R : Int × Int → Prop) (p : Point) : Prop := ∀ cell ∈ p.cells, R cell

theorem Axis.line_turn (axis : Axis) : axis.turn.line = axis.place := by
  cases axis <;> rfl

theorem Axis.place_turn (axis : Axis) : axis.turn.place = axis.line := by
  cases axis <;> rfl

theorem Axis.cell_turn (axis : Axis) (c t : Int) : axis.turn.cell t c = axis.cell c t := by
  cases axis <;> rfl

theorem around_iff (axis : Axis) {R : Int × Int → Prop} {p : Point} : Around R p ↔
    ∀ c, c = axis.line p - 1 ∨ c = axis.line p →
      ∀ t, t = axis.place p - 1 ∨ t = axis.place p → R (axis.cell c t) := by
  cases axis <;>
    simp only [Around, Point.cells, List.forall_mem_cons, List.not_mem_nil, false_implies,
      implies_true, and_true, forall_eq_or_imp, forall_eq, Axis.line, Axis.place, Axis.cell]
  · tauto
  · tauto

theorem countP_inQuadrant_cell (axis : Axis) (c t : Int) (points : List Point) :
    points.countP (inQuadrant (axis.cell c t).1 (axis.cell c t).2) =
      points.countP (inQuadrant (axis.cell (c - 1) t).1 (axis.cell (c - 1) t).2) +
        points.countP (axis.upTo c t) := by
  cases axis with
  | vertical =>
    have hcolumn := countP_inQuadrant_column (c - 1) t points
    rwa [Int.sub_add_cancel] at hcolumn
  | horizontal =>
    have hrow := countP_inQuadrant_row t (c - 1) points
    rwa [Int.sub_add_cancel] at hrow

/-! ### Edges near an edge -/

section Near

variable {boxes : List Box} {axis : Axis} {p q : Point} {c t : Int}

/-- Of the two places of the line beside the end of an edge, one lies on the edge, and no edge goes over
the other. -/
theorem exists_beyond (hpq : ((Edges.ofVertices (oddCorners boxes)).along axis)[p]? = some q) :
    ∃ near far, (near = axis.place q - 1 ∧ far = axis.place q ∨
        near = axis.place q ∧ far = axis.place q - 1) ∧
      (min (axis.place p) (axis.place q) ≤ near ∧ near < max (axis.place p) (axis.place q)) ∧
        ¬(Edges.ofVertices (oddCorners boxes)).Separates axis (axis.line q) far := by
  have hsound := sound_ofVertices boxes axis
  have hqp := hsound.symm p q hpq
  have hq := (hsound.defined q).mpr ⟨p, hqp⟩
  have hne : axis.place p ≠ axis.place q := fun h =>
    hsound.ne p q hpq (axis.ext (hsound.same_line p q hpq) h)
  -- an edge over the place past the end would begin or end at `q` as well
  rcases Int.lt_or_gt_of_ne hne with hlt | hgt
  · refine ⟨axis.place q - 1, axis.place q, Or.inl ⟨rfl, rfl⟩, by omega, ?_⟩
    rintro ⟨a, b, hab, hline, hbegin, hend⟩
    dsimp only at hline hbegin hend
    rcases eq_end_of_onwards hab (by omega) hq hline.symm hbegin (by omega) with rfl | rfl
    · cases hab.symm.trans hqp
      omega
    · omega
  · refine ⟨axis.place q, axis.place q - 1, Or.inr ⟨rfl, rfl⟩, by omega, ?_⟩
    rintro ⟨a, b, hab, hline, hbegin, hend⟩
    dsimp only at hline hbegin hend
    rcases eq_end_of_onwards hab (by omega) hq hline.symm (by omega) (by omega) with rfl | rfl
    · omega
    · cases (hsound.symm a q hab).symm.trans hqp
      omega

theorem eq_or_eq_of_over_beside (hq : q ∈ oddCorners boxes) {a b : Point}
    (hab : ((Edges.ofVertices (oddCorners boxes)).along axis)[a]? = some b)
    (ht : t = axis.place q - 1 ∨ t = axis.place q) (hover : axis.Over (axis.line q) t (a, b)) :
    a = q ∨ b = q := by
  obtain ⟨hline, hbegin, hend⟩ := hover
  dsimp only at hline hbegin hend
  rcases eq_end_of_onwards hab (by omega) hq hline.symm (by omega) (by omega) with h | h
  · exact Or.inl h.symm
  · exact Or.inr h.symm

end Near

section Clear

variable {rects : List Corners} {axis : Axis} {p q : Point} {c t : Int}

/-- Nothing separates the cells on one side of an edge. -/
theorem not_separates_within (hclear : ∀ v, ¬Checkered rects v)
    (hpq : ((edgesOf rects).along axis)[p]? = some q)
    (hlow : min (axis.place p) (axis.place q) < t) (hhigh : t < max (axis.place p) (axis.place q))
    (hc : c = axis.line p - 1 ∨ c = axis.line p) : ¬(edgesOf rects).Separates axis.turn t c := by
  rintro ⟨a, b, hab, hline, hbegin, hend⟩
  have hsound := sound_ofVertices (disjointBoxes rects)
  have hsame := (hsound axis.turn).same_line a b hab
  have ha := ((hsound axis.turn).defined a).mpr ⟨b, hab⟩
  have hb := ((hsound axis.turn).defined b).mpr ⟨a, (hsound axis.turn).symm a b hab⟩
  dsimp only at hline hbegin hend
  -- no end of the other edge lies on this one
  have hoff : ∀ v ∈ oddCorners (disjointBoxes rects), axis.turn.line v = t →
      axis.turn.place v ≠ axis.line p := by
    intro v hv hplace hlineOf
    rw [axis.line_turn] at hplace
    rw [axis.place_turn] at hlineOf
    rcases eq_end_of_between hpq hv hlineOf (by omega) (by omega) with rfl | rfl <;> omega
  have hfirst := hoff a ha hline
  have hsecond := hoff b hb (hsame.symm.trans hline)
  cases axis with
  | vertical =>
    have hcheckered := @checkered_of_through rects (p, q) (a, b) ⟨p.x, t⟩ hpq hab rfl hline
      ⟨hlow, hhigh⟩
    refine hclear _ (hcheckered ?_)
    simp only [Axis.turn, Axis.place, Axis.line] at hbegin hend hfirst hsecond hc ⊢
    omega
  | horizontal =>
    have hcheckered := @checkered_of_through rects (a, b) (p, q) ⟨t, p.y⟩ hab hpq hline rfl
    refine hclear _ (hcheckered ?_ ⟨hlow, hhigh⟩)
    simp only [Axis.turn, Axis.place, Axis.line] at hbegin hend hfirst hsecond hc ⊢
    omega

variable {R : Int × Int → Prop}

theorem Spreads.along_edge (hR : Spreads (edgesOf rects) R) (hclear : ∀ v, ¬Checkered rects v)
    (hpq : ((edgesOf rects).along axis)[p]? = some q)
    (hc : c = axis.line p - 1 ∨ c = axis.line p) (hlow : min (axis.place p) (axis.place q) ≤ t)
    (hhigh : t < max (axis.place p) (axis.place q)) :
    R (axis.cell c t) ↔ R (axis.cell c (min (axis.place p) (axis.place q))) := by
  induction t, hlow using Int.leInduction with
  | base => rfl
  | succ t hle ih =>
    have hnone := not_separates_within hclear hpq (Int.lt_add_one_of_le hle) hhigh hc
    have hstep := hR axis.turn (t + 1) c hnone
    rw [Int.add_sub_cancel, axis.cell_turn, axis.cell_turn] at hstep
    exact hstep.symm.trans (ih (by omega))

theorem Spreads.beside (hR : Spreads (edgesOf rects) R) (hclear : ∀ v, ¬Checkered rects v)
    (hpq : ((edgesOf rects).along axis)[p]? = some q) (hp : Around R p)
    (hc : c = axis.line p - 1 ∨ c = axis.line p) (hlow : min (axis.place p) (axis.place q) ≤ t)
    (hhigh : t < max (axis.place p) (axis.place q)) : R (axis.cell c t) := by
  rw [around_iff axis] at hp
  rw [hR.along_edge hclear hpq hc hlow hhigh]
  by_cases honwards : axis.place p < axis.place q
  · rw [min_eq_left (Int.le_of_lt honwards)]
    exact hp c hc _ (Or.inr rfl)
  · rw [← hR.along_edge hclear hpq hc (t := axis.place p - 1) (by omega) (by omega)]
    exact hp c hc _ (Or.inl rfl)

theorem Spreads.past (hR : Spreads (edgesOf rects) R)
    (hpq : ((edgesOf rects).along axis)[p]? = some q) :
    ∃ t, (t = axis.place q - 1 ∨ t = axis.place q) ∧
      (R (axis.cell (axis.line q - 1) t) ↔ R (axis.cell (axis.line q) t)) := by
  obtain ⟨_, far, hends, _, hfar⟩ := exists_beyond hpq
  exact ⟨far, by omega, hR axis _ far hfar⟩

theorem Spreads.closed (hR : Spreads (edgesOf rects) R) (hclear : ∀ v, ¬Checkered rects v) :
    Closed (edgesOf rects) (Around R) := by
  intro p hp axis q hpq
  have hsound := sound_ofVertices (disjointBoxes rects)
  have hsame := (hsound axis).same_line p q hpq
  have hq := ((hsound axis).defined q).mpr ⟨p, (hsound axis).symm p q hpq⟩
  obtain ⟨near, far, hends, ⟨hlow, hhigh⟩, hfar⟩ := exists_beyond hpq
  have hnear : ∀ c, c = axis.line q - 1 ∨ c = axis.line q → R (axis.cell c near) := by
    intro c hc
    rw [← hsame] at hc
    exact hR.beside hclear hpq hp hc hlow hhigh
  -- the other edge at `q` leaves one side of the line free
  obtain ⟨r, hqr⟩ := ((hsound axis.turn).defined q).mp hq
  obtain ⟨c, hc, hfree⟩ := hR.past ((hsound axis.turn).symm q r hqr)
  rw [axis.place_turn] at hc
  rw [axis.line_turn, axis.cell_turn, axis.cell_turn] at hfree
  have hacross : R (axis.cell c far) := by
    have hone := hnear c hc
    rcases hends with ⟨rfl, rfl⟩ | ⟨rfl, rfl⟩
    · exact hfree.mp hone
    · exact hfree.mpr hone
  have hpast := hR axis (axis.line q) far hfar
  have hboth : R (axis.cell (axis.line q - 1) far) ∧ R (axis.cell (axis.line q) far) := by
    rcases hc with rfl | rfl
    · exact ⟨hacross, hpast.mp hacross⟩
    · exact ⟨hpast.mpr hacross, hacross⟩
  rw [around_iff axis]
  intro c' hc' t ht
  have hcases : t = near ∨ t = far := by omega
  rcases hcases with rfl | rfl
  · exact hnear c' hc'
  · rcases hc' with rfl | rfl
    · exact hboth.1
    · exact hboth.2

end Clear

/-! ### Along a whole outline -/

def Flanks (side : Point × Point) (cell : Int × Int) : Prop :=
  side.1.x = side.2.x ∧ (cell.1 = side.1.x - 1 ∨ cell.1 = side.1.x) ∧
      min side.1.y side.2.y ≤ cell.2 ∧ cell.2 < max side.1.y side.2.y ∨
    side.1.y = side.2.y ∧ (cell.2 = side.1.y - 1 ∨ cell.2 = side.1.y) ∧
      min side.1.x side.2.x ≤ cell.1 ∧ cell.1 < max side.1.x side.2.x

section Outline

variable {rects : List Corners} {polygon : Polygon} {R : Int × Int → Prop}

/-- What spreads from the cells around one vertex of an outline holds of all cells along it. -/
theorem Spreads.around (hR : Spreads (edgesOf rects) R)
    (hclear : ∀ v, ¬Checkered rects v) (hpolygon : polygon ∈ outlines rects) {p : Point}
    (hp : p ∈ polygon) (haround : Around R p) : ∀ q ∈ polygon, Around R q :=
  (outlines_of_mem_boundary hpolygon).stays (sound_ofVertices _) (hR.closed hclear) hp haround

theorem Spreads.beside_side (hR : Spreads (edgesOf rects) R)
    (hclear : ∀ v, ¬Checkered rects v) (hpolygon : polygon ∈ outlines rects)
    (haround : ∀ p ∈ polygon, Around R p) {side : Point × Point} (hside : side ∈ sides polygon)
    {cell : Int × Int} (hflanks : Flanks side cell) : R cell := by
  have hp := haround _ (mem_of_mem_sides hside)
  obtain ⟨axis, -, halong, -⟩ := (outlines_of_mem_boundary hpolygon).next_side hside
  have hsound := sound_ofVertices (disjointBoxes rects) axis
  have hsame := hsound.same_line _ _ halong
  have hne : axis.place side.1 ≠ axis.place side.2 := fun h =>
    hsound.ne _ _ halong (axis.ext hsame h)
  obtain ⟨i, j⟩ := cell
  cases axis with
  | vertical =>
    rcases hflanks with ⟨-, hi, hlow, hhigh⟩ | ⟨hy, -⟩
    · exact hR.beside hclear halong hp hi hlow hhigh
    · exact absurd hy hne
  | horizontal =>
    rcases hflanks with ⟨hx, -⟩ | ⟨-, hj, hlow, hhigh⟩
    · exact absurd hx hne
    · exact hR.beside hclear halong hp hj hlow hhigh

end Outline

end Redraw.Outline
