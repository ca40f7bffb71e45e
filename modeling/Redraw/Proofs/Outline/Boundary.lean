import Redraw.Proofs.Outline.Cells
import Redraw.Proofs.Outline.Walk

/-!
# Outlines bound the union

Each outline takes its vertices two by two along vertical sides. So to the left of a cell an odd number of
vertical sides passes its row exactly if an odd number of vertices lies in the quadrant of the cell.
-/

namespace Redraw.Outline

/-! ### Outlines share out the vertices -/

/-- A polygon that is walked from its first point, along a vertical edge first. -/
def Outlines (e : Edges) (polygon : Polygon) : Prop :=
  ∃ start met, polygon = start :: met ∧ Leads e start .vertical start met

theorem Perfect.without {line : Point → Int} {vertices : Point → Prop} {m m' : Matching}
    (h : Perfect line vertices m) {points : List Point}
    (hclosed : ∀ p ∈ points, ∀ q : Point, m[p]? = some q → q ∈ points)
    (hm : ∀ p : Point, m'[p]? = if p ∈ points then none else m[p]?) :
    Perfect line (fun p => vertices p ∧ p ∉ points) m' := by
  have hkept : ∀ p q : Point, m'[p]? = some q → p ∉ points ∧ m[p]? = some q := by
    intro p q hpq
    rw [hm] at hpq
    by_cases hp : p ∈ points
    · rw [if_pos hp] at hpq
      exact absurd hpq (by simp)
    · rw [if_neg hp] at hpq
      exact ⟨hp, hpq⟩
  constructor
  · intro p
    constructor
    · intro hsome
      obtain ⟨hv, hp⟩ := hsome
      obtain ⟨q, hpq⟩ := (h.defined p).mp hv
      exact ⟨q, by rw [hm, if_neg hp, hpq]⟩
    · intro hsome
      obtain ⟨q, hpq⟩ := hsome
      obtain ⟨hp, hpq⟩ := hkept p q hpq
      exact ⟨(h.defined p).mpr ⟨q, hpq⟩, hp⟩
  · intro p q hpq
    obtain ⟨hp, hpq⟩ := hkept p q hpq
    have hback := h.symm p q hpq
    rw [hm, if_neg fun hq => hp (hclosed q hq p hback), hback]
  · exact fun p q hpq => h.same_line p q (hkept p q hpq).2
  · exact fun p q hpq => h.ne p q (hkept p q hpq).2

section OutlineAt

variable {e : Edges} {vertices : Point → Prop} {start : Point}

theorem outlineAt_walk (hsound : e.Sound vertices) (hstart : vertices start) :
    Outlines e (outlineAt start e).1 ∧ start ∈ (outlineAt start e).1 ∧
      (outlineAt start e).1.Nodup ∧ ∀ p ∈ (outlineAt start e).1, vertices p := by
  obtain ⟨hleads, hwalked⟩ := (walking_start hstart).leads hsound
  have hperm := List.reverse_perm (start :: (follow start start .vertical
    (e.erase start .horizontal)).1)
  rw [List.reverse_cons] at hperm
  refine ⟨⟨start, _, rfl, hleads⟩, List.mem_cons_self, ?_, ?_⟩
  · exact hperm.nodup_iff.mp hwalked.nodup
  · exact fun p hp => hwalked.vertex p (hperm.mem_iff.mpr hp)

theorem outlineAt_remaining (hsound : e.Sound vertices) (hstart : vertices start) :
    (∀ (a : Axis) (p : Point), ((outlineAt start e).2.along a)[p]? =
        if p ∈ (outlineAt start e).1 then none else (e.along a)[p]?) ∧
      (outlineAt start e).2.Sound fun p => vertices p ∧ p ∉ (outlineAt start e).1 := by
  obtain ⟨_, hwalked⟩ := (walking_start hstart).leads hsound
  have hmem : ∀ p, p ∈ (outlineAt start e).1 ↔ p ∈ (follow start start .vertical
      (e.erase start .horizontal)).1.reverse ++ [start] := by
    intro p
    simp only [outlineAt, List.mem_append, List.mem_reverse, List.mem_cons, List.not_mem_nil,
      or_false]
    exact or_comm
  have hlookup : ∀ (a : Axis) (p : Point), ((outlineAt start e).2.along a)[p]? =
      if p ∈ (outlineAt start e).1 then none else (e.along a)[p]? := by
    intro a p
    have herase := Edges.getElem?_along_foldl_eraseVertex (outlineAt start e).1
      (follow start start .vertical (e.erase start .horizontal)).2 p a
    apply herase.trans
    by_cases hp : p ∈ (outlineAt start e).1
    · rw [if_pos hp, if_pos hp]
    · rw [if_neg hp, if_neg hp]
      exact hwalked.untouched p (fun hseen => hp ((hmem p).mpr hseen)) a
  refine ⟨hlookup, ?_⟩
  intro a
  refine (hsound a).without ?_ (hlookup a)
  intro p hp q hpq
  exact (hmem q).mpr (hwalked.closed p ((hmem p).mp hp) a q hpq)

end OutlineAt

theorem contains_horizontal_iff {e : Edges} {vertices : Point → Prop} (hsound : e.Sound vertices)
    (p : Point) : e.horizontal.contains p = true ↔ vertices p := by
  rw [(hsound .horizontal).defined p, Std.TreeMap.contains_eq_isSome_getElem?,
    Option.isSome_iff_exists]
  rfl

theorem Outlines.mono {e e' : Edges} {polygon taken : Polygon} (h : Outlines e' polygon)
    (hlookup : ∀ (a : Axis) (p : Point),
      (e'.along a)[p]? = if p ∈ taken then none else (e.along a)[p]?) : Outlines e polygon := by
  obtain ⟨s, met, heq, hleads⟩ := h
  refine ⟨s, met, heq, hleads.mono ?_⟩
  intro a p q hpq
  rw [hlookup] at hpq
  by_cases hp : p ∈ taken
  · rw [if_pos hp] at hpq
    exact absurd hpq (by simp)
  · rwa [if_neg hp] at hpq

theorem outlinesThrough_share (points : List Point) {e : Edges} {vertices : Point → Prop}
    (hsound : e.Sound vertices) (hpoints : ∀ p, vertices p → p ∈ points) :
    (∀ polygon ∈ outlinesThrough points e, Outlines e polygon) ∧
      (outlinesThrough points e).flatten.Nodup ∧
      ∀ p, p ∈ (outlinesThrough points e).flatten ↔ vertices p := by
  induction points generalizing e vertices with
  | nil =>
    refine ⟨by simp [outlinesThrough], by simp [outlinesThrough], ?_⟩
    intro p
    simp only [outlinesThrough, List.flatten_nil, List.not_mem_nil, false_iff]
    exact fun hp => List.not_mem_nil (hpoints p hp)
  | cons start rest ih =>
    have hcontains := contains_horizontal_iff hsound start
    rw [outlinesThrough]
    by_cases hstart : vertices start
    · rw [if_pos (hcontains.mpr hstart)]
      obtain ⟨houtline, hmem, hnodup, hvertex⟩ := outlineAt_walk hsound hstart
      obtain ⟨hlookup, hremaining⟩ := outlineAt_remaining hsound hstart
      have hrest : ∀ p, vertices p ∧ p ∉ (outlineAt start e).1 → p ∈ rest := by
        intro p hsome
        obtain ⟨hp, hnew⟩ := hsome
        rcases List.mem_cons.mp (hpoints p hp) with rfl | hp
        · exact absurd hmem hnew
        · exact hp
      obtain ⟨hpolygons, hdistinct, hshare⟩ := ih hremaining hrest
      refine ⟨?_, ?_, ?_⟩
      · intro polygon hpolygon
        rcases List.mem_cons.mp hpolygon with rfl | hpolygon
        · exact houtline
        · exact (hpolygons polygon hpolygon).mono hlookup
      · rw [List.flatten_cons, List.nodup_append]
        refine ⟨hnodup, hdistinct, ?_⟩
        rintro p hp _ hq rfl
        exact ((hshare p).mp hq).2 hp
      · intro p
        rw [List.flatten_cons, List.mem_append, hshare p]
        constructor
        · intro hcases
          rcases hcases with hp | hp
          · exact hvertex p hp
          · exact hp.1
        · intro hp
          by_cases hseen : p ∈ (outlineAt start e).1
          · exact Or.inl hseen
          · exact Or.inr ⟨hp, hseen⟩
    · rw [if_neg fun h => hstart (hcontains.mp h)]
      apply ih hsound
      intro p hp
      rcases List.mem_cons.mp (hpoints p hp) with rfl | hp'
      · exact absurd hp hstart
      · exact hp'

/-- The outlines of boxes consist of the vertices, each taken once. -/
theorem flatten_boundary_perm (boxes : List Box) : (boundary boxes).flatten.Perm (oddCorners boxes) := by
  obtain ⟨_, hnodup, hshare⟩ := outlinesThrough_share (oddCorners boxes) (sound_ofVertices boxes)
    fun _ hp => hp
  exact (List.perm_ext_iff_of_nodup hnodup (oddCorners_nodup boxes)).mpr hshare

/-- The outlines of boxes follow the edges between their vertices. -/
theorem outlines_of_mem_boundary {boxes : List Box} {polygon : Polygon}
    (h : polygon ∈ boundary boxes) : Outlines (.ofVertices (oddCorners boxes)) polygon := by
  obtain ⟨houtlines, _, _⟩ := outlinesThrough_share (oddCorners boxes) (sound_ofVertices boxes)
    fun _ hp => hp
  exact houtlines polygon h

/-! ### Sides to the left of a cell -/

/-- The sides of a closed polygon, the last of which leads back to the first point. -/
def sides : Polygon → List (Point × Point)
  | [] => []
  | p :: rest => (p :: rest).zip (rest ++ [p])

/-- The side is vertical, stands left of the cell `(i, j)` and passes its row. -/
def Passes (i j : Int) (side : Point × Point) : Prop :=
  side.1.x = side.2.x ∧ side.1.x ≤ i ∧ min side.1.y side.2.y ≤ j ∧ j < max side.1.y side.2.y

instance (i j : Int) (side : Point × Point) : Decidable (Passes i j side) :=
  inferInstanceAs (Decidable (_ ∧ _))

/-- How many sides of the polygons pass the row of the cell on its left. -/
def passings (i j : Int) (polygons : List Polygon) : Nat :=
  (polygons.flatMap sides).countP fun side => decide (Passes i j side)

theorem passes_vertical (i j : Int) {p q : Point} (hx : p.x = q.x) :
    (if Passes i j (p, q) then 1 else 0) % 2 =
      ((if inQuadrant i j p = true then 1 else 0) + if inQuadrant i j q = true then 1 else 0) % 2 := by
  simp only [Passes, inQuadrant, decide_eq_true_eq, ← hx, true_and]
  by_cases hi : p.x ≤ i <;> by_cases hp : p.y ≤ j <;> by_cases hq : q.y ≤ j <;>
    simp only [hi, hp, hq, true_and, false_and, and_true, and_false, if_true, if_false] <;>
    split <;> omega

theorem not_passes_horizontal (i j : Int) {p q : Point} (hy : p.y = q.y) : ¬Passes i j (p, q) := by
  simp only [Passes]
  omega

/-- The points that the vertical sides ahead of a walk take up. -/
def pointsAhead : Axis → Point → List Point → List Point
  | .vertical, current, met => current :: met
  | .horizontal, _, met => met

/-- Along a walk every vertical side takes up two points, so it passes the row of a cell exactly if one
of them lies in the quadrant of the cell. -/
theorem Leads.passings {e : Edges} {vertices : Point → Prop} (hsound : e.Sound vertices)
    {start : Point} (i j : Int) {axis : Axis} {current : Point} {met : List Point}
    (h : Leads e start axis current met) :
    ((current :: met).zip (met ++ [start])).countP (fun side => decide (Passes i j side)) % 2 =
      (pointsAhead axis current met).countP (inQuadrant i j) % 2 := by
  induction met generalizing axis current with
  | nil =>
    obtain ⟨rfl, hclose⟩ := h
    have hy := (hsound .horizontal).same_line current start hclose
    simp [not_passes_horizontal i j hy, pointsAhead]
  | cons next rest ih =>
    obtain ⟨hnext, hleads⟩ := h
    have hrest := ih hleads
    have hline := (hsound axis).same_line current next hnext
    simp only [List.cons_append, List.zip_cons_cons, List.countP_cons, decide_eq_true_eq] at hrest ⊢
    cases axis with
    | vertical =>
      have hside := passes_vertical i j hline
      simp only [Axis.turn, pointsAhead, List.countP_cons] at hrest ⊢
      omega
    | horizontal =>
      rw [if_neg (not_passes_horizontal i j hline)]
      simp only [Axis.turn, pointsAhead] at hrest ⊢
      omega

theorem passings_parity {e : Edges} {vertices : Point → Prop} (hsound : e.Sound vertices)
    {polygons : List Polygon} (houtlines : ∀ polygon ∈ polygons, Outlines e polygon) (i j : Int) :
    passings i j polygons % 2 = polygons.flatten.countP (inQuadrant i j) % 2 := by
  induction polygons with
  | nil => rfl
  | cons polygon rest ih =>
    obtain ⟨start, met, rfl, hleads⟩ := houtlines polygon List.mem_cons_self
    have hfirst := hleads.passings hsound i j
    have hrest := ih fun polygon hp => houtlines polygon (List.mem_cons_of_mem _ hp)
    simp only [passings, List.flatMap_cons, List.flatten_cons, List.countP_append] at hrest ⊢
    simp only [pointsAhead] at hfirst
    simp only [sides]
    omega

/-- Whatever the rectangles, an odd number of vertical sides passes a unit cell on its left exactly if
some rectangle covers the cell. -/
theorem outlines_bound_union (rects : List Corners) (i j : Int) :
    passings i j (outlines rects) % 2 = 1 ↔ ∃ c ∈ rects, c.Covers i j := by
  have hsound := sound_ofVertices (disjointBoxes rects)
  have houtlines := (outlinesThrough_share _ hsound fun _ hp => hp).1
  have hparity := passings_parity hsound houtlines i j
  have hvertices := (flatten_boundary_perm (disjointBoxes rects)).countP_eq (inQuadrant i j)
  have hodd := odd_quadrant_iff_covers (disjointBoxes_proper rects) (disjointBoxes_apart rects) i j
  rw [← disjointBoxes_covers rects i j, ← hodd, ← hvertices]
  exact iff_of_eq (congrArg (· = 1) hparity)

end Redraw.Outline
