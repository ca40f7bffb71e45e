import Mathlib.Data.List.Pairwise
import Redraw.Proofs.Outline.Boundary
import Redraw.Proofs.Outline.Region

namespace Redraw.Outline

/-! ### Edges across a line -/

def Axis.place : Axis → Point → Int
  | .vertical => Point.y
  | .horizontal => Point.x

/-- Line after line, and onwards within a line. -/
def Axis.Orders (axis : Axis) (p q : Point) : Prop :=
  axis.line p < axis.line q ∨ axis.line p = axis.line q ∧ axis.place p < axis.place q

theorem pairUp_subset {line : Point → Int} {points : List Point} :
    ∀ edge ∈ pairUp line points, edge.1 ∈ points ∧ edge.2 ∈ points := by
  fun_induction pairUp line points with
  | case1 p q rest hline ih =>
    intro edge hedge
    rcases List.mem_cons.mp hedge with rfl | hedge
    · exact ⟨List.mem_cons_self, List.mem_cons_of_mem _ List.mem_cons_self⟩
    · obtain ⟨hfst, hsnd⟩ := ih edge hedge
      exact ⟨List.mem_cons_of_mem _ (List.mem_cons_of_mem _ hfst),
        List.mem_cons_of_mem _ (List.mem_cons_of_mem _ hsnd)⟩
  | case2 p q rest hline ih =>
    intro edge hedge
    obtain ⟨hfst, hsnd⟩ := ih edge hedge
    exact ⟨List.mem_cons_of_mem _ (List.mem_cons_of_mem _ hfst),
      List.mem_cons_of_mem _ (List.mem_cons_of_mem _ hsnd)⟩
  | case3 => simp

/-- The edge goes over place `t` of the line `c`. -/
def Axis.Over (axis : Axis) (c t : Int) (edge : Point × Point) : Prop :=
  axis.line edge.1 = c ∧ axis.place edge.1 ≤ t ∧ ¬axis.place edge.2 ≤ t

instance (axis : Axis) (c t : Int) (edge : Point × Point) : Decidable (axis.Over c t edge) :=
  inferInstanceAs (Decidable (_ ∧ _))

section Pairs

variable {axis : Axis} {points : List Point}

theorem pairUp_onwards (hsorted : points.Pairwise axis.Orders) :
    ∀ edge ∈ pairUp axis.line points, axis.place edge.1 < axis.place edge.2 := by
  fun_induction pairUp axis.line points with
  | case1 p q rest hline ih =>
    intro edge hedge
    rcases List.mem_cons.mp hedge with rfl | hedge
    · have hpq := List.rel_of_pairwise_cons hsorted (List.mem_cons_self (a := q) (l := rest))
      simp only [Axis.Orders] at hpq ⊢
      omega
    · exact ih hsorted.of_cons.of_cons edge hedge
  | case2 p q rest hline ih => exact ih hsorted.of_cons.of_cons
  | case3 => simp

theorem pairUp_over (hsorted : points.Pairwise axis.Orders) (c t : Int) :
    (pairUp axis.line points).Pairwise fun edge edge' =>
      ¬(axis.Over c t edge ∧ axis.Over c t edge') := by
  fun_induction pairUp axis.line points with
  | case1 p q rest hline ih =>
    refine List.Pairwise.cons ?_ (ih hsorted.of_cons.of_cons)
    intro edge hedge
    have hq := List.rel_of_pairwise_cons hsorted.of_cons (pairUp_subset edge hedge).1
    simp only [Axis.Orders] at hq
    simp only [Axis.Over]
    omega
  | case2 p q rest hline ih => exact ih hsorted.of_cons.of_cons
  | case3 => exact List.Pairwise.nil

end Pairs

def Axis.sorted : Axis → List Point → List Point
  | .vertical, vertices => vertices
  | .horizontal, vertices => vertices.mergeSort Point.byRow

theorem along_ofVertices (axis : Axis) (vertices : List Point) :
    (Edges.ofVertices vertices).along axis = .ofEdges (pairUp axis.line (axis.sorted vertices)) := by
  cases axis <;> rfl

theorem evenLines_sorted (axis : Axis) (boxes : List Box) :
    EvenLines axis.line (axis.sorted (oddCorners boxes)) := by
  cases axis with
  | vertical => exact evenLines_columns boxes
  | horizontal => exact evenLines_rows boxes

theorem orders_sorted (axis : Axis) (boxes : List Box) :
    (axis.sorted (oddCorners boxes)).Pairwise axis.Orders := by
  cases axis with
  | vertical => exact oddCorners_increasing boxes
  | horizontal =>
    have hsorted := List.pairwise_mergeSort Point.byRow_trans Point.byRow_total (oddCorners boxes)
    have hnodup := (evenLines_rows boxes).nodup
    refine (hsorted.and hnodup).imp ?_
    intro p q hpq
    obtain ⟨hle, hne⟩ := hpq
    rw [Point.byRow_iff] at hle
    simp only [Axis.Orders, Axis.line, Axis.place]
    by_cases hx : p.x = q.x
    · have hy : p.y ≠ q.y := fun hy => hne (by cases p; cases q; simp_all)
      omega
    · omega

theorem eq_of_over {boxes : List Box} {axis : Axis} {c t : Int} {p q p' q' : Point}
    (hpq : ((Edges.ofVertices (oddCorners boxes)).along axis)[p]? = some q)
    (hpq' : ((Edges.ofVertices (oddCorners boxes)).along axis)[p']? = some q')
    (hover : axis.Over c t (p, q)) (hover' : axis.Over c t (p', q')) : p = p' := by
  have hlines := evenLines_sorted axis boxes
  have hsorted := orders_sorted axis boxes
  have hnodup : (ends (pairUp axis.line (axis.sorted (oddCorners boxes)))).Nodup := by
    rw [ends_pairUp hlines]
    exact hlines.nodup
  -- An edge over the place begins before it ends, so it was made in this direction.
  have hmade : ∀ a b : Point, ((Edges.ofVertices (oddCorners boxes)).along axis)[a]? = some b →
      axis.Over c t (a, b) → (a, b) ∈ pairUp axis.line (axis.sorted (oddCorners boxes)) := by
    intro a b hab hover
    rw [along_ofVertices, getElem?_ofEdges hnodup] at hab
    rcases hab with hab | hba
    · exact hab
    · have hlt := pairUp_onwards hsorted (b, a) hba
      simp only [Axis.Over] at hover hlt
      omega
  by_cases heq : ((p, q) : Point × Point) = (p', q')
  · exact congrArg Prod.fst heq
  · have happart := pairUp_over hsorted c t
    have hsymm : Std.Symm fun edge edge' => ¬(axis.Over c t edge ∧ axis.Over c t edge') :=
      ⟨fun _ _ hnot hboth => hnot hboth.symm⟩
    exact absurd ⟨hover, hover'⟩
      (happart.forall (hmade p q hpq hover) (hmade p' q' hpq' hover') heq)

/-! ### Points up to a place of a line -/

/-- The points of the line `c` up to place `t`. -/
def Axis.upTo (axis : Axis) (c t : Int) (p : Point) : Bool :=
  decide (axis.line p = c ∧ axis.place p ≤ t)

/-- The point begins an edge that goes over place `t` of the line `c`. -/
def Edges.beginsOver (e : Edges) (axis : Axis) (c t : Int) (p : Point) : Bool :=
  match (e.along axis)[p]? with
  | some q => decide (axis.Over c t (p, q))
  | none => false

theorem upTo_ends {e : Edges} {vertices : Point → Prop} (hsound : e.Sound vertices) {axis : Axis}
    {p q : Point} (hpq : (e.along axis)[p]? = some q) (c t : Int) :
    ((if axis.upTo c t p = true then 1 else 0) + if axis.upTo c t q = true then 1 else 0) % 2 =
      ((if e.beginsOver axis c t p = true then 1 else 0) +
        if e.beginsOver axis c t q = true then 1 else 0) % 2 := by
  have hline := (hsound axis).same_line p q hpq
  have hqp := (hsound axis).symm p q hpq
  simp only [Axis.upTo, Edges.beginsOver, hpq, hqp, Axis.Over, decide_eq_true_eq, ← hline]
  by_cases hc : axis.line p = c <;> by_cases hp : axis.place p ≤ t <;>
    by_cases hq : axis.place q ≤ t <;> simp [hc, hp, hq]

/-- The points that the edges ahead of a walk along one axis take up. -/
def pointsAlong (axis turn : Axis) (start current : Point) (met : List Point) : List Point :=
  (if turn = axis then current :: met else met) ++ if axis = .horizontal then [start] else []

theorem Leads.upTo {e : Edges} {vertices : Point → Prop} (hsound : e.Sound vertices)
    {start : Point} (axis : Axis) (c t : Int) {turn : Axis} {current : Point} {met : List Point}
    (h : Leads e start turn current met) :
    (pointsAlong axis turn start current met).countP (axis.upTo c t) % 2 =
      (pointsAlong axis turn start current met).countP (e.beginsOver axis c t) % 2 := by
  induction met generalizing turn current with
  | nil =>
    obtain ⟨rfl, hclose⟩ := h
    cases axis with
    | vertical => simp [pointsAlong]
    | horizontal =>
      have hends := upTo_ends hsound hclose c t
      simp only [pointsAlong, if_true, List.cons_append, List.nil_append, List.countP_cons,
        List.countP_nil] at hends ⊢
      omega
  | cons next rest ih =>
    obtain ⟨hnext, hleads⟩ := h
    have hrest := ih hleads
    by_cases hturn : turn = axis
    · subst hturn
      have hends := upTo_ends hsound hnext c t
      have hne : turn.turn ≠ turn := turn.turn_ne
      simp only [pointsAlong, if_true, hne, if_false, List.cons_append, List.countP_cons]
        at hrest ⊢
      omega
    · have heq : turn.turn = axis := Axis.turn_of_ne hturn
      simpa only [pointsAlong, hturn, heq, if_true, if_false] using hrest

theorem Outlines.upTo {e : Edges} {vertices : Point → Prop} (hsound : e.Sound vertices)
    {polygon : Polygon} (h : Outlines e polygon) (axis : Axis) (c t : Int) :
    polygon.countP (axis.upTo c t) % 2 = polygon.countP (e.beginsOver axis c t) % 2 := by
  obtain ⟨start, met, rfl, hleads⟩ := h
  have hwalk := hleads.upTo hsound axis c t
  cases axis with
  | vertical => simpa [pointsAlong] using hwalk
  | horizontal =>
    simp only [pointsAlong, reduceCtorEq, if_false, if_true, List.countP_append, List.countP_cons,
      List.countP_nil] at hwalk ⊢
    omega

/-! ### Polygons with an odd number of points -/

def oddIn (keep : Point → Bool) (polygon : Polygon) : Bool := decide (polygon.countP keep % 2 = 1)

theorem countP_oddIn_parity (keep : Point → Bool) (polygons : List Polygon) :
    polygons.countP (oddIn keep) % 2 = polygons.flatten.countP keep % 2 := by
  induction polygons with
  | nil => rfl
  | cons polygon rest ih =>
    simp only [List.countP_cons, oddIn, List.flatten_cons, List.countP_append, decide_eq_true_eq]
      at ih ⊢
    split <;> omega

theorem countP_oddIn_le (keep : Point → Bool) (polygons : List Polygon) :
    polygons.countP (oddIn keep) ≤ polygons.flatten.countP keep := by
  induction polygons with
  | nil => exact Nat.le_refl _
  | cons polygon rest ih =>
    simp only [List.countP_cons, oddIn, List.flatten_cons, List.countP_append, decide_eq_true_eq]
      at ih ⊢
    split <;> omega

theorem countP_oddIn_add {keep keep₁ keep₂ : Point → Bool}
    (hadd : ∀ points : List Point, points.countP keep = points.countP keep₁ + points.countP keep₂)
    (polygons : List Polygon) :
    polygons.countP (oddIn keep) ≤ polygons.countP (oddIn keep₁) + polygons.countP (oddIn keep₂) ∧
      polygons.countP (oddIn keep₁) ≤
        polygons.countP (oddIn keep) + polygons.countP (oddIn keep₂) := by
  induction polygons with
  | nil => exact ⟨Nat.le_refl _, Nat.le_refl _⟩
  | cons polygon rest ih =>
    simp only [List.countP_cons, oddIn, hadd polygon, decide_eq_true_eq] at ih ⊢
    split <;> split <;> split <;> omega

theorem countP_le_one {keep : Point → Bool} {points : List Point} (hnodup : points.Nodup)
    (honly : ∀ p q, keep p = true → keep q = true → p = q) : points.countP keep ≤ 1 := by
  induction points with
  | nil => exact Nat.zero_le _
  | cons p rest ih =>
    obtain ⟨hp, hrest⟩ := List.nodup_cons.mp hnodup
    rw [List.countP_cons]
    by_cases hkeep : keep p = true
    · have hnone : rest.countP keep = 0 := by
        apply List.countP_eq_zero.mpr
        intro q hq hkeepq
        exact hp (honly p q hkeep hkeepq ▸ hq)
      have hone : (if keep p = true then 1 else 0) = 1 := if_pos hkeep
      omega
    · rw [if_neg hkeep]
      exact ih hrest

theorem countP_beginsOver_le {points : List Point} (hnodup : points.Nodup) (boxes : List Box)
    (axis : Axis) (c t : Int) :
    points.countP ((Edges.ofVertices (oddCorners boxes)).beginsOver axis c t) ≤ 1 := by
  apply countP_le_one hnodup
  intro p p' hp hp'
  simp only [Edges.beginsOver] at hp hp'
  split at hp
  · next q hpq =>
    split at hp'
    · next q' hpq' => exact eq_of_over hpq hpq' (of_decide_eq_true hp) (of_decide_eq_true hp')
    · cases hp'
  · cases hp

theorem countP_oddIn_upTo_le (boxes : List Box) (axis : Axis) (c t : Int) :
    (boundary boxes).countP (oddIn (axis.upTo c t)) ≤ 1 := by
  have hsound := sound_ofVertices boxes
  have hnodup := (flatten_boundary_perm boxes).nodup_iff.mpr (oddCorners_nodup boxes)
  have hsame : (boundary boxes).countP (oddIn (axis.upTo c t)) = (boundary boxes).countP
      (oddIn ((Edges.ofVertices (oddCorners boxes)).beginsOver axis c t)) := by
    apply List.countP_congr
    intro polygon hpolygon
    simp only [oddIn, (outlines_of_mem_boundary hpolygon).upTo hsound axis c t]
  rw [hsame]
  exact Nat.le_trans (countP_oddIn_le _ _) (countP_beginsOver_le hnodup boxes axis c t)

/-! ### Cells side by side -/

/-- How many of the polygons enclose the cell, each taken by itself. -/
def enclosing (i j : Int) (polygons : List Polygon) : Nat :=
  polygons.countP (oddIn (inQuadrant i j))

theorem countP_eq_add {keep keep₁ keep₂ : Point → Bool}
    (hsplit : ∀ p, (if keep p = true then 1 else 0) =
      (if keep₁ p = true then 1 else 0) + if keep₂ p = true then 1 else 0) (points : List Point) :
    points.countP keep = points.countP keep₁ + points.countP keep₂ := by
  induction points with
  | nil => rfl
  | cons p rest ih =>
    have hp := hsplit p
    simp only [List.countP_cons, ih]
    omega

theorem countP_inQuadrant_column (i j : Int) (points : List Point) :
    points.countP (inQuadrant (i + 1) j) =
      points.countP (inQuadrant i j) + points.countP (Axis.vertical.upTo (i + 1) j) := by
  refine countP_eq_add ?_ points
  intro p
  have hupTo : Axis.vertical.upTo (i + 1) j p = decide (p.x = i + 1 ∧ p.y ≤ j) := rfl
  simp only [inQuadrant, hupTo, decide_eq_true_eq]
  split <;> split <;> split <;> omega

theorem countP_inQuadrant_row (i j : Int) (points : List Point) :
    points.countP (inQuadrant i (j + 1)) =
      points.countP (inQuadrant i j) + points.countP (Axis.horizontal.upTo (j + 1) i) := by
  refine countP_eq_add ?_ points
  intro p
  have hupTo : Axis.horizontal.upTo (j + 1) i p = decide (p.y = j + 1 ∧ p.x ≤ i) := rfl
  simp only [inQuadrant, hupTo, decide_eq_true_eq]
  split <;> split <;> split <;> omega

def Beside (i j i' j' : Int) : Prop :=
  j' = j ∧ (i' = i + 1 ∨ i = i' + 1) ∨ i' = i ∧ (j' = j + 1 ∨ j = j' + 1)

/-- From a cell to the next one at most one outline is entered or left. -/
theorem enclosing_le_of_beside (boxes : List Box) {i j i' j' : Int} (h : Beside i j i' j') :
    enclosing i' j' (boundary boxes) ≤ enclosing i j (boundary boxes) + 1 := by
  have hcolumn : ∀ i j, enclosing (i + 1) j (boundary boxes) ≤ enclosing i j (boundary boxes) + 1 ∧
      enclosing i j (boundary boxes) ≤ enclosing (i + 1) j (boundary boxes) + 1 := by
    intro i j
    have hadd := countP_oddIn_add (countP_inQuadrant_column i j) (boundary boxes)
    have hone := countP_oddIn_upTo_le boxes .vertical (i + 1) j
    simp only [enclosing]
    omega
  have hrow : ∀ i j, enclosing i (j + 1) (boundary boxes) ≤ enclosing i j (boundary boxes) + 1 ∧
      enclosing i j (boundary boxes) ≤ enclosing i (j + 1) (boundary boxes) + 1 := by
    intro i j
    have hadd := countP_oddIn_add (countP_inQuadrant_row i j) (boundary boxes)
    have hone := countP_oddIn_upTo_le boxes .horizontal (j + 1) i
    simp only [enclosing]
    omega
  rcases h with ⟨rfl, rfl | rfl⟩ | ⟨rfl, rfl | rfl⟩
  · exact (hcolumn i j').1
  · exact (hcolumn i' j').2
  · exact (hrow i' j).1
  · exact (hrow i' j').2

/-! ### Outside and inside -/

/-- The cells that can be reached from the left of everything without crossing a covered cell. -/
inductive Outside (rects : List Corners) : Int → Int → Prop where
  | left {i j : Int} (hclear : ∀ i' j', i' ≤ i → ¬Covered rects i' j') : Outside rects i j
  | beside {i j i' j' : Int} (h : Outside rects i j) (hbeside : Beside i j i' j')
      (hclear : ¬Covered rects i' j') : Outside rects i' j'

theorem enclosing_boundary_parity (boxes : List Box) (i j : Int) :
    enclosing i j (boundary boxes) % 2 = (oddCorners boxes).countP (inQuadrant i j) % 2 := by
  rw [enclosing, countP_oddIn_parity, (flatten_boundary_perm boxes).countP_eq]

/-- The outlines that enclose a cell are odd in number exactly if the cell is covered. -/
theorem odd_enclosing_iff_covered (rects : List Corners) (i j : Int) :
    enclosing i j (outlines rects) % 2 = 1 ↔ Covered rects i j := by
  rw [outlines, enclosing_boundary_parity, odd_vertices_iff_covered]

theorem enclosing_eq_zero_of_left (boxes : List Box) {i : Int}
    (hleft : ∀ p ∈ oddCorners boxes, i < p.x) (j : Int) : enclosing i j (boundary boxes) = 0 := by
  have hnone : (boundary boxes).flatten.countP (inQuadrant i j) = 0 := by
    apply List.countP_eq_zero.mpr
    intro p hp
    have hx := hleft p ((flatten_boundary_perm boxes).mem_iff.mp hp)
    simp only [inQuadrant, decide_eq_true_eq]
    omega
  have hle := countP_oddIn_le (inQuadrant i j) (boundary boxes)
  rw [enclosing]
  omega

theorem lt_of_mem_vertices {rects : List Corners} {i : Int}
    (hclear : ∀ i' j', i' ≤ i → ¬Covered rects i' j') :
    ∀ p ∈ oddCorners (disjointBoxes rects), i < p.x := by
  intro p hp
  by_cases hx : p.x ≤ i
  · -- None of the four cells around the vertex would be covered.
    have heven : ∀ i' j', i' ≤ i →
        (oddCorners (disjointBoxes rects)).countP (inQuadrant i' j') % 2 = 0 := by
      intro i' j' hi
      have hodd := hclear i' j' hi
      rw [← odd_vertices_iff_covered] at hodd
      omega
    have h₁ := heven p.x p.y hx
    have h₂ := heven (p.x - 1) (p.y - 1) (by omega)
    have h₃ := heven (p.x - 1) p.y (by omega)
    have h₄ := heven p.x (p.y - 1) hx
    have hcount := countP_quadrants (oddCorners (disjointBoxes rects)) p
    rw [mem_iff_odd_countP (oddCorners_nodup _)] at hp
    omega
  · omega

theorem Outside.enclosing_eq_zero {rects : List Corners} {i j : Int} (h : Outside rects i j) :
    enclosing i j (outlines rects) = 0 := by
  induction h with
  | left hclear => exact enclosing_eq_zero_of_left _ (lt_of_mem_vertices hclear) _
  | beside _ hbeside hclear ih =>
    have hle := enclosing_le_of_beside (disjointBoxes rects) hbeside
    rw [← odd_enclosing_iff_covered] at hclear
    simp only [outlines] at ih hclear ⊢
    omega

theorem exists_lt_all (points : List Point) : ∃ i, ∀ p ∈ points, i < p.x := by
  induction points with
  | nil => exact ⟨0, by simp⟩
  | cons p rest ih =>
    obtain ⟨i, hi⟩ := ih
    refine ⟨min i (p.x - 1), ?_⟩
    intro q hq
    rcases List.mem_cons.mp hq with rfl | hq
    · omega
    · have hlt := hi q hq
      omega

/-- Where some cell lies inside several outlines, some cell lies inside exactly two. -/
theorem enclosing_le_one {boxes : List Box} (hne : ∀ i j, enclosing i j (boundary boxes) ≠ 2)
    (i j : Int) : enclosing i j (boundary boxes) ≤ 1 := by
  obtain ⟨left, hleft⟩ := exists_lt_all (oddCorners boxes)
  -- Along the row the number starts at zero and grows by one at most, so it cannot pass over two.
  have hrow : ∀ n : Nat, enclosing (left + n) j (boundary boxes) ≤ 1 := by
    intro n
    induction n with
    | zero =>
      have hzero := enclosing_eq_zero_of_left boxes hleft j
      simp only [Int.natCast_zero, Int.add_zero]
      omega
    | succ n ih =>
      have hbeside : Beside (left + n) j (left + (n + 1 : Nat)) j :=
        Or.inl ⟨rfl, Or.inl (by omega)⟩
      have hle := enclosing_le_of_beside boxes hbeside
      have hne := hne (left + (n + 1 : Nat)) j
      omega
  by_cases hi : i ≤ left
  · have hfar : ∀ p ∈ oddCorners boxes, i < p.x := by
      intro p hp
      have hlt := hleft p hp
      omega
    rw [enclosing_eq_zero_of_left boxes hfar j]
    exact Nat.zero_le 1
  · have hn := hrow (i - left).toNat
    rwa [show left + ((i - left).toNat : Int) = i by omega] at hn

end Redraw.Outline
