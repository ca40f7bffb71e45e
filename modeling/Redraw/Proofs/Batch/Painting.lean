import Mathlib.Data.List.Permutation
import Redraw.Batch
import Redraw.Proofs.Outline.Enclosure

/-!
# What a batch paints

A cell is covered exactly if an odd number of the shapes paints it. But a hole is an outline as well, and
it is filled like any other.
-/

namespace Redraw.Batch

open Outline

/-! ### Shapes on the grid -/

/-- What an outline is drawn as, in units of the grid. -/
inductive Figure where
  | rect (least greatest : Point)
  | polygon (outline : Polygon)

namespace Figure

def ofOutline (outline : Polygon) : Figure :=
  if outline.length = 4 then .rect (leastPoint outline) (greatestPoint outline)
  else .polygon outline

def geometry (grid : Nat) : Figure → Geometry
  | .rect least greatest =>
    let (x1, y1) := unquantize grid least
    let (x2, y2) := unquantize grid greatest
    .rect ⟨x1, y1, x2 - x1, y2 - y1⟩
  | .polygon outline => .polygon (outline.map (unquantize grid)) true

def paints (i j : Int) : Figure → Bool
  | .rect least greatest =>
    decide ((least.x ≤ i ∧ i < greatest.x) ∧ least.y ≤ j ∧ j < greatest.y)
  | .polygon outline => decide (passings i j [outline] % 2 = 1)

end Figure

def figures (rects : List Corners) : List Figure := (outlines rects).map Figure.ofOutline

/-- How many of the shapes of a batch paint the cell. -/
def paintings (i j : Int) (rects : List Corners) : Nat := (figures rects).countP (Figure.paints i j)

def Painted (rects : List Corners) (i j : Int) : Prop :=
  ∃ figure ∈ figures rects, figure.paints i j = true

theorem geometry_ofOutline (grid : Nat) (outline : Polygon) :
    (Figure.ofOutline outline).geometry grid = shapeOf grid outline := by
  unfold Figure.ofOutline shapeOf
  split <;> rfl

theorem shapes_eq_map_figures (grid : Nat) (rects : List Corners) :
    shapes grid rects = (figures rects).map (Figure.geometry grid) := by
  rw [shapes, figures, List.map_map]
  apply List.map_congr_left
  intro outline _
  exact (geometry_ofOutline grid outline).symm

theorem painted_iff_pos (rects : List Corners) (i j : Int) :
    Painted rects i j ↔ 0 < paintings i j rects := List.countP_pos_iff.symm

/-! ### One figure -/

theorem foldl_extreme {before : Point → Point → Bool}
    (hantisymm : ∀ p q, before p q = true → before q p = true → p = q) {p first : Point}
    {rest : List Point} (hmem : p ∈ first :: rest)
    (hextreme : ∀ q ∈ first :: rest, before p q = true) :
    rest.foldl (fun found q => if before q found = true then q else found) first = p := by
  induction rest generalizing first with
  | nil => exact (List.mem_singleton.mp hmem).symm
  | cons q rest ih =>
    rw [List.foldl_cons]
    have hfirst := hextreme first List.mem_cons_self
    have hq := hextreme q (List.mem_cons_of_mem _ List.mem_cons_self)
    have hrest : ∀ r ∈ rest, before p r = true := fun r hr =>
      hextreme r (List.mem_cons_of_mem _ (List.mem_cons_of_mem _ hr))
    by_cases hbefore : before q first = true
    · rw [if_pos hbefore]
      apply ih
      · rcases List.mem_cons.mp hmem with rfl | hmem
        · exact hantisymm _ _ hbefore hq ▸ List.mem_cons_self
        · exact hmem
      · exact List.forall_mem_cons.mpr ⟨hq, hrest⟩
    · rw [if_neg hbefore]
      apply ih
      · rcases List.mem_cons.mp hmem with rfl | hmem
        · exact List.mem_cons_self
        rcases List.mem_cons.mp hmem with rfl | hmem
        · exact absurd hfirst hbefore
        · exact List.mem_cons_of_mem _ hmem
      · exact List.forall_mem_cons.mpr ⟨hfirst, hrest⟩

theorem leastPoint_eq {p : Point} {points : List Point} (hmem : p ∈ points)
    (hleast : ∀ q ∈ points, p.byColumn q = true) : leastPoint points = p := by
  cases points with
  | nil => cases hmem
  | cons first rest => exact foldl_extreme Point.byColumn_antisymm hmem hleast

theorem greatestPoint_eq {p : Point} {points : List Point} (hmem : p ∈ points)
    (hgreatest : ∀ q ∈ points, q.byColumn p = true) : greatestPoint points = p := by
  cases points with
  | nil => cases hmem
  | cons first rest =>
    have hantisymm : ∀ p q : Point, q.byColumn p = true → p.byColumn q = true → p = q :=
      fun p q hqp hpq => Point.byColumn_antisymm p q hpq hqp
    exact @foldl_extreme (fun p q => q.byColumn p) hantisymm p first rest hmem hgreatest

/-- The four corners of a rectangle, in the order in which an outline meets them. -/
def around (x y x' y' : Int) : Polygon := [⟨x, y⟩, ⟨x, y'⟩, ⟨x', y'⟩, ⟨x', y⟩]

theorem leastPoint_around (x y x' y' : Int) :
    leastPoint (around x y x' y') = ⟨min x x', min y y'⟩ := by
  apply leastPoint_eq
  · simp only [around, List.mem_cons, List.not_mem_nil, or_false, Point.mk.injEq]
    omega
  · simp only [around, List.forall_mem_cons, List.not_mem_nil, false_implies, implies_true, and_true,
      Point.byColumn_iff]
    omega

theorem greatestPoint_around (x y x' y' : Int) :
    greatestPoint (around x y x' y') = ⟨max x x', max y y'⟩ := by
  apply greatestPoint_eq
  · simp only [around, List.mem_cons, List.not_mem_nil, or_false, Point.mk.injEq]
    omega
  · simp only [around, List.forall_mem_cons, List.not_mem_nil, false_implies, implies_true, and_true,
      Point.byColumn_iff]
    omega

theorem paints_around (x y x' y' i j : Int) :
    (Figure.ofOutline (around x y x' y')).paints i j =
      oddIn (inQuadrant i j) (around x y x' y') := by
  have hrect : Figure.ofOutline (around x y x' y') =
      .rect ⟨min x x', min y y'⟩ ⟨max x x', max y y'⟩ := by
    rw [← leastPoint_around, ← greatestPoint_around]
    rfl
  have hmin : ∀ a b t : Int, min a b ≤ t ↔ a ≤ t ∨ b ≤ t := by omega
  have hmax : ∀ a b t : Int, t < max a b ↔ ¬a ≤ t ∨ ¬b ≤ t := by omega
  rw [hrect]
  simp only [Figure.paints, oddIn, decide_eq_decide, around, List.countP_cons, List.countP_nil,
    inQuadrant, decide_eq_true_eq, hmin, hmax]
  by_cases hx : x ≤ i <;> by_cases hx' : x' ≤ i <;> by_cases hy : y ≤ j <;>
    by_cases hy' : y' ≤ j <;> simp [hx, hx', hy, hy']

section OfOutline

variable {e : Edges} {vertices : Point → Prop}

theorem eq_around {polygon : Polygon} (hsound : e.Sound vertices) (h : Outlines e polygon)
    (hlength : polygon.length = 4) : ∃ x y x' y', polygon = around x y x' y' := by
  obtain ⟨start, met, rfl, hleads⟩ := h
  match met, hlength with
  | [a, b, c], _ =>
    obtain ⟨hsa, hab, hbc, _, hcs⟩ := hleads
    have hx : start.x = a.x := (hsound .vertical).same_line _ _ hsa
    have hy : a.y = b.y := (hsound .horizontal).same_line _ _ hab
    have hx' : b.x = c.x := (hsound .vertical).same_line _ _ hbc
    have hy' : c.y = start.y := (hsound .horizontal).same_line _ _ hcs
    refine ⟨start.x, start.y, b.x, b.y, ?_⟩
    cases start
    cases a
    cases b
    cases c
    simp only at hx hy hx' hy'
    simp only [around, hx, hy, hx', hy']

theorem paints_ofOutline {polygon : Polygon} (hsound : e.Sound vertices) (h : Outlines e polygon)
    (i j : Int) : (Figure.ofOutline polygon).paints i j = oddIn (inQuadrant i j) polygon := by
  by_cases hlength : polygon.length = 4
  · obtain ⟨x, y, x', y', rfl⟩ := eq_around hsound h hlength
    exact paints_around x y x' y' i j
  · obtain ⟨start, met, rfl, hleads⟩ := h
    have hpassings := hleads.passings hsound i j
    rw [Figure.ofOutline, if_neg hlength]
    simp only [Figure.paints, oddIn, passings, List.flatMap_cons, List.flatMap_nil, List.append_nil,
      sides, hpassings, pointsAhead]

end OfOutline

/-! ### All figures -/

theorem paintings_eq_enclosing (rects : List Corners) (i j : Int) :
    paintings i j rects = enclosing i j (outlines rects) := by
  have hsound := sound_ofVertices (disjointBoxes rects)
  have houtlines := (outlinesThrough_share _ hsound fun _ hp => hp).1
  rw [paintings, figures, List.countP_map, enclosing]
  apply List.countP_congr
  intro polygon hpolygon
  rw [Function.comp_apply, paints_ofOutline hsound (houtlines polygon hpolygon)]

/-- A batch is drawn as its figures, which paint every covered cell and no cell outside; a cell is
painted an odd number of times exactly if it is covered. The painted area is the covered area exactly
if no cell is painted twice. -/
theorem figures_paint (grid : Nat) (rects : List Corners) :
    shapes grid rects = (figures rects).map (Figure.geometry grid) ∧
      (∀ i j, paintings i j rects % 2 = 1 ↔ Covered rects i j) ∧
      (∀ i j, Covered rects i j → Painted rects i j) ∧
      (∀ i j, Outside rects i j → ¬Painted rects i j) ∧
      ((∀ i j, Painted rects i j ↔ Covered rects i j) ↔ ∀ i j, paintings i j rects ≤ 1) := by
  have hodd : ∀ i j, paintings i j rects % 2 = 1 ↔ Covered rects i j := by
    intro i j
    rw [paintings_eq_enclosing, odd_enclosing_iff_covered]
  have hcovered : ∀ i j, Covered rects i j → Painted rects i j := by
    intro i j hcover
    rw [← hodd] at hcover
    rw [painted_iff_pos]
    omega
  refine ⟨shapes_eq_map_figures grid rects, hodd, hcovered, ?_, ?_⟩
  · intro i j houtside
    rw [painted_iff_pos, paintings_eq_enclosing, houtside.enclosing_eq_zero]
    exact Nat.lt_irrefl 0
  constructor
  · -- Painted exactly once or not at all: two paintings would show where nothing is covered.
    intro hexact i j
    rw [paintings_eq_enclosing]
    apply enclosing_le_one
    intro i j htwo
    have htwo : paintings i j rects = 2 := (paintings_eq_enclosing rects i j).trans htwo
    have hpainted : Painted rects i j := by
      rw [painted_iff_pos]
      omega
    have hcover := (hexact i j).mp hpainted
    rw [← hodd] at hcover
    omega
  · intro honce i j
    refine ⟨?_, hcovered i j⟩
    intro hpainted
    have hone := honce i j
    rw [painted_iff_pos] at hpainted
    rw [← hodd]
    omega

/-- Four rectangles around a cell that none of them covers. -/
def ring : List Corners :=
  [⟨⟨0, 0⟩, ⟨3, 1⟩⟩, ⟨⟨0, 1⟩, ⟨1, 2⟩⟩, ⟨⟨2, 1⟩, ⟨3, 2⟩⟩, ⟨⟨0, 2⟩, ⟨3, 3⟩⟩]

theorem figures_paint_ring :
    Covered ring 0 0 ∧ Painted ring 0 0 ∧ Outside ring (-1) 1 ∧ ¬Painted ring (-1) 1 := by
  obtain ⟨_, _, hcovered, houtside, _⟩ := figures_paint 1 ring
  have hcover : Covered ring 0 0 := by decide
  have hleft : Outside ring (-1) 1 := by
    refine .left ?_
    intro i j hi
    simp only [Covered, ring, List.mem_cons, List.not_mem_nil, or_false, exists_eq_or_imp,
      exists_eq_left, Corners.Covers]
    omega
  exact ⟨hcover, hcovered 0 0 hcover, hleft, houtside (-1) 1 hleft⟩

/-- The hole of the ring is an outline of its own and is filled. -/
theorem hole_painted : Painted ring 1 1 ∧ ¬Covered ring 1 1 := by
  have houtlines : outlines ring =
      [around 0 0 3 3, around 1 1 2 2] := by cbv
  refine ⟨⟨_, List.mem_map_of_mem ?_, paints_around 1 1 2 2 1 1⟩, by decide⟩
  rw [houtlines]
  exact List.mem_cons_of_mem _ List.mem_cons_self

end Redraw.Batch
