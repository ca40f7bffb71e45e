/-!
# Boxes on the integer grid

Rectangles along the axes with integer coordinates, as two opposite corners in any order and as boxes
with their four sides, and the unit cells that they cover.
-/

namespace Redraw.Outline

structure Point where
  x : Int
  y : Int
  deriving DecidableEq, Repr, Inhabited

namespace Point

/-- By column, and downwards within a column. -/
def byColumn (p q : Point) : Bool := p.x < q.x || p.x == q.x && p.y ≤ q.y

/-- By row, and to the right within a row. -/
def byRow (p q : Point) : Bool := p.y < q.y || p.y == q.y && p.x ≤ q.x

theorem byColumn_iff (p q : Point) :
    p.byColumn q = true ↔ p.x < q.x ∨ p.x = q.x ∧ p.y ≤ q.y := by
  simp [byColumn]

theorem byRow_iff (p q : Point) :
    p.byRow q = true ↔ p.y < q.y ∨ p.y = q.y ∧ p.x ≤ q.x := by
  simp [byRow]

theorem byColumn_total (p q : Point) : (p.byColumn q || q.byColumn p) = true := by
  simp only [Bool.or_eq_true, byColumn_iff]
  omega

theorem byColumn_trans (p q r : Point) (hpq : p.byColumn q = true) (hqr : q.byColumn r = true) :
    p.byColumn r = true := by
  simp only [byColumn_iff] at *
  omega

theorem byColumn_antisymm (p q : Point) (hpq : p.byColumn q = true) (hqp : q.byColumn p = true) :
    p = q := by
  simp only [byColumn_iff] at *
  cases p
  cases q
  simp only [mk.injEq] at *
  omega

theorem byRow_total (p q : Point) : (p.byRow q || q.byRow p) = true := by
  simp only [Bool.or_eq_true, byRow_iff]
  omega

theorem byRow_trans (p q r : Point) (hpq : p.byRow q = true) (hqr : q.byRow r = true) :
    p.byRow r = true := by
  simp only [byRow_iff] at *
  omega

end Point

/-- A rectangle by two opposite corners, in any order. -/
structure Corners where
  first : Point
  second : Point
  deriving DecidableEq, Repr, Inhabited

/-- A rectangle by its sides; y grows downwards. -/
structure Box where
  left : Int
  top : Int
  right : Int
  bottom : Int
  deriving DecidableEq, Repr, Inhabited

/-! ### Covered cells -/

/-- The unit cell with upper left corner `(i, j)` lies inside the rectangle. -/
def Corners.Covers (c : Corners) (i j : Int) : Prop :=
  min c.first.x c.second.x ≤ i ∧ i < max c.first.x c.second.x ∧
    min c.first.y c.second.y ≤ j ∧ j < max c.first.y c.second.y

instance (c : Corners) (i j : Int) : Decidable (c.Covers i j) :=
  inferInstanceAs (Decidable (_ ∧ _))

namespace Box

/-- The unit cell with upper left corner `(i, j)` lies inside the box. -/
def Covers (b : Box) (i j : Int) : Prop := b.left ≤ i ∧ i < b.right ∧ b.top ≤ j ∧ j < b.bottom

instance (b : Box) (i j : Int) : Decidable (b.Covers i j) := inferInstanceAs (Decidable (_ ∧ _))

/-- A box with an area. -/
def Proper (b : Box) : Prop := b.left < b.right ∧ b.top < b.bottom

instance (b : Box) : Decidable b.Proper := inferInstanceAs (Decidable (_ ∧ _))

def corners (b : Box) : List Point :=
  [⟨b.left, b.top⟩, ⟨b.right, b.top⟩, ⟨b.right, b.bottom⟩, ⟨b.left, b.bottom⟩]

end Box

def Corners.box (c : Corners) : Box where
  left := min c.first.x c.second.x
  top := min c.first.y c.second.y
  right := max c.first.x c.second.x
  bottom := max c.first.y c.second.y

theorem Box.proper_of_covers {b : Box} {i j : Int} (h : b.Covers i j) : b.Proper := by
  simp only [Covers, Proper] at *
  omega

def properBoxes (rects : List Corners) : List Box :=
  (rects.map Corners.box).filter fun b => decide b.Proper

theorem proper_of_mem_properBoxes {rects : List Corners} {b : Box} (h : b ∈ properBoxes rects) :
    b.Proper := by
  simp only [properBoxes, List.mem_filter, decide_eq_true_eq] at h
  exact h.2

/-- Leaving out what has no area changes no covered cell. -/
theorem covers_properBoxes (rects : List Corners) (i j : Int) :
    (∃ b ∈ properBoxes rects, b.Covers i j) ↔ ∃ c ∈ rects, c.Covers i j := by
  simp only [properBoxes, List.mem_filter, List.mem_map, decide_eq_true_eq]
  constructor
  · rintro ⟨b, ⟨⟨c, hc, rfl⟩, _⟩, hb⟩
    exact ⟨c, hc, hb⟩
  · rintro ⟨c, hc, h⟩
    exact ⟨c.box, ⟨⟨c, hc, rfl⟩, Box.proper_of_covers h⟩, h⟩

end Redraw.Outline
