import Redraw.Outline.Box

/-!
# Overlap test

A sweep from left to right over the boxes in order of their left sides. It keeps the boxes that the
sweep line crosses, in order of their tops. As long as no two boxes overlap, the crossed ones occupy
disjoint ranges of y, so a new box has to be compared with one neighbour only.
-/

namespace Redraw.Outline

/-- Puts a box among the crossed ones, which stay in order of their tops. -/
def insertByTop (b : Box) : List Box → List Box
  | [] => [b]
  | c :: rest => if c.top ≤ b.top then c :: insertByTop b rest else b :: c :: rest

/-- Of the crossed boxes that begin above `bottom`, the lowest one. -/
def lowestAbove? (bottom : Int) (crossed : List Box) : Option Box :=
  (crossed.takeWhile fun c => decide (c.top < bottom)).getLast?

/-- The new box overlaps the lowest of the crossed boxes that begin above its bottom. -/
def meetsNeighbour (b : Box) (crossed : List Box) : Bool :=
  match lowestAbove? b.bottom crossed with
  | some c => b.top < c.bottom
  | none => false

/-- Goes through the boxes in order of their left sides; `crossed` holds those that began before. -/
def sweepOverlap : List Box → List Box → Bool
  | [], _ => false
  | b :: rest, crossed =>
    let crossed := crossed.filter fun c => decide (b.left < c.right)
    if meetsNeighbour b crossed then true else sweepOverlap rest (insertByTop b crossed)

/-- Whether two of the boxes share a cell. -/
def hasOverlap (boxes : List Box) : Bool :=
  sweepOverlap (boxes.mergeSort fun b c => decide (b.left ≤ c.left)) []

theorem mem_insertByTop (b c : Box) (crossed : List Box) :
    c ∈ insertByTop b crossed ↔ c = b ∨ c ∈ crossed := by
  induction crossed with
  | nil => simp [insertByTop]
  | cons d rest ih =>
    simp only [insertByTop]
    split
    · simp only [List.mem_cons, ih]
      exact or_left_comm
    · simp only [List.mem_cons]

theorem hasOverlap_nil : hasOverlap [] = false := by
  simp [hasOverlap, sweepOverlap]

end Redraw.Outline
