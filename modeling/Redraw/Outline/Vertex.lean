import Redraw.Outline.Box

/-!
# Vertices of a region

The corner points of disjoint boxes that occur an odd number of times. Where an even number of boxes
meet in a corner, the boundary of their union does not turn there.
-/

namespace Redraw.Outline

/-- Drops equal neighbours in pairs, so that of each run of equal points one is left if the run has an
odd length and none otherwise. -/
def cancelPairs : List Point → List Point
  | [] => []
  | [p] => [p]
  | p :: q :: rest => if p = q then cancelPairs rest else p :: cancelPairs (q :: rest)

/-- The points that are corners of an odd number of boxes, by column. -/
def oddCorners (boxes : List Box) : List Point :=
  cancelPairs ((boxes.flatMap Box.corners).mergeSort Point.byColumn)

theorem cancelPairs_subset (points : List Point) : ∀ p ∈ cancelPairs points, p ∈ points := by
  fun_induction cancelPairs points with
  | case1 => simp
  | case2 p => simp
  | case3 p rest ih =>
    intro q hq
    exact List.mem_cons_of_mem _ (List.mem_cons_of_mem _ (ih q hq))
  | case4 p q rest hne ih =>
    intro r hr
    rcases List.mem_cons.mp hr with h | h
    · exact h ▸ List.mem_cons_self
    · exact List.mem_cons_of_mem _ (ih r h)

/-- Cancelling keeps the parity of how many points have any property. -/
theorem countP_cancelPairs (keep : Point → Bool) (points : List Point) :
    (cancelPairs points).countP keep % 2 = points.countP keep % 2 := by
  fun_induction cancelPairs points with
  | case1 => rfl
  | case2 q => rfl
  | case3 q rest ih =>
    simp only [List.countP_cons]
    omega
  | case4 q r rest hne ih =>
    simp only [List.countP_cons] at ih ⊢
    omega

theorem countP_oddCorners (keep : Point → Bool) (boxes : List Box) :
    (oddCorners boxes).countP keep % 2 = (boxes.flatMap Box.corners).countP keep % 2 := by
  rw [oddCorners, countP_cancelPairs, (List.mergeSort_perm _ _).countP_eq]

end Redraw.Outline
