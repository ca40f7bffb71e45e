import Mathlib.Data.List.Permutation
import Redraw.Proofs.Outline.Sides

namespace Redraw.Outline

/-! ### Corners put in and taken out -/

theorem Point.compare_eq_lt_iff (p q : Point) : compare p q = .lt ↔ p.Precedes q := by
  have hcompare : compare p q = (compare p.x q.x).then (compare p.y q.y) := rfl
  rw [hcompare, Ordering.then_eq_lt, Std.compare_eq_lt, Std.compare_eq_lt,
    Std.LawfulEqCmp.compare_eq_iff_eq]
  exact Iff.rfl

/-- Takes the point out if it is there, and puts it in if it is not. -/
def toggle (points : Std.TreeSet Point) (p : Point) : Std.TreeSet Point :=
  if points.contains p then points.erase p else points.insert p

def toggledCorners (boxes : List Box) : Std.TreeSet Point :=
  (boxes.flatMap Box.corners).foldl toggle ∅

theorem mem_toggle (points : Std.TreeSet Point) (p q : Point) :
    q ∈ toggle points p ↔ if p = q then q ∉ points else q ∈ points := by
  have hcontains : points.contains p = true ↔ p ∈ points := Std.TreeSet.contains_iff_mem
  by_cases hp : p ∈ points
  · rw [toggle, if_pos (hcontains.mpr hp), Std.TreeSet.mem_erase, Ne,
      Std.LawfulEqCmp.compare_eq_iff_eq]
    by_cases hpq : p = q
    · subst hpq
      simp [hp]
    · simp [hpq]
  · rw [toggle, if_neg (mt hcontains.mp hp), Std.TreeSet.mem_insert,
      Std.LawfulEqCmp.compare_eq_iff_eq]
    by_cases hpq : p = q
    · subst hpq
      simp [hp]
    · simp [hpq]

theorem mem_foldl_toggle (corners : List Point) (points : Std.TreeSet Point) (p : Point) :
    p ∈ corners.foldl toggle points ↔ (p ∈ points ↔ corners.count p % 2 = 0) := by
  induction corners generalizing points with
  | nil => simp
  | cons c rest ih =>
    rw [List.foldl_cons, ih, mem_toggle, List.count_cons]
    by_cases hcp : c = p
    · subst hcp
      by_cases hc : c ∈ points <;> simp [hc] <;> omega
    · simp [hcp]

theorem mem_oddCorners_iff (boxes : List Box) (p : Point) :
    p ∈ oddCorners boxes ↔ (boxes.flatMap Box.corners).count p % 2 = 1 := by
  rw [mem_iff_odd_countP (oddCorners_nodup boxes), countP_oddCorners]
  rfl

theorem toList_toggledCorners (boxes : List Box) :
    (toggledCorners boxes).toList = oddCorners boxes := by
  have hsorted : (toggledCorners boxes).toList.Pairwise Point.Precedes := by
    apply Std.TreeSet.ordered_toList.imp
    intro p q hpq
    exact (Point.compare_eq_lt_iff p q).mp hpq
  apply eq_of_increasing hsorted (oddCorners_increasing boxes)
  intro p
  rw [Std.TreeSet.mem_toList, toggledCorners, mem_foldl_toggle, mem_oddCorners_iff]
  simp

/-! ### Vertices and their edges -/

/-- Whatever the boxes, the corners that are left are an even number on each line along either axis. So
none of them is left over when they are taken two by two, line after line: along both axes every vertex, and
nothing else, has an edge, which leads to another vertex on its line, from there back to it, and past no
vertex between the two. -/
theorem oddCorners_matched (boxes : List Box) :
    (toggledCorners boxes).toList = oddCorners boxes ∧
    (∀ c, (oddCorners boxes).countP (fun p => decide (p.x = c)) % 2 = 0 ∧
      (oddCorners boxes).countP (fun p => decide (p.y = c)) % 2 = 0) ∧
    ∀ axis : Axis,
      (axis.sorted (oddCorners boxes)).Pairwise axis.Orders ∧
      ends (pairUp axis.line (axis.sorted (oddCorners boxes))) = axis.sorted (oddCorners boxes) ∧
      (∀ p, p ∈ (Edges.ofVertices (oddCorners boxes)).along axis ↔ p ∈ oddCorners boxes) ∧
      ∀ p q, ((Edges.ofVertices (oddCorners boxes)).along axis)[p]? = some q →
        ((Edges.ofVertices (oddCorners boxes)).along axis)[q]? = some p ∧ p ≠ q ∧
          axis.line p = axis.line q ∧
          ∀ v ∈ oddCorners boxes, axis.line v = axis.line p →
            min (axis.place p) (axis.place q) ≤ axis.place v →
              axis.place v ≤ max (axis.place p) (axis.place q) → v = p ∨ v = q := by
  refine ⟨toList_toggledCorners boxes, ?_, ?_⟩
  · intro c
    exact ⟨oddCorners_even_on_column boxes c, oddCorners_even_on_row boxes c⟩
  · intro axis
    have hsound := sound_ofVertices boxes axis
    have hends := ends_pairUp (evenLines_sorted axis boxes)
    refine ⟨orders_sorted axis boxes, hends, ?_, ?_⟩
    · intro p
      rw [Std.TreeMap.mem_iff_isSome_getElem?, Option.isSome_iff_exists]
      exact (hsound.defined p).symm
    · intro p q hpq
      refine ⟨hsound.symm p q hpq, hsound.ne p q hpq, hsound.same_line p q hpq, ?_⟩
      intro v hv hline hlow hhigh
      exact eq_end_of_between hpq hv hline hlow hhigh

/-- Two squares that overlap and a box without an area: the row at the top holds four vertices, and the
third and the fourth of them are paired. -/
theorem oddCorners_matched_squares :
    let boxes : List Box := [⟨0, 0, 2, 2⟩, ⟨1, 0, 3, 2⟩, ⟨1, 1, 1, 4⟩]
    let edges := Edges.ofVertices (oddCorners boxes)
    oddCorners boxes = [⟨0, 0⟩, ⟨0, 2⟩, ⟨1, 0⟩, ⟨1, 2⟩, ⟨2, 0⟩, ⟨2, 2⟩, ⟨3, 0⟩, ⟨3, 2⟩] ∧
      (edges.along .horizontal)[(⟨2, 0⟩ : Point)]? = some ⟨3, 0⟩ ∧
      (edges.along .horizontal)[(⟨3, 0⟩ : Point)]? = some ⟨2, 0⟩ := by
  intro boxes edges
  have hvertices : oddCorners boxes =
      [⟨0, 0⟩, ⟨0, 2⟩, ⟨1, 0⟩, ⟨1, 2⟩, ⟨2, 0⟩, ⟨2, 2⟩, ⟨3, 0⟩, ⟨3, 2⟩] := by cbv
  have hedge : (edges.along .horizontal)[(⟨2, 0⟩ : Point)]? = some ⟨3, 0⟩ := by cbv
  obtain ⟨-, -, hmatched⟩ := oddCorners_matched boxes
  exact ⟨hvertices, hedge, ((hmatched .horizontal).2.2.2 _ _ hedge).1⟩

end Redraw.Outline
