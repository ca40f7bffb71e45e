import Redraw.Outline.Vertex
import Redraw.Proofs.Outline.Sweep

namespace Redraw.Outline

/-! ### Order -/

/-- Strictly before in the order by columns. -/
def Point.Precedes (p q : Point) : Prop := p.x < q.x ∨ p.x = q.x ∧ p.y < q.y

theorem Point.Precedes.ne {p q : Point} (h : p.Precedes q) : p ≠ q := by
  rintro rfl
  simp only [Precedes] at h
  omega

theorem eq_of_increasing {points points' : List Point} (hsorted : points.Pairwise Point.Precedes)
    (hsorted' : points'.Pairwise Point.Precedes) (hmem : ∀ p, p ∈ points ↔ p ∈ points') :
    points = points' := by
  have hnodup : points.Nodup := hsorted.imp Point.Precedes.ne
  have hnodup' : points'.Nodup := hsorted'.imp Point.Precedes.ne
  have hperm := (List.perm_ext_iff_of_nodup hnodup hnodup').mpr hmem
  apply hperm.eq_of_pairwise _ hsorted hsorted'
  intro p q _ _ hpq hqp
  simp only [Point.Precedes] at hpq hqp
  omega

theorem Point.precedes_of_byColumn {p q : Point} (h : p.byColumn q = true) (hne : p ≠ q) :
    p.Precedes q := by
  rw [byColumn_iff] at h
  rcases h with h | ⟨hx, hy⟩
  · exact Or.inl h
  · have hne' : p.y ≠ q.y := fun hy' => hne (by cases p; cases q; simp_all)
    exact Or.inr ⟨hx, by omega⟩

theorem cancelPairs_increasing {points : List Point}
    (hsorted : points.Pairwise fun p q => p.byColumn q = true) :
    (cancelPairs points).Pairwise Point.Precedes := by
  fun_induction cancelPairs points with
  | case1 => exact List.Pairwise.nil
  | case2 p => exact List.pairwise_singleton _ _
  | case3 p rest ih => exact ih hsorted.of_cons.of_cons
  | case4 p q rest hne ih =>
    refine List.Pairwise.cons ?_ (ih hsorted.of_cons)
    have hpq := List.rel_of_pairwise_cons hsorted (List.mem_cons_self (a := q) (l := rest))
    intro r hr
    have hmem := cancelPairs_subset _ r hr
    have hpr := List.rel_of_pairwise_cons hsorted hmem
    apply Point.precedes_of_byColumn hpr
    rintro rfl
    -- If `p` came again later, everything between would be `p`, also its neighbour `q`.
    rcases List.mem_cons.mp hmem with heq | hlater
    · exact hne heq
    · have hqp := List.rel_of_pairwise_cons hsorted.of_cons hlater
      exact hne (Point.byColumn_antisymm _ _ hpq hqp)

theorem oddCorners_increasing (boxes : List Box) :
    (oddCorners boxes).Pairwise Point.Precedes := by
  have hsorted := List.pairwise_mergeSort Point.byColumn_trans Point.byColumn_total
    (boxes.flatMap Box.corners)
  exact cancelPairs_increasing hsorted

theorem oddCorners_nodup (boxes : List Box) : (oddCorners boxes).Nodup :=
  (oddCorners_increasing boxes).imp Point.Precedes.ne

/-! ### Lines -/

theorem corners_even_on_column (b : Box) (c : Int) :
    b.corners.countP (fun p => decide (p.x = c)) % 2 = 0 := by
  simp only [Box.corners, List.countP_cons, List.countP_nil, decide_eq_true_eq]
  omega

theorem corners_even_on_row (b : Box) (c : Int) :
    b.corners.countP (fun p => decide (p.y = c)) % 2 = 0 := by
  simp only [Box.corners, List.countP_cons, List.countP_nil, decide_eq_true_eq]
  omega

theorem oddCorners_even {keep : Point → Bool}
    (hcorners : ∀ b : Box, b.corners.countP keep % 2 = 0) (boxes : List Box) :
    (oddCorners boxes).countP keep % 2 = 0 := by
  rw [countP_oddCorners]
  induction boxes with
  | nil => rfl
  | cons b rest ih =>
    have hb := hcorners b
    simp only [List.flatMap_cons, List.countP_append]
    omega

theorem oddCorners_even_on_column (boxes : List Box) (c : Int) :
    (oddCorners boxes).countP (fun p => decide (p.x = c)) % 2 = 0 :=
  oddCorners_even (corners_even_on_column · c) boxes

theorem oddCorners_even_on_row (boxes : List Box) (c : Int) :
    (oddCorners boxes).countP (fun p => decide (p.y = c)) % 2 = 0 :=
  oddCorners_even (corners_even_on_row · c) boxes

/-! ### Quadrants -/

/-- The point lies in the closed quadrant up and to the left of `(i, j)`. -/
def inQuadrant (i j : Int) (p : Point) : Bool := decide (p.x ≤ i ∧ p.y ≤ j)

theorem countP_quadrant_corners {b : Box} (hproper : b.Proper) (i j : Int) :
    b.corners.countP (inQuadrant i j) % 2 = if b.Covers i j then 1 else 0 := by
  simp only [Box.Proper] at hproper
  simp only [Box.corners, List.countP_cons, List.countP_nil, inQuadrant, decide_eq_true_eq,
    Box.Covers, ← Int.not_le]
  by_cases hl : b.left ≤ i <;> by_cases hr : b.right ≤ i <;> by_cases ht : b.top ≤ j <;>
    by_cases hb : b.bottom ≤ j <;> simp only [hl, hr, ht, hb, and_true, and_false, if_true,
      if_false, not_true_eq_false, not_false_eq_true] <;> omega

/-- Of boxes that are apart, an odd number of corners lies in the quadrant of exactly the covered
cells. -/
theorem odd_quadrant_iff_covers {boxes : List Box} (hproper : ∀ b ∈ boxes, b.Proper)
    (hapart : boxes.Pairwise Box.Apart) (i j : Int) :
    (oddCorners boxes).countP (inQuadrant i j) % 2 = 1 ↔ ∃ b ∈ boxes, b.Covers i j := by
  rw [countP_oddCorners]
  induction boxes with
  | nil => simp
  | cons b rest ih =>
    have hb := countP_quadrant_corners (hproper b List.mem_cons_self) i j
    have hrest := ih (fun c hc => hproper c (List.mem_cons_of_mem _ hc)) hapart.of_cons
    simp only [List.flatMap_cons, List.countP_append]
    by_cases hcover : b.Covers i j
    · -- No later box covers the cell a second time.
      have hnone : ¬∃ c ∈ rest, c.Covers i j := by
        intro hsome
        obtain ⟨c, hc, hcc⟩ := hsome
        exact List.rel_of_pairwise_cons hapart hc i j hcover hcc
      rw [if_pos hcover] at hb
      rw [← hrest] at hnone
      constructor
      · exact fun _ => ⟨b, List.mem_cons_self, hcover⟩
      · intro _
        omega
    · rw [if_neg hcover] at hb
      constructor
      · intro hodd
        obtain ⟨c, hc, hcc⟩ := hrest.mp (by omega)
        exact ⟨c, List.mem_cons_of_mem _ hc, hcc⟩
      · intro hsome
        obtain ⟨c, hc, hcc⟩ := hsome
        rcases List.mem_cons.mp hc with rfl | hc
        · exact absurd hcc hcover
        · have hodd := hrest.mpr ⟨c, hc, hcc⟩
          omega

end Redraw.Outline
