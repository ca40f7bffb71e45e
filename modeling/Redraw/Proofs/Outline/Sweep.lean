import Redraw.Outline.Overlap

/-!
# What the overlap sweep finds

While no overlap has been seen, the boxes that the sweep line crosses lie one below the other. So it is
enough to compare a new box with the lowest of those that begin above its bottom.
-/

namespace Redraw.Outline

theorem pairwise_mergeSort_key {α : Type} (key : α → Int) (items : List α) :
    (items.mergeSort fun a b => decide (key a ≤ key b)).Pairwise fun a b => key a ≤ key b := by
  have hsorted : (items.mergeSort fun a b => decide (key a ≤ key b)).Pairwise
      fun a b => decide (key a ≤ key b) = true := by
    refine List.pairwise_mergeSort ?_ ?_ items
    · intro a b c hab hbc
      simp only [decide_eq_true_eq] at *
      omega
    · intro a b
      simp only [Bool.or_eq_true, decide_eq_true_eq]
      omega
  exact hsorted.imp of_decide_eq_true

/-! ### Boxes without a common cell -/

/-- No unit cell lies inside both boxes. -/
def Box.Apart (b c : Box) : Prop := ∀ i j : Int, b.Covers i j → ¬c.Covers i j

theorem Box.Apart.symm {b c : Box} (h : b.Apart c) : c.Apart b :=
  fun i j hc hb => h i j hb hc

theorem Box.apart_of_columns {b c : Box} (h : b.right ≤ c.left) : b.Apart c := by
  intro i j hb hc
  simp only [Covers] at hb hc
  omega

theorem Box.apart_of_rows {b c : Box} (h : b.bottom ≤ c.top) : b.Apart c := by
  intro i j hb hc
  simp only [Covers] at hb hc
  omega

/-- The first box ends above the second, or both have the same rows with a gap between them. -/
def Box.Precedes (b c : Box) : Prop :=
  b.bottom ≤ c.top ∨ b.top = c.top ∧ b.bottom = c.bottom ∧ b.right < c.left

theorem Box.Precedes.apart {b c : Box} (h : b.Precedes c) : b.Apart c := by
  rcases h with hrows | ⟨_, _, hgap⟩
  · exact apart_of_rows hrows
  · exact apart_of_columns (Int.le_of_lt hgap)

/-! ### The crossed boxes -/

/-- Boxes with an area, listed downwards, each of them below the one before. -/
structure Stacked (crossed : List Box) : Prop where
  proper : ∀ c ∈ crossed, c.Proper
  descending : crossed.Pairwise fun c d => c.bottom ≤ d.top

theorem stacked_nil : Stacked [] := ⟨by simp, List.Pairwise.nil⟩

theorem Stacked.tail {b : Box} {crossed : List Box} (h : Stacked (b :: crossed)) :
    Stacked crossed :=
  ⟨fun c hc => h.proper c (List.mem_cons_of_mem _ hc), h.descending.of_cons⟩

theorem Stacked.filter {crossed : List Box} (h : Stacked crossed) (keep : Box → Bool) :
    Stacked (crossed.filter keep) :=
  ⟨fun c hc => h.proper c (List.mem_filter.mp hc).1, h.descending.filter keep⟩

theorem Stacked.le_top_of_head {b : Box} {crossed : List Box} {bottom : Int}
    (h : Stacked (b :: crossed)) (hb : bottom ≤ b.top) :
    ∀ c ∈ b :: crossed, bottom ≤ c.top := by
  intro c hc
  have hproper := h.proper b List.mem_cons_self
  rcases List.mem_cons.mp hc with rfl | hc
  · exact hb
  · have hbc := List.rel_of_pairwise_cons h.descending hc
    simp only [Box.Proper] at hproper
    omega

theorem Stacked.mem_takeWhile_or {crossed : List Box} (h : Stacked crossed) (bottom : Int) :
    ∀ c ∈ crossed,
      c ∈ crossed.takeWhile (fun d => decide (d.top < bottom)) ∨ bottom ≤ c.top := by
  induction crossed with
  | nil => simp
  | cons b rest ih =>
    intro c hc
    by_cases hb : b.top < bottom
    · simp only [hb, decide_true, List.takeWhile_cons_of_pos, List.mem_cons] at hc ⊢
      rcases hc with hc | hc
      · exact Or.inl (Or.inl hc)
      · rcases ih h.tail c hc with hin | hlow
        · exact Or.inl (Or.inr hin)
        · exact Or.inr hlow
    · exact Or.inr (h.le_top_of_head (by omega) c hc)

/-- One comparison decides for all crossed boxes: each of them ends above the new box or begins below
it. -/
theorem Stacked.clear_of_not_meets {b : Box} {crossed : List Box} (h : Stacked crossed)
    (hmeets : meetsNeighbour b crossed = false) :
    ∀ c ∈ crossed, c.bottom ≤ b.top ∨ b.bottom ≤ c.top := by
  intro c hc
  rcases h.mem_takeWhile_or b.bottom c hc with hin | hlow
  · apply Or.inl
    cases hlast : lowestAbove? b.bottom crossed with
    | none =>
      simp only [lowestAbove?, List.getLast?_eq_none_iff] at hlast
      rw [hlast] at hin
      exact absurd hin List.not_mem_nil
    | some d =>
      simp only [meetsNeighbour, hlast, decide_eq_false_iff_not, Int.not_lt] at hmeets
      obtain ⟨above, habove⟩ := List.getLast?_eq_some_iff.mp hlast
      have hsub : (above ++ [d]).Sublist crossed := habove ▸ List.takeWhile_sublist _
      have hd := h.proper d (hsub.subset (by simp))
      rw [habove] at hin
      rcases List.mem_append.mp hin with hin | hin
      · have hcd := (List.pairwise_append.mp (h.descending.sublist hsub)).2.2 c hin d (by simp)
        simp only [Box.Proper] at hd
        omega
      · rw [List.mem_singleton.mp hin]
        exact hmeets
  · exact Or.inr hlow

theorem Stacked.insertByTop {b : Box} {crossed : List Box} (h : Stacked crossed) (hb : b.Proper)
    (hclear : ∀ c ∈ crossed, c.bottom ≤ b.top ∨ b.bottom ≤ c.top) :
    Stacked (insertByTop b crossed) := by
  constructor
  · intro c hc
    rcases (mem_insertByTop b c crossed).mp hc with rfl | hc
    · exact hb
    · exact h.proper c hc
  · induction crossed with
    | nil => exact List.pairwise_singleton _ _
    | cons c rest ih =>
      have hc := h.proper c List.mem_cons_self
      have hcb := hclear c List.mem_cons_self
      simp only [Box.Proper] at hb hc
      by_cases hle : c.top ≤ b.top
      · simp only [Outline.insertByTop, if_pos hle]
        refine List.Pairwise.cons ?_ (ih h.tail fun d hd => hclear d (List.mem_cons_of_mem _ hd))
        intro d hd
        rcases (mem_insertByTop b d rest).mp hd with rfl | hd
        · omega
        · exact List.rel_of_pairwise_cons h.descending hd
      · simp only [Outline.insertByTop, if_neg hle]
        refine List.Pairwise.cons ?_ h.descending
        exact h.le_top_of_head (by omega)

/-! ### The sweep -/

/-- One step of the sweep keeps the crossed boxes stacked, and the new box is apart from all that
began before it. -/
theorem Stacked.step {b : Box} {crossed : List Box} (h : Stacked crossed) (hb : b.Proper)
    (hmeets : meetsNeighbour b (crossed.filter fun c => decide (b.left < c.right)) = false) :
    Stacked (Outline.insertByTop b (crossed.filter fun c => decide (b.left < c.right))) ∧
      ∀ c ∈ crossed, c.Apart b := by
  have hkept := h.filter fun c => decide (b.left < c.right)
  have hclear := hkept.clear_of_not_meets hmeets
  refine ⟨hkept.insertByTop hb hclear, ?_⟩
  intro c hc
  by_cases hcross : b.left < c.right
  · rcases hclear c (List.mem_filter.mpr ⟨hc, by simpa using hcross⟩) with hrow | hrow
    · exact Box.apart_of_rows hrow
    · exact (Box.apart_of_rows hrow).symm
  · exact Box.apart_of_columns (by omega)

theorem apart_of_sweepOverlap_eq_false (boxes : List Box) (hproper : ∀ b ∈ boxes, b.Proper)
    (hsorted : boxes.Pairwise fun b c => b.left ≤ c.left) :
    ∀ crossed : List Box, Stacked crossed → sweepOverlap boxes crossed = false →
      boxes.Pairwise Box.Apart ∧ ∀ b ∈ boxes, ∀ c ∈ crossed, c.Apart b := by
  induction boxes with
  | nil => simp
  | cons b rest ih =>
    intro crossed hstack hsweep
    simp only [sweepOverlap] at hsweep
    have hmeets : meetsNeighbour b (crossed.filter fun c => decide (b.left < c.right)) = false := by
      cases hm : meetsNeighbour b (crossed.filter fun c => decide (b.left < c.right)) with
      | false => rfl
      | true => simp only [hm, if_true, Bool.true_eq_false] at hsweep
    simp only [hmeets, Bool.false_eq_true, if_false] at hsweep
    have hb := hproper b List.mem_cons_self
    obtain ⟨hnext, hapart⟩ := hstack.step hb hmeets
    obtain ⟨hrest, hbefore⟩ := ih (fun c hc => hproper c (List.mem_cons_of_mem _ hc)) hsorted.of_cons
      _ hnext hsweep
    refine ⟨List.Pairwise.cons ?_ hrest, ?_⟩
    · intro d hd
      exact hbefore d hd b ((mem_insertByTop b b _).mpr (Or.inl rfl))
    · intro d hd c hc
      rcases List.mem_cons.mp hd with rfl | hd
      · exact hapart c hc
      · -- A box that has ended before `b` begins lies to the left of all later ones as well.
        by_cases hcross : b.left < c.right
        · refine hbefore d hd c ((mem_insertByTop b c _).mpr (Or.inr ?_))
          exact List.mem_filter.mpr ⟨hc, by simpa using hcross⟩
        · have hbd := List.rel_of_pairwise_cons hsorted hd
          exact Box.apart_of_columns (by omega)

theorem pairwise_apart_of_hasOverlap_eq_false {boxes : List Box} (hproper : ∀ b ∈ boxes, b.Proper)
    (h : hasOverlap boxes = false) : boxes.Pairwise Box.Apart := by
  have hperm := List.mergeSort_perm boxes fun b c => decide (b.left ≤ c.left)
  have hsorted := pairwise_mergeSort_key Box.left boxes
  have happly := apart_of_sweepOverlap_eq_false _ (fun b hb => hproper b (hperm.mem_iff.mp hb))
    hsorted [] stacked_nil h
  exact (hperm.pairwise_iff fun hbc => hbc.symm).mp happly.1

end Redraw.Outline
