import Redraw.Proofs.Outline.Runs

namespace Redraw.Outline

/-! ### Levels -/

theorem mem_eraseReps_loop (a x : Int) (rest kept : List Int) :
    x ∈ List.eraseRepsBy.loop (· == ·) a rest kept ↔ x = a ∨ x ∈ rest ∨ x ∈ kept := by
  induction rest generalizing a kept with
  | nil =>
    simp only [List.eraseRepsBy.loop, List.mem_reverse, List.mem_cons, List.not_mem_nil, false_or]
  | cons b rest ih =>
    simp only [List.eraseRepsBy.loop]
    cases hab : a == b with
    | true =>
      rw [ih, eq_of_beq hab]
      simp only [List.mem_cons, or_assoc, or_self_left]
    | false =>
      rw [ih]
      simp only [List.mem_cons, or_assoc]
      rw [or_left_comm (a := x = a), or_left_comm (a := x = a)]

theorem mem_eraseReps (x : Int) (l : List Int) : x ∈ l.eraseReps ↔ x ∈ l := by
  cases l with
  | nil => rfl
  | cons a rest =>
    show x ∈ List.eraseRepsBy.loop (· == ·) a rest [] ↔ x ∈ a :: rest
    rw [mem_eraseReps_loop]
    simp

theorem pairwise_eraseReps_loop (a : Int) (rest kept : List Int)
    (hsorted : (a :: rest).Pairwise (· ≤ ·)) (hkept : (a :: kept).Pairwise (· > ·)) :
    (List.eraseRepsBy.loop (· == ·) a rest kept).Pairwise (· < ·) := by
  induction rest generalizing a kept with
  | nil => exact List.pairwise_reverse.mpr hkept
  | cons b rest ih =>
    have hab := List.rel_of_pairwise_cons hsorted (List.mem_cons_self (a := b) (l := rest))
    simp only [List.eraseRepsBy.loop]
    cases heq : a == b with
    | true => exact ih a kept (eq_of_beq heq ▸ hsorted.of_cons) hkept
    | false =>
      have hne : a ≠ b := by simpa using heq
      refine ih b (a :: kept) hsorted.of_cons (List.Pairwise.cons ?_ hkept)
      intro c hc
      rcases List.mem_cons.mp hc with rfl | hc
      · omega
      · have hca := List.rel_of_pairwise_cons hkept hc
        omega

theorem pairwise_eraseReps {l : List Int} (hsorted : l.Pairwise (· ≤ ·)) :
    l.eraseReps.Pairwise (· < ·) := by
  cases l with
  | nil => exact List.Pairwise.nil
  | cons a rest => exact pairwise_eraseReps_loop a rest [] hsorted (List.pairwise_singleton _ _)

theorem levels_increasing (boxes : List Box) : (levels boxes).Pairwise (· < ·) := by
  have hsorted := pairwise_mergeSort_key id (boxes.flatMap fun b => [b.top, b.bottom])
  exact pairwise_eraseReps hsorted

theorem mem_levels {boxes : List Box} {b : Box} (hb : b ∈ boxes) :
    b.top ∈ levels boxes ∧ b.bottom ∈ levels boxes := by
  simp only [levels, mem_eraseReps, List.mem_mergeSort, List.mem_flatMap]
  exact ⟨⟨b, hb, by simp⟩, ⟨b, hb, by simp⟩⟩

/-! ### All slabs -/

/-- What holds on the way down the levels: every box still in play ends on a level that lies ahead, and
every box that waits also begins on one. -/
structure Sweeping (levels : List Int) (active waiting : List Box) : Prop where
  proper : ∀ b ∈ active ++ waiting, b.Proper
  begun : ∀ b ∈ active, ∀ y ∈ levels, b.top ≤ y
  ordered : waiting.Pairwise fun b c => b.top ≤ c.top
  tops : ∀ b ∈ waiting, b.top ∈ levels
  bottoms : ∀ b ∈ active ++ waiting, b.bottom ∈ levels

section Sweep

variable {top bottom : Int} {below : List Int} {active waiting : List Box}

/-- The boxes that span the slab below `top`, as `sweepSlabs` finds them. -/
def spanningAt (top : Int) (active waiting : List Box) : List Box :=
  (active.filter fun b => decide (top < b.bottom)) ++
    waiting.takeWhile fun b => decide (b.top ≤ top)

def waitingAt (top : Int) (waiting : List Box) : List Box :=
  waiting.dropWhile fun b => decide (b.top ≤ top)

theorem sweepSlabs_cons :
    sweepSlabs (top :: bottom :: below) active waiting =
      slabBoxes top bottom (spanningAt top active waiting) ++
        sweepSlabs (bottom :: below) (spanningAt top active waiting) (waitingAt top waiting) := by
  rw [sweepSlabs]
  rfl

theorem mem_spanningAt_or_waitingAt (top : Int) {b : Box} (hb : b ∈ active ++ waiting) :
    b ∈ spanningAt top active waiting ++ waitingAt top waiting ∨ b ∈ active ∧ b.bottom ≤ top := by
  simp only [spanningAt, waitingAt, List.append_assoc, List.takeWhile_append_dropWhile,
    List.mem_append, List.mem_filter, decide_eq_true_eq]
  rcases List.mem_append.mp hb with hb | hb
  · by_cases hend : top < b.bottom
    · exact Or.inl (Or.inl ⟨hb, hend⟩)
    · exact Or.inr ⟨hb, by omega⟩
  · exact Or.inl (Or.inr hb)

theorem mem_of_mem_spanningAt {b : Box}
    (hb : b ∈ spanningAt top active waiting ++ waitingAt top waiting) : b ∈ active ++ waiting := by
  simp only [spanningAt, waitingAt, List.append_assoc, List.takeWhile_append_dropWhile,
    List.mem_append, List.mem_filter] at hb ⊢
  exact hb.imp_left And.left

theorem le_top_of_mem_takeWhile {b : Box}
    (hb : b ∈ waiting.takeWhile fun c => decide (c.top ≤ top)) : b.top ≤ top := by
  have hall := List.all_eq_true.mp (List.all_takeWhile (l := waiting)
    (p := fun c => decide (c.top ≤ top))) b hb
  simpa using hall

theorem lt_top_of_mem_waitingAt (top : Int)
    (hordered : waiting.Pairwise fun b c => b.top ≤ c.top) :
    ∀ b ∈ waitingAt top waiting, top < b.top := by
  induction waiting with
  | nil => simp [waitingAt]
  | cons c rest ih =>
    intro b hb
    by_cases hc : c.top ≤ top
    · simp only [waitingAt, hc, decide_true, List.dropWhile_cons_of_pos] at hb
      exact ih hordered.of_cons b hb
    · simp only [waitingAt, hc, decide_false, Bool.false_eq_true, not_false_eq_true,
        List.dropWhile_cons_of_neg] at hb
      rcases List.mem_cons.mp hb with rfl | hb
      · omega
      · have hcb := List.rel_of_pairwise_cons hordered hb
        omega

theorem Sweeping.next (hlevels : (top :: bottom :: below).Pairwise (· < ·))
    (h : Sweeping (top :: bottom :: below) active waiting) :
    Sweeping (bottom :: below) (spanningAt top active waiting) (waitingAt top waiting) := by
  have hwaiting : ∀ b ∈ waitingAt top waiting, b ∈ waiting :=
    fun b hb => (List.dropWhile_sublist _).subset hb
  have hlate := lt_top_of_mem_waitingAt top h.ordered
  have hspan : ∀ b ∈ spanningAt top active waiting, b.top ≤ top ∧ top < b.bottom := by
    intro b hb
    rcases List.mem_append.mp hb with hb | hb
    · obtain ⟨hactive, hend⟩ := List.mem_filter.mp hb
      exact ⟨h.begun b hactive top List.mem_cons_self, by simpa using hend⟩
    · -- A box that has just arrived begins on a level ahead, which can only be `top`.
      have hle := le_top_of_mem_takeWhile hb
      have hproper := h.proper b (List.mem_append_right _ ((List.takeWhile_sublist _).subset hb))
      have hmem := h.tops b ((List.takeWhile_sublist _).subset hb)
      simp only [Box.Proper] at hproper
      rcases List.mem_cons.mp hmem with heq | hbelow
      · omega
      · have hlt := List.rel_of_pairwise_cons hlevels hbelow
        omega
  constructor
  · exact fun b hb => h.proper b (mem_of_mem_spanningAt hb)
  · intro b hb y hy
    have htop := (hspan b hb).1
    have hlt := List.rel_of_pairwise_cons hlevels hy
    omega
  · exact h.ordered.sublist (List.dropWhile_sublist _)
  · intro b hb
    have hlt := hlate b hb
    rcases List.mem_cons.mp (h.tops b (hwaiting b hb)) with heq | hbelow
    · omega
    · exact hbelow
  · intro b hb
    have hlt : top < b.bottom := by
      rcases List.mem_append.mp hb with hb | hb
      · exact (hspan b hb).2
      · have hproper := h.proper b (List.mem_append_right _ (hwaiting b hb))
        have hlt := hlate b hb
        simp only [Box.Proper] at hproper
        omega
    rcases List.mem_cons.mp (h.bottoms b (mem_of_mem_spanningAt hb)) with heq | hbelow
    · omega
    · exact hbelow

theorem Sweeping.covers_slab (hlevels : (top :: bottom :: below).Pairwise (· < ·))
    (h : Sweeping (top :: bottom :: below) active waiting) {i j : Int} (ht : top ≤ j)
    (hb : j < bottom) :
    (∃ b ∈ spanningAt top active waiting, b.left ≤ i ∧ i < b.right) ↔
      ∃ b ∈ active ++ waiting, b.Covers i j := by
  have hnext := h.next hlevels
  have hcut : ∀ y ∈ bottom :: below, bottom ≤ y := by
    intro y hy
    rcases List.mem_cons.mp hy with rfl | hy
    · exact Int.le_refl _
    · exact Int.le_of_lt (List.rel_of_pairwise_cons hlevels.of_cons hy)
  constructor
  · intro hsome
    obtain ⟨b, hspan, hl, hr⟩ := hsome
    have hmem := List.mem_append_left (waitingAt top waiting) hspan
    have hbegun := hnext.begun b hspan bottom List.mem_cons_self
    have hend := hcut _ (hnext.bottoms b hmem)
    refine ⟨b, mem_of_mem_spanningAt hmem, hl, hr, ?_, by omega⟩
    rcases List.mem_append.mp hspan with hactive | harrived
    · have htop := h.begun b (List.mem_filter.mp hactive).1 top List.mem_cons_self
      omega
    · have htop := le_top_of_mem_takeWhile harrived
      omega
  · intro hsome
    obtain ⟨b, hmem, hl, hr, hbt, hbb⟩ := hsome
    rcases mem_spanningAt_or_waitingAt top hmem with hmem | ⟨_, hend⟩
    · rcases List.mem_append.mp hmem with hspan | hlate
      · exact ⟨b, hspan, hl, hr⟩
      · have htop := hcut _ (hnext.tops b hlate)
        omega
    · omega

theorem exists_level_le_iff (hlevels : (top :: below).Pairwise (· < ·)) (j : Int) :
    (∃ y ∈ top :: below, y ≤ j) ↔ top ≤ j := by
  constructor
  · intro hsome
    obtain ⟨y, hy, hyj⟩ := hsome
    rcases List.mem_cons.mp hy with rfl | hy
    · exact hyj
    · have hlt := List.rel_of_pairwise_cons hlevels hy
      omega
  · intro htj
    exact ⟨top, List.mem_cons_self, htj⟩

/-- Going down the levels loses no covered cell and adds none. -/
theorem sweepSlabs_covers {levels : List Int} (hlevels : levels.Pairwise (· < ·))
    (h : Sweeping levels active waiting) (i j : Int) :
    (∃ r ∈ sweepSlabs levels active waiting, r.Covers i j) ↔
      (∃ y ∈ levels, y ≤ j) ∧ ∃ b ∈ active ++ waiting, b.Covers i j := by
  induction levels generalizing active waiting with
  | nil =>
    simp only [sweepSlabs, List.not_mem_nil, false_and, exists_false]
  | cons top rest ih =>
    cases rest with
    | nil =>
      simp only [sweepSlabs, List.not_mem_nil, false_and, exists_false, false_iff]
      intro hsome
      obtain ⟨⟨y, hy, hyj⟩, b, hmem, _, _, _, hbb⟩ := hsome
      rw [List.mem_singleton.mp hy] at hyj
      rw [List.mem_singleton.mp (h.bottoms b hmem)] at hbb
      omega
    | cons bottom below =>
      have hnext := h.next hlevels
      have hstep := List.rel_of_pairwise_cons hlevels (List.mem_cons_self (a := bottom) (l := below))
      have hbelow := ih hlevels.of_cons hnext
      have hslab := slabBoxes_covers top bottom (spanningAt top active waiting) i j
      rw [exists_level_le_iff hlevels.of_cons] at hbelow
      rw [exists_level_le_iff hlevels, sweepSlabs_cons]
      constructor
      · intro hsome
        obtain ⟨r, hr, hcover⟩ := hsome
        rcases List.mem_append.mp hr with hr | hr
        · obtain ⟨⟨ht, hb⟩, hcolumn⟩ := hslab.mp ⟨r, hr, hcover⟩
          exact ⟨ht, (h.covers_slab hlevels ht hb).mp hcolumn⟩
        · obtain ⟨hj, b, hmem, hb⟩ := hbelow.mp ⟨r, hr, hcover⟩
          exact ⟨by omega, b, mem_of_mem_spanningAt hmem, hb⟩
      · intro hsome
        obtain ⟨ht, b, hmem, hb⟩ := hsome
        by_cases hj : bottom ≤ j
        · -- Below the slab: a box that ended at `top` does not reach down to row `j`.
          rcases mem_spanningAt_or_waitingAt top hmem with hmem | ⟨_, hend⟩
          · obtain ⟨r, hr, hcover⟩ := hbelow.mpr ⟨hj, b, hmem, hb⟩
            exact ⟨r, List.mem_append_right _ hr, hcover⟩
          · have hbb := hb.2.2.2
            omega
        · have hcolumn := (h.covers_slab hlevels ht (by omega)).mpr ⟨b, hmem, hb⟩
          obtain ⟨r, hr, hcover⟩ := hslab.mpr ⟨⟨ht, by omega⟩, hcolumn⟩
          exact ⟨r, List.mem_append_left _ hr, hcover⟩

theorem top_mem_of_mem_sweepSlabs {levels : List Int} :
    ∀ r ∈ sweepSlabs levels active waiting, r.top ∈ levels := by
  fun_induction sweepSlabs levels active waiting with
  | case1 top bottom below active waiting arrived spanning ih =>
    intro r hr
    rcases List.mem_append.mp hr with hr | hr
    · rw [(slabBoxes_rows r hr).1]
      exact List.mem_cons_self
    · exact List.mem_cons_of_mem _ (ih r hr)
  | case2 => simp

theorem sweepSlabs_precedes {levels : List Int} (hlevels : levels.Pairwise (· < ·)) :
    (sweepSlabs levels active waiting).Pairwise Box.Precedes := by
  fun_induction sweepSlabs levels active waiting with
  | case1 top bottom below active waiting arrived spanning ih =>
    refine List.pairwise_append.mpr ⟨slabBoxes_precedes top bottom _, ih hlevels.of_cons, ?_⟩
    intro r hr t ht
    have hbottom := (slabBoxes_rows r hr).2
    apply Or.inl
    rcases List.mem_cons.mp (top_mem_of_mem_sweepSlabs t ht) with heq | hbelow
    · omega
    · have hlt := List.rel_of_pairwise_cons hlevels.of_cons hbelow
      omega
  | case2 => exact List.Pairwise.nil

theorem sweepSlabs_apart {levels : List Int} (hlevels : levels.Pairwise (· < ·)) :
    (sweepSlabs levels active waiting).Pairwise Box.Apart :=
  (sweepSlabs_precedes hlevels).imp Box.Precedes.apart

theorem sweepSlabs_proper {levels : List Int} (hlevels : levels.Pairwise (· < ·))
    (hproper : ∀ b ∈ active ++ waiting, b.Proper) :
    ∀ r ∈ sweepSlabs levels active waiting, r.Proper := by
  induction levels generalizing active waiting with
  | nil => simp [sweepSlabs]
  | cons top rest ih =>
    cases rest with
    | nil => simp [sweepSlabs]
    | cons bottom below =>
      have hstep := List.rel_of_pairwise_cons hlevels (List.mem_cons_self (a := bottom) (l := below))
      have hkept : ∀ b ∈ spanningAt top active waiting ++ waitingAt top waiting, b.Proper :=
        fun b hb => hproper b (mem_of_mem_spanningAt hb)
      rw [sweepSlabs_cons]
      intro r hr
      rcases List.mem_append.mp hr with hr | hr
      · exact slabBoxes_proper hstep (fun b hb => hkept b (List.mem_append_left _ hb)) r hr
      · exact ih hlevels.of_cons hkept r hr

end Sweep

theorem sweeping_start {boxes : List Box} (hproper : ∀ b ∈ boxes, b.Proper) :
    Sweeping (levels boxes) [] (boxes.mergeSort fun b c => decide (b.top ≤ c.top)) := by
  have hmem : ∀ b ∈ boxes.mergeSort (fun b c => decide (b.top ≤ c.top)), b ∈ boxes :=
    fun b hb => List.mem_mergeSort.mp hb
  constructor
  · exact fun b hb => hproper b (hmem b hb)
  · simp
  · exact pairwise_mergeSort_key Box.top boxes
  · exact fun b hb => (mem_levels (hmem b hb)).1
  · exact fun b hb => (mem_levels (hmem b hb)).2

theorem slabRuns_covers {boxes : List Box} (hproper : ∀ b ∈ boxes, b.Proper) (i j : Int) :
    (∃ r ∈ slabRuns boxes, r.Covers i j) ↔ ∃ b ∈ boxes, b.Covers i j := by
  rw [slabRuns, sweepSlabs_covers (levels_increasing boxes) (sweeping_start hproper)]
  simp only [List.nil_append, List.mem_mergeSort]
  constructor
  · exact And.right
  · intro hsome
    obtain ⟨b, hb, hcover⟩ := hsome
    exact ⟨⟨b.top, (mem_levels hb).1, hcover.2.2.1⟩, b, hb, hcover⟩

/-! ### Boxes without overlap -/

theorem disjointBoxes_proper (rects : List Corners) : ∀ b ∈ disjointBoxes rects, b.Proper := by
  have hproper : ∀ b ∈ properBoxes rects, b.Proper := fun b hb => proper_of_mem_properBoxes hb
  simp only [disjointBoxes]
  split
  · refine sweepSlabs_proper (levels_increasing _) ?_
    exact fun b hb => hproper b (List.mem_mergeSort.mp hb)
  · exact hproper

theorem disjointBoxes_apart (rects : List Corners) : (disjointBoxes rects).Pairwise Box.Apart := by
  have hproper : ∀ b ∈ properBoxes rects, b.Proper := fun b hb => proper_of_mem_properBoxes hb
  simp only [disjointBoxes]
  split
  · exact sweepSlabs_apart (levels_increasing _)
  · next hclear => exact pairwise_apart_of_hasOverlap_eq_false hproper (by simpa using hclear)

theorem disjointBoxes_covers (rects : List Corners) (i j : Int) :
    (∃ b ∈ disjointBoxes rects, b.Covers i j) ↔ ∃ c ∈ rects, c.Covers i j := by
  have hproper : ∀ b ∈ properBoxes rects, b.Proper := fun b hb => proper_of_mem_properBoxes hb
  rw [← covers_properBoxes]
  simp only [disjointBoxes]
  split
  · exact slabRuns_covers hproper i j
  · exact Iff.rfl

end Redraw.Outline
