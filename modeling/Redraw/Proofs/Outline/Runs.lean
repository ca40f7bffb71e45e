import Redraw.Outline.Slab
import Redraw.Proofs.Outline.Sweep

namespace Redraw.Outline

/-! ### Runs -/

def Span.Covers (s : Span) (i : Int) : Prop := s.left ≤ i ∧ i < s.right

theorem Span.before_iff (s t : Span) :
    s.before t = true ↔ s.left < t.left ∨ s.left = t.left ∧ s.right ≤ t.right := by
  simp [before]

theorem pairwise_left_mergeSort (spans : List Span) :
    (spans.mergeSort Span.before).Pairwise fun s t => s.left ≤ t.left := by
  have hsorted : (spans.mergeSort Span.before).Pairwise fun s t => s.before t = true := by
    refine List.pairwise_mergeSort ?_ ?_ spans
    · intro s t u hst htu
      simp only [Span.before_iff] at *
      omega
    · intro s t
      simp only [Bool.or_eq_true, Span.before_iff]
      omega
  apply hsorted.imp
  intro s t hst
  rw [Span.before_iff] at hst
  omega

theorem runsFrom_covers (run : Span) (spans : List Span)
    (hsorted : (run :: spans).Pairwise fun s t => s.left ≤ t.left) (i : Int) :
    (∃ r ∈ runsFrom run spans, r.Covers i) ↔ ∃ s ∈ run :: spans, s.Covers i := by
  induction spans generalizing run with
  | nil => simp only [runsFrom]
  | cons s rest ih =>
    have hrun := List.rel_of_pairwise_cons hsorted (List.mem_cons_self (a := s) (l := rest))
    have hrest := hsorted.of_cons
    simp only [runsFrom]
    by_cases htouch : s.left ≤ run.right
    · have hjoined : (⟨run.left, max run.right s.right⟩ :: rest).Pairwise
          fun t u : Span => t.left ≤ u.left := by
        refine List.Pairwise.cons ?_ hrest.of_cons
        intro t ht
        exact List.rel_of_pairwise_cons hsorted (List.mem_cons_of_mem _ ht)
      have hcover : Span.Covers ⟨run.left, max run.right s.right⟩ i ↔ run.Covers i ∨ s.Covers i := by
        simp only [Span.Covers]
        omega
      rw [if_pos htouch, ih _ hjoined]
      simp only [List.mem_cons, exists_eq_or_imp, hcover, or_assoc]
    · rw [if_neg htouch]
      simp only [List.mem_cons, exists_eq_or_imp, ih s hrest]

theorem left_le_of_mem_runsFrom (run : Span) (spans : List Span)
    (hsorted : (run :: spans).Pairwise fun s t => s.left ≤ t.left) :
    ∀ r ∈ runsFrom run spans, run.left ≤ r.left := by
  induction spans generalizing run with
  | nil => simp [runsFrom]
  | cons s rest ih =>
    have hrun := List.rel_of_pairwise_cons hsorted (List.mem_cons_self (a := s) (l := rest))
    intro r hr
    simp only [runsFrom] at hr
    by_cases htouch : s.left ≤ run.right
    · rw [if_pos htouch] at hr
      refine ih ⟨run.left, max run.right s.right⟩ (List.Pairwise.cons ?_ hsorted.of_cons.of_cons) r hr
      intro t ht
      exact List.rel_of_pairwise_cons hsorted (List.mem_cons_of_mem _ ht)
    · rw [if_neg htouch] at hr
      rcases List.mem_cons.mp hr with rfl | hr
      · exact Int.le_refl _
      · have hs := ih s hsorted.of_cons r hr
        omega

theorem runsFrom_separated (run : Span) (spans : List Span)
    (hsorted : (run :: spans).Pairwise fun s t => s.left ≤ t.left) :
    (runsFrom run spans).Pairwise fun r t => r.right < t.left := by
  induction spans generalizing run with
  | nil => exact List.pairwise_singleton _ _
  | cons s rest ih =>
    simp only [runsFrom]
    by_cases htouch : s.left ≤ run.right
    · rw [if_pos htouch]
      refine ih _ (List.Pairwise.cons ?_ hsorted.of_cons.of_cons)
      intro t ht
      exact List.rel_of_pairwise_cons hsorted (List.mem_cons_of_mem _ ht)
    · rw [if_neg htouch]
      refine List.Pairwise.cons ?_ (ih s hsorted.of_cons)
      intro t ht
      have hs := left_le_of_mem_runsFrom s rest hsorted.of_cons t ht
      omega

theorem runsFrom_proper (run : Span) (spans : List Span)
    (hproper : ∀ s ∈ run :: spans, s.left < s.right) :
    ∀ r ∈ runsFrom run spans, r.left < r.right := by
  induction spans generalizing run with
  | nil => simpa [runsFrom] using hproper
  | cons s rest ih =>
    have hrun := hproper run List.mem_cons_self
    have hrest : ∀ t ∈ rest, t.left < t.right := fun t ht =>
      hproper t (List.mem_cons_of_mem _ (List.mem_cons_of_mem _ ht))
    intro r hr
    simp only [runsFrom] at hr
    by_cases htouch : s.left ≤ run.right
    · rw [if_pos htouch] at hr
      refine ih ⟨run.left, max run.right s.right⟩ ?_ r hr
      intro t ht
      rcases List.mem_cons.mp ht with rfl | ht
      · show run.left < max run.right s.right
        omega
      · exact hrest t ht
    · rw [if_neg htouch] at hr
      rcases List.mem_cons.mp hr with rfl | hr
      · exact hrun
      · exact ih s (fun t ht => hproper t (List.mem_cons_of_mem _ ht)) r hr

theorem runs_covers {spans : List Span} (hsorted : spans.Pairwise fun s t => s.left ≤ t.left)
    (i : Int) : (∃ r ∈ runs spans, r.Covers i) ↔ ∃ s ∈ spans, s.Covers i := by
  cases spans with
  | nil => simp [runs]
  | cons s rest => exact runsFrom_covers s rest hsorted i

theorem runs_separated {spans : List Span} (hsorted : spans.Pairwise fun s t => s.left ≤ t.left) :
    (runs spans).Pairwise fun r t => r.right < t.left := by
  cases spans with
  | nil => exact List.Pairwise.nil
  | cons s rest => exact runsFrom_separated s rest hsorted

theorem runs_proper {spans : List Span} (hproper : ∀ s ∈ spans, s.left < s.right) :
    ∀ r ∈ runs spans, r.left < r.right := by
  cases spans with
  | nil => simp [runs]
  | cons s rest => exact runsFrom_proper s rest hproper

/-! ### One slab -/

theorem slabBoxes_covers (top bottom : Int) (spanning : List Box) (i j : Int) :
    (∃ r ∈ slabBoxes top bottom spanning, r.Covers i j) ↔
      (top ≤ j ∧ j < bottom) ∧ ∃ b ∈ spanning, b.left ≤ i ∧ i < b.right := by
  have hruns := runs_covers (pairwise_left_mergeSort (spanning.map Box.span)) i
  simp only [slabBoxes, List.mem_map]
  constructor
  · intro hsome
    obtain ⟨_, ⟨run, hrun, rfl⟩, hl, hr, ht, hb⟩ := hsome
    obtain ⟨s, hs, hcolumn⟩ := hruns.mp ⟨run, hrun, hl, hr⟩
    obtain ⟨b, hspan, rfl⟩ := List.mem_map.mp (List.mem_mergeSort.mp hs)
    exact ⟨⟨ht, hb⟩, b, hspan, hcolumn⟩
  · intro hsome
    obtain ⟨⟨ht, hb⟩, b, hspan, hcolumn⟩ := hsome
    have hs : b.span ∈ (spanning.map Box.span).mergeSort Span.before :=
      List.mem_mergeSort.mpr (List.mem_map_of_mem hspan)
    obtain ⟨run, hrun, hl, hr⟩ := hruns.mpr ⟨b.span, hs, hcolumn⟩
    exact ⟨_, ⟨run, hrun, rfl⟩, hl, hr, ht, hb⟩

theorem slabBoxes_precedes (top bottom : Int) (spanning : List Box) :
    (slabBoxes top bottom spanning).Pairwise Box.Precedes := by
  have hseparated := runs_separated (pairwise_left_mergeSort (spanning.map Box.span))
  refine List.pairwise_map.mpr (hseparated.imp ?_)
  intro r t hrt
  exact Or.inr ⟨rfl, rfl, hrt⟩

theorem slabBoxes_rows {top bottom : Int} {spanning : List Box} :
    ∀ r ∈ slabBoxes top bottom spanning, r.top = top ∧ r.bottom = bottom := by
  intro r hr
  obtain ⟨run, _, rfl⟩ := List.mem_map.mp hr
  exact ⟨rfl, rfl⟩

theorem slabBoxes_proper {top bottom : Int} {spanning : List Box} (hlevels : top < bottom)
    (hproper : ∀ b ∈ spanning, b.Proper) : ∀ r ∈ slabBoxes top bottom spanning, r.Proper := by
  intro r hr
  obtain ⟨run, hrun, rfl⟩ := List.mem_map.mp hr
  refine ⟨runs_proper ?_ run hrun, hlevels⟩
  intro s hs
  obtain ⟨b, hb, rfl⟩ := List.mem_map.mp (List.mem_mergeSort.mp hs)
  exact (hproper b hb).1

end Redraw.Outline
