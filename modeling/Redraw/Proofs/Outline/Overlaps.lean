import Mathlib.Data.List.Sort
import Redraw.Proofs.Outline.Tiling

/-!
# Overlaps are found exactly

In which order boxes with the same left side are taken does not matter, and neither does how the crossed
boxes are stored.
-/

namespace Redraw.Outline

/-! ### What is reported overlaps -/

theorem Box.not_apart_of_crossed {b c : Box} (hb : b.Proper) (hc : c.Proper)
    (hleft : c.left ≤ b.left) (hright : b.left < c.right) (htop : c.top < b.bottom)
    (hbottom : b.top < c.bottom) : ¬c.Apart b := by
  intro hapart
  simp only [Proper] at hb hc
  have hcb : b.Covers b.left (max b.top c.top) := by
    simp only [Covers]
    omega
  have hcc : c.Covers b.left (max b.top c.top) := by
    simp only [Covers]
    omega
  exact hapart _ _ hcc hcb

theorem exists_of_meetsNeighbour {b : Box} {crossed : List Box}
    (h : meetsNeighbour b crossed = true) :
    ∃ c ∈ crossed, c.top < b.bottom ∧ b.top < c.bottom := by
  cases hlast : lowestAbove? b.bottom crossed with
  | none => simp [meetsNeighbour, hlast] at h
  | some c =>
    have hmem : c ∈ crossed.takeWhile fun d => decide (d.top < b.bottom) :=
      List.mem_of_getLast? hlast
    have htop := List.all_eq_true.mp (List.all_takeWhile (l := crossed)) c hmem
    have hbottom : b.top < c.bottom := by simpa [meetsNeighbour, hlast] using h
    exact ⟨c, (List.takeWhile_sublist _).subset hmem, of_decide_eq_true htop, hbottom⟩

/-- Boxes that are apart from each other and from those that began before are passed without a report. -/
theorem sweepOverlap_of_apart (boxes : List Box) (hproper : ∀ b ∈ boxes, b.Proper)
    (hapart : boxes.Pairwise fun b c => b.left ≤ c.left ∧ b.Apart c) :
    ∀ crossed : List Box,
      (∀ c ∈ crossed, c.Proper ∧ ∀ b ∈ boxes, c.left ≤ b.left ∧ c.Apart b) →
        sweepOverlap boxes crossed = false := by
  induction boxes with
  | nil => simp [sweepOverlap]
  | cons b rest ih =>
    intro crossed hcrossed
    have hb := hproper b List.mem_cons_self
    have hmeets : ¬meetsNeighbour b (crossed.filter fun c => decide (b.left < c.right)) = true := by
      intro hmeets
      obtain ⟨c, hkept, htop, hbottom⟩ := exists_of_meetsNeighbour hmeets
      obtain ⟨hc, hright⟩ := List.mem_filter.mp hkept
      obtain ⟨hcproper, hbefore⟩ := hcrossed c hc
      obtain ⟨hleft, hclear⟩ := hbefore b List.mem_cons_self
      exact Box.not_apart_of_crossed hb hcproper hleft (of_decide_eq_true hright) htop hbottom hclear
    rw [sweepOverlap, if_neg hmeets]
    apply ih (fun c hc => hproper c (List.mem_cons_of_mem _ hc)) hapart.of_cons
    -- the boxes kept began before the later ones, and so did the new one
    intro c hc
    rw [mem_insertByTop, List.mem_filter] at hc
    rcases hc with hcb | ⟨hc, -⟩
    · rw [hcb]
      exact ⟨hb, fun d hd => List.rel_of_pairwise_cons hapart hd⟩
    · obtain ⟨hcproper, hbefore⟩ := hcrossed c hc
      exact ⟨hcproper, fun d hd => hbefore d (List.mem_cons_of_mem _ hd)⟩

theorem sweepOverlap_eq_false_iff {order : List Box} (hproper : ∀ b ∈ order, b.Proper)
    (hsorted : order.Pairwise fun b c => b.left ≤ c.left) :
    sweepOverlap order [] = false ↔ order.Pairwise Box.Apart := by
  constructor
  · intro hsweep
    exact (apart_of_sweepOverlap_eq_false order hproper hsorted [] stacked_nil hsweep).1
  · intro hapart
    exact sweepOverlap_of_apart order hproper (hsorted.and hapart) [] (by simp)

theorem sweepOverlap_of_perm {boxes order : List Box} (hproper : ∀ b ∈ boxes, b.Proper)
    (hperm : order.Perm boxes) (hsorted : order.Pairwise fun b c => b.left ≤ c.left) :
    sweepOverlap order [] = true ↔ ¬boxes.Pairwise Box.Apart := by
  have horder := sweepOverlap_eq_false_iff (fun b hb => hproper b (hperm.mem_iff.mp hb)) hsorted
  rw [← hperm.pairwise_iff fun hbc => hbc.symm, ← horder, Bool.not_eq_false]

theorem hasOverlap_iff {boxes : List Box} (hproper : ∀ b ∈ boxes, b.Proper) :
    hasOverlap boxes = true ↔ ¬boxes.Pairwise Box.Apart :=
  sweepOverlap_of_perm hproper (List.mergeSort_perm _ _) (pairwise_mergeSort_key Box.left boxes)

/-! ### Crossed boxes under their tops -/

/-- The crossed boxes as a table from their tops to their bottoms, and their right sides with their tops,
those that end first in front. -/
structure CrossedIndex where
  bottoms : Std.TreeMap Int Int := ∅
  queue : List (Int × Int) := []

namespace CrossedIndex

/-- Takes out what ends at the line or before it. -/
def expire (line : Int) (bottoms : Std.TreeMap Int Int) : List (Int × Int) → CrossedIndex
  | [] => ⟨bottoms, []⟩
  | (right, top) :: later =>
    if line < right then ⟨bottoms, (right, top) :: later⟩
    else expire line (bottoms.erase top) later

/-- Looks at the lowest of the tops above the bottom of the new box only. -/
def meets (b : Box) (index : CrossedIndex) : Bool :=
  match (index.bottoms.toList.takeWhile fun entry => decide (entry.1 < b.bottom)).getLast? with
  | some (_, bottom) => b.top < bottom
  | none => false

def insert (b : Box) (index : CrossedIndex) : CrossedIndex where
  bottoms := index.bottoms.insert b.top b.bottom
  queue := index.queue.orderedInsert (fun e f => e.1 ≤ f.1) (b.right, b.top)

/-- The sweep over boxes in order of their left sides, with the crossed boxes under their tops. -/
def sweep : List Box → CrossedIndex → Bool
  | [], _ => false
  | b :: rest, index =>
    let index := expire b.left index.bottoms index.queue
    if index.meets b then true else sweep rest (index.insert b)

/-- The index holds the crossed boxes and nothing else. -/
structure Holds (index : CrossedIndex) (crossed : List Box) : Prop where
  bottoms : ∀ top bottom : Int, index.bottoms[top]? = some bottom ↔
    ∃ c ∈ crossed, c.top = top ∧ c.bottom = bottom
  queue : index.queue.Perm (crossed.map fun c => (c.right, c.top))
  sorted : index.queue.Pairwise fun e f => e.1 ≤ f.1

theorem holds_nil : Holds {} [] := by
  constructor <;> simp

end CrossedIndex

theorem Stacked.tops {crossed : List Box} (h : Stacked crossed) :
    crossed.Pairwise fun c d => c.top < d.top := by
  apply h.descending.imp_of_mem
  intro c d hc _ hcd
  have hproper := h.proper c hc
  simp only [Box.Proper] at hproper
  omega

theorem Stacked.eq_of_top {crossed : List Box} (h : Stacked crossed) {c d : Box} (hc : c ∈ crossed)
    (hd : d ∈ crossed) (htop : c.top = d.top) : c = d := by
  have hnodup : (crossed.map Box.top).Nodup := by
    apply List.pairwise_map.mpr
    apply h.tops.imp
    intro a b hab
    omega
  exact List.inj_on_of_nodup_map hnodup hc hd htop

theorem Stacked.nodup {crossed : List Box} (h : Stacked crossed) : crossed.Nodup := by
  apply h.tops.imp
  rintro c d hcd rfl
  omega

theorem perm_insertByTop (b : Box) (crossed : List Box) :
    (insertByTop b crossed).Perm (b :: crossed) := by
  induction crossed with
  | nil => exact List.Perm.refl _
  | cons c rest ih =>
    simp only [insertByTop]
    split
    · exact (ih.cons c).trans (List.Perm.swap b c rest)
    · exact List.Perm.refl _

namespace CrossedIndex

variable {index : CrossedIndex} {crossed : List Box} {b : Box}

theorem Holds.erase {bottoms : Std.TreeMap Int Int} {later : List (Int × Int)} {c : Box}
    (hstack : Stacked crossed) (hc : c ∈ crossed)
    (h : Holds ⟨bottoms, (c.right, c.top) :: later⟩ crossed) :
    Holds ⟨bottoms.erase c.top, later⟩ (crossed.erase c) := by
  have hmem : ∀ d, d ∈ crossed.erase c ↔ d ∈ crossed ∧ d ≠ c := by
    intro d
    rw [hstack.nodup.mem_erase_iff]
    exact and_comm
  constructor
  · intro top bottom
    simp only [Std.TreeMap.getElem?_erase, Std.LawfulEqCmp.compare_eq_iff_eq, hmem]
    by_cases htop : c.top = top
    · simp only [if_pos htop, false_iff, reduceCtorEq]
      intro hsome
      obtain ⟨d, ⟨hd, hne⟩, hdtop, -⟩ := hsome
      exact hne (hstack.eq_of_top hd hc (hdtop.trans htop.symm))
    · rw [if_neg htop, h.bottoms]
      constructor
      · intro hsome
        obtain ⟨d, hd, hdtop, hbottom⟩ := hsome
        have hne : d ≠ c := fun heq => htop (heq ▸ hdtop)
        exact ⟨d, ⟨hd, hne⟩, hdtop, hbottom⟩
      · intro hsome
        obtain ⟨d, ⟨hd, -⟩, hdtop, hbottom⟩ := hsome
        exact ⟨d, hd, hdtop, hbottom⟩
  · have hperm := h.queue.trans ((List.perm_cons_erase hc).map _)
    rw [List.map_cons] at hperm
    exact hperm.cons_inv
  · exact h.sorted.of_cons

theorem Holds.expire (line : Int) {bottoms : Std.TreeMap Int Int} {queue : List (Int × Int)}
    (hstack : Stacked crossed) (h : Holds ⟨bottoms, queue⟩ crossed) :
    Holds (expire line bottoms queue) (crossed.filter fun c => decide (line < c.right)) := by
  induction queue generalizing bottoms crossed with
  | nil =>
    have hnil : crossed = [] := List.map_eq_nil_iff.mp h.queue.nil_eq.symm
    subst hnil
    exact h
  | cons entry later ih =>
    obtain ⟨right, top⟩ := entry
    rw [CrossedIndex.expire]
    by_cases hright : line < right
    · -- the queue is in order of the right sides: all behind an entry that stays end later still
      have hall : ∀ c ∈ crossed, decide (line < c.right) = true := by
        intro c hc
        have hentry := h.queue.mem_iff.mpr (List.mem_map_of_mem hc)
        rcases List.mem_cons.mp hentry with heq | hlater
        · simp_all
        · have hle := List.rel_of_pairwise_cons h.sorted hlater
          simp only [decide_eq_true_eq] at hle ⊢
          omega
      rw [if_pos hright, List.filter_eq_self.mpr hall]
      exact h
    · obtain ⟨c, hc, heq⟩ := List.mem_map.mp (h.queue.mem_iff.mp List.mem_cons_self)
      simp only [Prod.mk.injEq] at heq
      obtain ⟨rfl, rfl⟩ := heq
      have hstack' : Stacked (crossed.erase c) := by
        rw [hstack.nodup.erase_eq_filter]
        exact hstack.filter _
      have hfilter : (crossed.erase c).filter (fun d => decide (line < d.right)) =
          crossed.filter fun d => decide (line < d.right) := by
        rw [hstack.nodup.erase_eq_filter, List.filter_filter]
        apply List.filter_congr
        intro d hd
        by_cases hdc : d = c
        · simp [hdc, hright]
        · simp [hdc]
      rw [if_neg hright, ← hfilter]
      exact ih hstack' (h.erase hstack hc)

/-- Read in order of the tops, the table lists the crossed boxes downwards. -/
theorem Holds.toList_eq (hstack : Stacked crossed) (h : index.Holds crossed) :
    index.bottoms.toList = crossed.map fun c => (c.top, c.bottom) := by
  let before : Int × Int → Int × Int → Prop := fun e f => e.1 < f.1
  have : Std.Antisymm before := ⟨fun e f hef hfe => by simp only [before] at hef hfe; omega⟩
  have : Std.Irrefl before := ⟨fun e he => by simp only [before] at he; omega⟩
  have hsorted : index.bottoms.toList.Pairwise before := by
    apply Std.TreeMap.ordered_keys_toList.imp
    intro e f hef
    exact Std.compare_eq_lt.mp hef
  have hsorted' : (crossed.map fun c => (c.top, c.bottom)).Pairwise before :=
    List.pairwise_map.mpr hstack.tops
  apply hsorted.eq_of_mem_iff hsorted'
  intro entry
  rw [Std.TreeMap.mem_toList_iff_getElem?_eq_some, h.bottoms]
  simp [Prod.ext_iff]

theorem Holds.meets_eq (hstack : Stacked crossed) (h : index.Holds crossed) (b : Box) :
    index.meets b = meetsNeighbour b crossed := by
  simp only [meets, meetsNeighbour, lowestAbove?, h.toList_eq hstack, List.takeWhile_map,
    List.getLast?_map, Function.comp_def]
  cases (crossed.takeWhile fun c => decide (c.top < b.bottom)).getLast? with
  | none => rfl
  | some c => rfl

theorem Holds.insert (h : index.Holds crossed) (hfresh : ∀ c ∈ crossed, c.top ≠ b.top) :
    (index.insert b).Holds (insertByTop b crossed) := by
  constructor
  · intro top bottom
    simp only [CrossedIndex.insert, Std.TreeMap.getElem?_insert,
      Std.LawfulEqCmp.compare_eq_iff_eq, mem_insertByTop]
    by_cases htop : b.top = top
    · simp only [if_pos htop, Option.some.injEq]
      constructor
      · intro hbottom
        exact ⟨b, Or.inl rfl, htop, hbottom⟩
      · intro hsome
        obtain ⟨c, rfl | hc, hctop, hbottom⟩ := hsome
        · exact hbottom
        · exact absurd (hctop.trans htop.symm) (hfresh c hc)
    · rw [if_neg htop, h.bottoms]
      constructor
      · intro hsome
        obtain ⟨c, hc, hends⟩ := hsome
        exact ⟨c, Or.inr hc, hends⟩
      · intro hsome
        obtain ⟨c, rfl | hc, hends⟩ := hsome
        · exact absurd hends.1 htop
        · exact ⟨c, hc, hends⟩
  · apply (List.perm_orderedInsert _ _ _).trans
    apply (h.queue.cons _).trans
    exact ((perm_insertByTop b crossed).map fun c => (c.right, c.top)).symm
  · have : Std.Total fun e f : Int × Int => e.1 ≤ f.1 := ⟨fun e f => Int.le_total e.1 f.1⟩
    have : IsTrans (Int × Int) fun e f => e.1 ≤ f.1 := ⟨fun _ _ _ hef hfg => Int.le_trans hef hfg⟩
    exact h.sorted.orderedInsert _ _

theorem Holds.sweep_eq (boxes : List Box) (hproper : ∀ b ∈ boxes, b.Proper)
    (hstack : Stacked crossed) (h : index.Holds crossed) :
    sweep boxes index = sweepOverlap boxes crossed := by
  induction boxes generalizing index crossed with
  | nil => rfl
  | cons b rest ih =>
    have hb := hproper b List.mem_cons_self
    have hkept := hstack.filter fun c => decide (b.left < c.right)
    have hindex := h.expire b.left hstack
    rw [sweep, sweepOverlap, hindex.meets_eq hkept]
    by_cases hmeets : meetsNeighbour b (crossed.filter fun c => decide (b.left < c.right)) = true
    · rw [if_pos hmeets, if_pos hmeets]
    · rw [if_neg hmeets, if_neg hmeets]
      rw [Bool.not_eq_true] at hmeets
      apply ih (fun c hc => hproper c (List.mem_cons_of_mem _ hc)) (hstack.step hb hmeets).1
      apply hindex.insert
      -- a box that overlaps none of the crossed ones has a top of its own, so its entry replaces none
      intro c hc htop
      have hclear := hkept.clear_of_not_meets hmeets c hc
      have hc := hkept.proper c hc
      simp only [Box.Proper] at hb hc
      omega

end CrossedIndex

/-! ### Common points inside -/

/-- The middle of a common cell lies inside both boxes. -/
theorem Box.apart_iff_disjoint_interior {b c : Box} :
    b.Apart c ↔ Disjoint b.interior c.interior := by
  constructor
  · exact Apart.disjoint_interior
  · intro hdisjoint i j hb hc
    have hmiddle : ∀ d : Box, d.Covers i j → ((i : ℝ) + 1 / 2, (j : ℝ) + 1 / 2) ∈ d.interior := by
      intro d hd
      obtain ⟨hleft, hright, htop, hbottom⟩ := hd
      have hleft : (d.left : ℝ) ≤ i := Int.cast_le.mpr hleft
      have hright : (i : ℝ) + 1 ≤ d.right := by exact_mod_cast hright
      have htop : (d.top : ℝ) ≤ j := Int.cast_le.mpr htop
      have hbottom : (j : ℝ) + 1 ≤ d.bottom := by exact_mod_cast hbottom
      constructor <;> constructor <;> dsimp only <;> linarith
    exact Set.disjoint_left.mp hdisjoint (hmiddle b hb) (hmiddle c hc)

theorem not_pairwise_apart_iff (boxes : List Box) :
    ¬boxes.Pairwise Box.Apart ↔ ∃ i j : Fin boxes.length, i ≠ j ∧
      ((boxes.get i).interior ∩ (boxes.get j).interior).Nonempty := by
  constructor
  · intro hpairs
    by_contra hnone
    apply hpairs
    rw [List.pairwise_iff_get]
    intro i j hij
    rw [Box.apart_iff_disjoint_interior, Set.disjoint_iff_inter_eq_empty,
      ← Set.not_nonempty_iff_eq_empty]
    intro hmeet
    exact hnone ⟨i, j, Fin.ne_of_lt hij, hmeet⟩
  · intro hsome hpairs
    obtain ⟨i, j, hne, hmeet⟩ := hsome
    rw [List.pairwise_iff_get] at hpairs
    rw [← Set.not_disjoint_iff_nonempty_inter, ← Box.apart_iff_disjoint_interior] at hmeet
    rcases Fin.lt_or_lt_of_ne hne with hij | hji
    · exact hmeet (hpairs i j hij)
    · exact hmeet (hpairs j i hji).symm

/-- Of boxes with an area, in any order, the sweep finds out whether two at different places of the list
have a point inside in common. Whatever the order of boxes with the same left side, and also where the
crossed boxes are kept under their tops with a queue of their right sides, the answer is the same. -/
theorem hasOverlap_iff_interiors_meet {boxes : List Box}
    (hproper : ∀ b ∈ boxes, b.left < b.right ∧ b.top < b.bottom) :
    (hasOverlap boxes = true ↔ ∃ i j : Fin boxes.length, i ≠ j ∧
      ((boxes.get i).interior ∩ (boxes.get j).interior).Nonempty) ∧
    ∀ order : List Box, order.Perm boxes → (order.Pairwise fun b c => b.left ≤ c.left) →
      sweepOverlap order [] = hasOverlap boxes ∧ CrossedIndex.sweep order {} = hasOverlap boxes := by
  constructor
  · rw [hasOverlap_iff hproper]
    exact not_pairwise_apart_iff boxes
  · intro order hperm hsorted
    have horder : ∀ b ∈ order, b.Proper := fun b hb => hproper b (hperm.mem_iff.mp hb)
    have hsame : sweepOverlap order [] = hasOverlap boxes := by
      rw [Bool.eq_iff_iff, sweepOverlap_of_perm hproper hperm hsorted, hasOverlap_iff hproper]
    exact ⟨hsame, (CrossedIndex.holds_nil.sweep_eq order horder stacked_nil).trans hsame⟩

/-- Four tiles around a point only touch; with one of them listed twice there is an overlap, in whatever
order the three boxes on the left come. -/
theorem hasOverlap_iff_interiors_meet_tiles :
    let tiles : List Box := [⟨0, 0, 10, 10⟩, ⟨10, 0, 20, 10⟩, ⟨0, 10, 10, 20⟩, ⟨10, 10, 20, 20⟩]
    let again : List Box := tiles ++ [⟨0, 0, 10, 10⟩]
    let order : List Box :=
      [⟨0, 0, 10, 10⟩, ⟨0, 10, 10, 20⟩, ⟨0, 0, 10, 10⟩, ⟨10, 10, 20, 20⟩, ⟨10, 0, 20, 10⟩]
    (hasOverlap tiles = false ∧ ¬∃ i j : Fin tiles.length, i ≠ j ∧
      ((tiles.get i).interior ∩ (tiles.get j).interior).Nonempty) ∧
    (∃ i j : Fin again.length, i ≠ j ∧
      ((again.get i).interior ∩ (again.get j).interior).Nonempty) ∧
    hasOverlap again = true ∧ sweepOverlap order [] = true ∧ CrossedIndex.sweep order {} = true := by
  intro tiles again order
  have htiles : hasOverlap tiles = false := by cbv
  have hagain : hasOverlap again = true := by cbv
  have hproper : ∀ b ∈ tiles, b.left < b.right ∧ b.top < b.bottom := by decide
  have hproper' : ∀ b ∈ again, b.left < b.right ∧ b.top < b.bottom := by decide
  have hperm : order.Perm again := by decide
  have hsorted : order.Pairwise fun b c => b.left ≤ c.left := by decide
  obtain ⟨hmeets, -⟩ := hasOverlap_iff_interiors_meet hproper
  obtain ⟨hmeets', horders⟩ := hasOverlap_iff_interiors_meet hproper'
  obtain ⟨hplain, hindexed⟩ := horders order hperm hsorted
  have hnone : ¬∃ i j : Fin tiles.length, i ≠ j ∧
      ((tiles.get i).interior ∩ (tiles.get j).interior).Nonempty := by
    rw [← hmeets, htiles]
    decide
  exact ⟨⟨htiles, hnone⟩, hmeets'.mp hagain, hagain, hplain.trans hagain, hindexed.trans hagain⟩

end Redraw.Outline
