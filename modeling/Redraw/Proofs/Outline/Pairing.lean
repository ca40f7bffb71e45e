import Redraw.Outline.Trace
import Redraw.Proofs.Outline.Vertices

namespace Redraw.Outline

/-! ### Pairing along lines -/

/-- Distinct points, line after line, with an even number of points on each line. -/
structure EvenLines (line : Point → Int) (points : List Point) : Prop where
  sorted : points.Pairwise fun p q => line p ≤ line q
  nodup : points.Nodup
  even : ∀ c, points.countP (fun p => decide (line p = c)) % 2 = 0

def ends (edges : List (Point × Point)) : List Point :=
  edges.flatMap fun edge => [edge.1, edge.2]

section Line

variable {line : Point → Int}

theorem EvenLines.tail {p q : Point} {rest : List Point} (h : EvenLines line (p :: q :: rest))
    (hline : line p = line q) : EvenLines line rest := by
  refine ⟨h.sorted.of_cons.of_cons, h.nodup.of_cons.of_cons, ?_⟩
  intro c
  have heven := h.even c
  simp only [List.countP_cons, hline] at heven
  omega

theorem EvenLines.same_line {p q : Point} {rest : List Point}
    (h : EvenLines line (p :: q :: rest)) : line p = line q := by
  have hpq := List.rel_of_pairwise_cons h.sorted (List.mem_cons_self (a := q) (l := rest))
  by_cases hline : line p = line q
  · exact hline
  · have hnone : (q :: rest).countP (fun r => decide (line r = line p)) = 0 := by
      apply List.countP_eq_zero.mpr
      intro r hr
      have hqr : line q ≤ line r := by
        rcases List.mem_cons.mp hr with rfl | hr
        · exact Int.le_refl _
        · exact List.rel_of_pairwise_cons h.sorted.of_cons hr
      simp only [decide_eq_true_eq]
      omega
    have heven := h.even (line p)
    rw [List.countP_cons, hnone] at heven
    simp at heven

theorem ends_pairUp {points : List Point} (h : EvenLines line points) :
    ends (pairUp line points) = points := by
  fun_induction pairUp line points with
  | case1 p q rest hline ih =>
    have hrest := ih (h.tail hline)
    simp only [ends, List.flatMap_cons, List.cons_append, List.nil_append] at hrest ⊢
    rw [hrest]
  | case2 p q rest hline ih => exact absurd h.same_line hline
  | case3 points hshort =>
    match points, hshort with
    | [], _ => rfl
    | [p], _ =>
      have heven := h.even (line p)
      simp at heven
    | p :: q :: rest, hshort => exact absurd rfl (hshort p q rest)

theorem line_eq_of_mem_pairUp {points : List Point} :
    ∀ edge ∈ pairUp line points, line edge.1 = line edge.2 := by
  fun_induction pairUp line points with
  | case1 p q rest hline ih =>
    intro edge hedge
    rcases List.mem_cons.mp hedge with rfl | hedge
    · exact hline
    · exact ih edge hedge
  | case2 p q rest hline ih => exact ih
  | case3 => simp

/-! ### Matchings of edges -/

theorem mem_ends {edges : List (Point × Point)} {p : Point} :
    p ∈ ends edges ↔ ∃ q, (p, q) ∈ edges ∨ (q, p) ∈ edges := by
  simp only [ends, List.mem_flatMap, List.mem_cons, List.not_mem_nil, or_false]
  constructor
  · intro hsome
    obtain ⟨⟨a, b⟩, hedge, rfl | rfl⟩ := hsome
    · exact ⟨b, Or.inl hedge⟩
    · exact ⟨a, Or.inr hedge⟩
  · intro hsome
    obtain ⟨q, hedge | hedge⟩ := hsome
    · exact ⟨(p, q), hedge, Or.inl rfl⟩
    · exact ⟨(q, p), hedge, Or.inr rfl⟩

theorem getElem?_foldl_insert (edges : List (Point × Point)) (hnodup : (ends edges).Nodup)
    (m : Matching) (hfresh : ∀ p ∈ ends edges, m[p]? = none) (p q : Point) :
    (edges.foldl (fun m edge => (m.insert edge.1 edge.2).insert edge.2 edge.1) m)[p]? = some q ↔
      m[p]? = some q ∨ (p, q) ∈ edges ∨ (q, p) ∈ edges := by
  induction edges generalizing m with
  | nil => simp
  | cons edge rest ih =>
    obtain ⟨a, b⟩ := edge
    simp only [ends, List.flatMap_cons, List.cons_append, List.nil_append, List.nodup_cons,
      List.mem_cons, not_or] at hnodup
    obtain ⟨⟨hab, ha⟩, hb, hrest⟩ := hnodup
    have hlookup : ∀ r, ((m.insert a b).insert b a)[r]? =
        if b = r then some a else if a = r then some b else m[r]? := by
      intro r
      rw [Matching.getElem?_insert_eq, Matching.getElem?_insert_eq]
    have hfresh' : ∀ r ∈ ends rest, ((m.insert a b).insert b a)[r]? = none := by
      intro r hr
      have hra : a ≠ r := fun heq => ha (heq ▸ hr)
      have hrb : b ≠ r := fun heq => hb (heq ▸ hr)
      rw [hlookup, if_neg hrb, if_neg hra]
      apply hfresh r
      simp only [ends, List.flatMap_cons, List.mem_append]
      exact Or.inr hr
    have hma : m[a]? = none := hfresh a (by simp [ends])
    have hmb : m[b]? = none := hfresh b (by simp [ends])
    simp only [List.foldl_cons]
    rw [ih hrest _ hfresh', hlookup]
    by_cases hbp : b = p
    · subst hbp
      simp only [if_true, hmb, List.mem_cons, Prod.mk.injEq]
      grind
    · by_cases hap : a = p
      · subst hap
        simp only [if_true, if_neg hbp, hma, List.mem_cons, Prod.mk.injEq]
        grind
      · simp only [if_neg hbp, if_neg hap, List.mem_cons, Prod.mk.injEq]
        grind

theorem getElem?_ofEdges {edges : List (Point × Point)} (hnodup : (ends edges).Nodup)
    (p q : Point) :
    (Matching.ofEdges edges)[p]? = some q ↔ (p, q) ∈ edges ∨ (q, p) ∈ edges := by
  rw [Matching.ofEdges, getElem?_foldl_insert edges hnodup ∅ (by simp)]
  simp

/-! ### Perfect matchings -/

/-- Sends each of the vertices to another one on the same line, and that one back. -/
structure Perfect (line : Point → Int) (vertices : Point → Prop) (m : Matching) : Prop where
  defined : ∀ p : Point, vertices p ↔ ∃ q : Point, m[p]? = some q
  symm : ∀ p q : Point, m[p]? = some q → m[q]? = some p
  same_line : ∀ p q : Point, m[p]? = some q → line p = line q
  ne : ∀ p q : Point, m[p]? = some q → p ≠ q

theorem ne_of_mem_edges {edges : List (Point × Point)} (hnodup : (ends edges).Nodup) {p q : Point}
    (hedge : (p, q) ∈ edges) : p ≠ q := by
  induction edges with
  | nil => simp at hedge
  | cons edge rest ih =>
    simp only [ends, List.flatMap_cons, List.cons_append, List.nil_append, List.nodup_cons,
      List.mem_cons, not_or] at hnodup
    rcases List.mem_cons.mp hedge with rfl | hedge
    · exact hnodup.1.1
    · exact ih hnodup.2.2 hedge

theorem perfect_ofEdges_pairUp {points : List Point} (h : EvenLines line points) :
    Perfect line (· ∈ points) (Matching.ofEdges (pairUp line points)) := by
  have hends := ends_pairUp h
  have hnodup : (ends (pairUp line points)).Nodup := by
    rw [hends]
    exact h.nodup
  constructor
  · intro p
    have hmem := @mem_ends (pairUp line points) p
    rw [hends] at hmem
    rw [hmem]
    exact exists_congr fun q => (getElem?_ofEdges hnodup p q).symm
  · intro p q hpq
    rw [getElem?_ofEdges hnodup] at hpq ⊢
    exact hpq.symm
  · intro p q hpq
    rcases (getElem?_ofEdges hnodup p q).mp hpq with hedge | hedge
    · exact line_eq_of_mem_pairUp _ hedge
    · exact (line_eq_of_mem_pairUp _ hedge).symm
  · intro p q hpq
    rcases (getElem?_ofEdges hnodup p q).mp hpq with hedge | hedge
    · exact ne_of_mem_edges hnodup hedge
    · exact (ne_of_mem_edges hnodup hedge).symm

end Line

/-! ### Edges along both axes -/

def Axis.line : Axis → Point → Int
  | .vertical => Point.x
  | .horizontal => Point.y

/-- Along both axes the edges match the given vertices perfectly. -/
def Edges.Sound (e : Edges) (vertices : Point → Prop) : Prop :=
  ∀ axis : Axis, Perfect axis.line vertices (e.along axis)

theorem evenLines_columns (boxes : List Box) : EvenLines Point.x (oddCorners boxes) := by
  refine ⟨(oddCorners_increasing boxes).imp ?_, oddCorners_nodup boxes, ?_⟩
  · intro p q hpq
    simp only [Point.Precedes] at hpq
    omega
  · exact oddCorners_even_on_column boxes

theorem evenLines_rows (boxes : List Box) :
    EvenLines Point.y ((oddCorners boxes).mergeSort Point.byRow) := by
  have hperm := List.mergeSort_perm (oddCorners boxes) Point.byRow
  have hsorted := List.pairwise_mergeSort Point.byRow_trans Point.byRow_total (oddCorners boxes)
  refine ⟨hsorted.imp ?_, hperm.nodup_iff.mpr (oddCorners_nodup boxes), ?_⟩
  · intro p q hpq
    rw [Point.byRow_iff] at hpq
    omega
  · intro c
    rw [hperm.countP_eq]
    exact oddCorners_even_on_row boxes c

/-- The edges that the outlines are walked along match all vertices. -/
theorem sound_ofVertices (boxes : List Box) :
    (Edges.ofVertices (oddCorners boxes)).Sound (· ∈ oddCorners boxes) := by
  intro axis
  cases axis with
  | vertical => exact perfect_ofEdges_pairUp (evenLines_columns boxes)
  | horizontal =>
    have hrows := perfect_ofEdges_pairUp (evenLines_rows boxes)
    simp only [List.mem_mergeSort] at hrows
    exact hrows

end Redraw.Outline
