import Redraw.Proofs.Outline.Borders
import Redraw.Proofs.Outline.Canonical

/-!
# How outlines wind

An outline begins at its least vertex and goes down from there. So where no cells touch in a corner only,
it winds around each cell once or not at all, and always in the same direction.
-/

namespace Redraw.Outline

/-! ### Signed areas -/

/-- Twice the signed area of a polygon. -/
def shoelace (polygon : Polygon) : Int :=
  ((sides polygon).map fun side => side.1.x * side.2.y - side.2.x * side.1.y).sum

/-! ### Sums over the vertices in turn -/

/-- The values of the points, added and taken away in turn. -/
def alternately (f : Point → Int) : List Point → Int
  | [] => 0
  | p :: rest => f p - alternately f rest

theorem alternately_add_mul (f g : Point → Int) (a : Int) (points : List Point) :
    alternately (fun p => f p + a * g p) points = alternately f points + a * alternately g points := by
  induction points with
  | nil => simp [alternately]
  | cons p rest ih =>
    simp only [alternately, ih]
    ring

theorem alternately_congr {f g : Point → Int} {points : List Point} (h : ∀ p ∈ points, f p = g p) :
    alternately f points = alternately g points := by
  induction points with
  | nil => rfl
  | cons p rest ih =>
    obtain ⟨hp, hrest⟩ := List.forall_mem_cons.mp h
    rw [alternately, alternately, hp, ih hrest]

theorem alternately_eq_zero {f : Point → Int} {points : List Point} (h : ∀ p ∈ points, f p = 0) :
    alternately f points = 0 := by
  induction points with
  | nil => rfl
  | cons p rest ih =>
    obtain ⟨hp, hrest⟩ := List.forall_mem_cons.mp h
    rw [alternately, hp, ih hrest]
    rfl

theorem alternately_concat (f : Point → Int) (points : List Point) (p : Point) :
    alternately f (points ++ [p]) =
      alternately f points + if points.length % 2 = 0 then f p else -f p := by
  induction points with
  | nil => simp [alternately]
  | cons q rest ih =>
    simp only [List.cons_append, alternately, ih, List.length_cons]
    split <;> split <;> omega

theorem sum_alternately {ι : Type} (cells : Finset ι) (f : ι → Point → Int) (points : List Point) :
    ∑ cell ∈ cells, alternately (f cell) points =
      alternately (fun p => ∑ cell ∈ cells, f cell p) points := by
  induction points with
  | nil => simp [alternately]
  | cons p rest ih => simp only [alternately, Finset.sum_sub_distrib, ih]

section Walks

variable {e : Edges} {f : Point → Int} {polygon : Polygon}

theorem Leads.alternately_eq_zero {start : Point} {axis turn : Axis} {current : Point}
    {met : List Point} (h : Leads e start turn current met)
    (hf : ∀ p ∈ current :: met, ∀ q, (e.along axis)[p]? = some q → f p = f q) :
    alternately f (pointsAlong axis turn start current met) = 0 := by
  induction met generalizing turn current with
  | nil =>
    obtain ⟨rfl, hclose⟩ := h
    cases axis with
    | vertical => rfl
    | horizontal =>
      have hsame := hf current List.mem_cons_self start hclose
      simp [pointsAlong, alternately, hsame]
  | cons next rest ih =>
    obtain ⟨hnext, hleads⟩ := h
    have hrest := ih hleads fun p hp => hf p (List.mem_cons_of_mem _ hp)
    by_cases hturn : turn = axis
    · subst hturn
      have hsame := hf current List.mem_cons_self next hnext
      have hne : turn.turn ≠ turn := turn.turn_ne
      simp only [pointsAlong, if_true, hne, if_false, List.cons_append, alternately] at hrest ⊢
      omega
    · have heq : turn.turn = axis := Axis.turn_of_ne hturn
      simpa only [pointsAlong, hturn, heq, if_true, if_false] using hrest

/-- What is equal at both ends of the sides along one axis cancels out. -/
theorem Outlines.alternately_eq_zero (h : Outlines e polygon) (axis : Axis)
    (hf : ∀ p ∈ polygon, ∀ q, (e.along axis)[p]? = some q → f p = f q) :
    alternately f polygon = 0 := by
  have heven := h.even_length
  obtain ⟨start, met, rfl, hleads⟩ := h
  have hwalk := hleads.alternately_eq_zero hf
  cases axis with
  | vertical => simpa [pointsAlong] using hwalk
  | horizontal =>
    have hodd : ¬met.length % 2 = 0 := by
      rw [List.length_cons] at heven
      omega
    simp only [pointsAlong, reduceCtorEq, if_false, if_true, alternately_concat, if_neg hodd] at hwalk
    rw [alternately]
    omega

theorem Leads.shoelace {vertices : Point → Prop} (hsound : e.Sound vertices) {start : Point}
    {turn : Axis} {current : Point} {met : List Point} (h : Leads e start turn current met) :
    (((current :: met).zip (met ++ [start])).map fun side =>
        side.1.x * side.2.y - side.2.x * side.1.y).sum =
      (if turn = .vertical then -1 else 1) *
          (current.x * current.y - 2 * alternately (fun p => p.x * p.y) met) - start.x * start.y := by
  induction met generalizing turn current with
  | nil =>
    obtain ⟨rfl, hclose⟩ := h
    have hy : current.y = start.y := (hsound .horizontal).same_line current start hclose
    simp [alternately, hy]
  | cons next rest ih =>
    obtain ⟨hnext, hleads⟩ := h
    have hrest := ih hleads
    have hline := (hsound turn).same_line current next hnext
    simp only [List.cons_append, List.zip_cons_cons, List.map_cons, List.sum_cons] at hrest ⊢
    rw [hrest]
    cases turn with
    | vertical =>
      have hx : current.x = next.x := hline
      simp only [Axis.turn, alternately, hx, reduceCtorEq, if_true, if_false]
      ring
    | horizontal =>
      have hy : current.y = next.y := hline
      simp only [Axis.turn, alternately, hy, reduceCtorEq, if_true, if_false]
      ring

theorem Outlines.shoelace {vertices : Point → Prop} (hsound : e.Sound vertices)
    (h : Outlines e polygon) :
    shoelace polygon = -2 * alternately (fun p => p.x * p.y) polygon := by
  obtain ⟨start, met, rfl, hleads⟩ := h
  have hwalk := hleads.shoelace hsound
  rw [if_pos rfl] at hwalk
  rw [Redraw.Outline.shoelace, sides, hwalk, alternately]
  ring

end Walks

/-! ### Winding numbers -/

/-- How often the polygon winds around the cell. -/
def winding (polygon : Polygon) (cell : Int × Int) : Int :=
  alternately (fun p => if inQuadrant cell.1 cell.2 p then 1 else 0) polygon

theorem winding_cell (axis : Axis) (c t : Int) (polygon : Polygon) :
    winding polygon (axis.cell c t) = winding polygon (axis.cell (c - 1) t) +
      alternately (fun p => if axis.upTo c t p then 1 else 0) polygon := by
  have hadd := alternately_add_mul
    (fun p => if inQuadrant (axis.cell (c - 1) t).1 (axis.cell (c - 1) t).2 p then 1 else 0)
    (fun p => if axis.upTo c t p then 1 else 0) 1 polygon
  rw [one_mul] at hadd
  rw [winding, winding, ← hadd]
  apply alternately_congr
  intro p _
  have hone := countP_inQuadrant_cell axis c t [p]
  simp only [List.countP_singleton] at hone
  rw [one_mul]
  exact_mod_cast hone

section Numbers

variable {e : Edges} {vertices : Point → Prop} {polygon : Polygon}

/-- The winding number changes across the sides of the polygon only. -/
theorem Outlines.winding_across (h : Outlines e polygon) (hsound : e.Sound vertices)
    (hnodup : polygon.Nodup) {axis : Axis} {c t : Int}
    (hnone : ∀ p ∈ polygon, ∀ q, (e.along axis)[p]? = some q → ¬axis.Over c t (p, q)) :
    winding polygon (axis.cell c t) = winding polygon (axis.cell (c - 1) t) := by
  rw [winding_cell, h.alternately_eq_zero axis, Int.add_zero]
  intro p hp q hpq
  have hqp := (hsound axis).symm p q hpq
  have hline := (hsound axis).same_line p q hpq
  have hforth := hnone p hp q hpq
  have hback := hnone q (h.closed hsound hnodup p hp axis q hpq) p hqp
  simp only [Axis.Over, ← hline] at hforth hback
  have hsame : axis.upTo c t p = axis.upTo c t q := by
    simp only [Axis.upTo, decide_eq_decide, ← hline]
    tauto
  rw [hsame]

/-- The polygon winds around the cell once or not at all. -/
def Single (polygon : Polygon) (cell : Int × Int) : Prop :=
  winding polygon cell = 0 ∨ winding polygon cell = 1

theorem winding_of_least {first : Point} {rest : List Point}
    (hleast : ∀ p ∈ rest, first.Precedes p) :
    winding (first :: rest) (first.x, first.y) = 1 ∧
      ∀ cell : Int × Int, cell.1 < first.x ∨ cell.1 = first.x ∧ cell.2 < first.y →
        winding (first :: rest) cell = 0 := by
  constructor
  · rw [winding, alternately, alternately_eq_zero]
    · simp [inQuadrant]
    · intro p hp
      have hprecedes := hleast p hp
      simp only [Point.Precedes] at hprecedes
      rw [if_neg]
      simp only [inQuadrant, decide_eq_true_eq]
      omega
  · intro cell hcell
    apply alternately_eq_zero
    intro p hp
    have hprecedes : p = first ∨ first.Precedes p := (List.mem_cons.mp hp).imp_right (hleast p)
    rw [if_neg]
    simp only [inQuadrant, decide_eq_true_eq]
    rcases hprecedes with rfl | hprecedes
    · omega
    · simp only [Point.Precedes] at hprecedes
      omega

theorem around_single_of_least {first : Point} {rest : List Point}
    (hleast : ∀ p ∈ rest, first.Precedes p) : Around (Single (first :: rest)) first := by
  obtain ⟨hone, hzero⟩ := winding_of_least hleast
  simp only [Around, Point.cells, List.forall_mem_cons, List.not_mem_nil, false_implies,
    implies_true, and_true]
  exact ⟨Or.inl (hzero _ (Or.inl (sub_one_lt _))),
    Or.inl (hzero _ (Or.inr ⟨rfl, sub_one_lt _⟩)), Or.inl (hzero _ (Or.inl (sub_one_lt _))),
    Or.inr hone⟩

end Numbers

section Region

variable {rects : List Corners} {polygon : Polygon}

theorem spreads_single (hpolygon : polygon ∈ outlines rects) :
    Spreads (edgesOf rects) (Single polygon) := by
  intro axis c t hnone
  have hsound := sound_ofVertices (disjointBoxes rects)
  have hacross := (outlines_of_mem_boundary hpolygon).winding_across hsound (boundary_nodup hpolygon)
    fun p _ q hpq hover => hnone ⟨p, q, hpq, hover⟩
  rw [Single, Single, hacross]

theorem single_of_clear (hclear : ∀ v, ¬Checkered rects v) (hpolygon : polygon ∈ outlines rects)
    (cell : Int × Int) : Single polygon cell := by
  have hsound := sound_ofVertices (disjointBoxes rects)
  have houtlines := outlines_of_mem_boundary hpolygon
  have hspreads := spreads_single hpolygon
  have haround : ∀ p ∈ polygon, Around (Single polygon) p := by
    obtain ⟨first, rest, rfl, hleast⟩ := boundary_least hpolygon
    exact hspreads.around hclear hpolygon List.mem_cons_self (around_single_of_least hleast)
  obtain ⟨left, hleft⟩ := exists_lt_all polygon
  obtain ⟨i, j⟩ := cell
  have hbefore : ∀ i, i ≤ left → Single polygon (i, j) := by
    intro i hi
    refine Or.inl (alternately_eq_zero fun p hp => if_neg ?_)
    have hlt := hleft p hp
    simp only [inQuadrant, decide_eq_true_eq]
    omega
  rcases Int.le_total i left with hi | hi
  · exact hbefore i hi
  -- to the right the number changes across sides only, and beside these it is known
  induction i, hi using Int.leInduction with
  | base => exact hbefore left (Int.le_refl left)
  | succ i hle ih =>
    by_cases hcross : ∃ p ∈ polygon, ∃ q, ((edgesOf rects).along .vertical)[p]? = some q ∧
        Axis.vertical.Over (i + 1) j (p, q)
    · obtain ⟨p, hp, q, hpq, hline, hbegin, hend⟩ := hcross
      dsimp only at hline hbegin hend
      have hbeside : Single polygon (Axis.vertical.cell (i + 1) j) :=
        hspreads.beside hclear hpq (haround p hp) (Or.inr hline.symm) (by omega) (by omega)
      exact hbeside
    · have hacross : winding polygon (Axis.vertical.cell (i + 1) j) =
          winding polygon (Axis.vertical.cell (i + 1 - 1) j) :=
        houtlines.winding_across hsound (boundary_nodup hpolygon)
          fun p hp q hpq hover => hcross ⟨p, hp, q, hpq, hover⟩
      rw [Int.add_sub_cancel] at hacross
      have hsame : winding polygon (i + 1, j) = winding polygon (i, j) := hacross
      rwa [Single, hsame]

end Region

/-! ### The sum of the winding numbers -/

theorem exists_bound (points : List Point) :
    ∃ n, ∀ p ∈ points, (-n ≤ p.x ∧ p.x < n) ∧ -n ≤ p.y ∧ p.y < n := by
  induction points with
  | nil => exact ⟨0, nofun⟩
  | cons p rest ih =>
    obtain ⟨n, hn⟩ := ih
    refine ⟨max n (max (max (-p.x) (p.x + 1)) (max (-p.y) (p.y + 1))), ?_⟩
    intro q hq
    rcases List.mem_cons.mp hq with rfl | hq
    · omega
    · have hbound := hn q hq
      omega

theorem sum_inQuadrant {n : Int} {p : Point} (hx : -n ≤ p.x ∧ p.x < n) (hy : -n ≤ p.y ∧ p.y < n) :
    ∑ cell ∈ Finset.Ico (-n) n ×ˢ Finset.Ico (-n) n,
        (if inQuadrant cell.1 cell.2 p then 1 else 0 : Int) = (n - p.x) * (n - p.y) := by
  have hcells : (Finset.Ico (-n) n ×ˢ Finset.Ico (-n) n).filter
      (fun cell => inQuadrant cell.1 cell.2 p = true) = Finset.Ico p.x n ×ˢ Finset.Ico p.y n := by
    ext ⟨i, j⟩
    simp only [Finset.mem_filter, Finset.mem_product, Finset.mem_Ico, inQuadrant,
      decide_eq_true_eq]
    omega
  rw [Finset.sum_boole, hcells, Finset.card_product, Int.card_Ico, Int.card_Ico, Nat.cast_mul,
    Int.toNat_of_nonneg (by omega), Int.toNat_of_nonneg (by omega)]

section Area

variable {e : Edges} {vertices : Point → Prop} {polygon : Polygon}

theorem Outlines.sum_winding (h : Outlines e polygon) (hsound : e.Sound vertices) {n : Int}
    (hbound : ∀ p ∈ polygon, (-n ≤ p.x ∧ p.x < n) ∧ -n ≤ p.y ∧ p.y < n) :
    ∑ cell ∈ Finset.Ico (-n) n ×ˢ Finset.Ico (-n) n, winding polygon cell =
      alternately (fun p => p.x * p.y) polygon := by
  have hcolumns : alternately (fun p => p.x) polygon = 0 :=
    h.alternately_eq_zero .vertical fun p _ q hpq => (hsound .vertical).same_line p q hpq
  have hrows : alternately (fun p => p.y - n) polygon = 0 :=
    h.alternately_eq_zero .horizontal fun p _ q hpq =>
      congrArg (· - n) ((hsound .horizontal).same_line p q hpq)
  calc ∑ cell ∈ Finset.Ico (-n) n ×ˢ Finset.Ico (-n) n, winding polygon cell
      = alternately (fun p => (n - p.x) * (n - p.y)) polygon := by
        unfold winding
        rw [sum_alternately]
        exact alternately_congr fun p hp => sum_inQuadrant (hbound p hp).1 (hbound p hp).2
    _ = alternately (fun p => (p.x * p.y + -n * p.x) + -n * (p.y - n)) polygon :=
        alternately_congr fun p _ => by ring
    _ = alternately (fun p => p.x * p.y) polygon := by
        rw [alternately_add_mul, alternately_add_mul, hcolumns, hrows]
        ring

end Area

section Region

variable {rects : List Corners} {polygon : Polygon}

/-- All outlines wind in the same direction. -/
theorem shoelace_neg (hclear : ∀ v, ¬Checkered rects v) (hpolygon : polygon ∈ outlines rects) :
    shoelace polygon < 0 := by
  have hsound := sound_ofVertices (disjointBoxes rects)
  have houtlines := outlines_of_mem_boundary hpolygon
  obtain ⟨n, hbound⟩ := exists_bound polygon
  have hnonneg : ∀ cell, 0 ≤ winding polygon cell := by
    intro cell
    rcases single_of_clear hclear hpolygon cell with h | h <;> omega
  have hpos : 0 < ∑ cell ∈ Finset.Ico (-n) n ×ˢ Finset.Ico (-n) n, winding polygon cell := by
    obtain ⟨first, rest, rfl, hleast⟩ := boundary_least hpolygon
    obtain ⟨hx, hy⟩ := hbound first List.mem_cons_self
    refine Finset.sum_pos' (fun cell _ => hnonneg cell) ⟨(first.x, first.y), ?_, ?_⟩
    · simp only [Finset.mem_product, Finset.mem_Ico]
      exact ⟨hx, hy⟩
    · rw [(winding_of_least hleast).1]
      exact Int.one_pos
  rw [houtlines.sum_winding hsound hbound] at hpos
  rw [houtlines.shoelace hsound]
  omega

end Region

end Redraw.Outline
