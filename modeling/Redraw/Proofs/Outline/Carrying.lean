import Redraw.Proofs.Outline.Crossing
import Redraw.Proofs.Outline.Listing

namespace Redraw.Outline

/-! ### Edges from vertices -/

section Edges

variable {boxes : List Box} {axis : Axis} {p q : Point}

theorem exists_over_of_odd {c t : Int} (hodd : (oddCorners boxes).countP (axis.upTo c t) % 2 = 1) :
    ∃ p q, ((Edges.ofVertices (oddCorners boxes)).along axis)[p]? = some q ∧
      axis.Over c t (p, q) := by
  have hparity := upTo_parity boxes axis c t
  obtain ⟨p, -, hbegins⟩ := List.countP_pos_iff.mp (show 0 < (oddCorners boxes).countP
    ((Edges.ofVertices (oddCorners boxes)).beginsOver axis c t) by omega)
  simp only [Edges.beginsOver] at hbegins
  split at hbegins
  · next q hpq => exact ⟨p, q, hpq, of_decide_eq_true hbegins⟩
  · cases hbegins

theorem odd_upTo_of_onwards
    (hpq : ((Edges.ofVertices (oddCorners boxes)).along axis)[p]? = some q)
    (honwards : axis.place p < axis.place q) :
    (oddCorners boxes).countP (axis.upTo (axis.line p) (axis.place p)) % 2 = 1 :=
  odd_upTo_of_over hpq (axis.over_of_lt rfl (Int.le_refl _) honwards)

theorem place_le_of_onwards {v : Point}
    (hpq : ((Edges.ofVertices (oddCorners boxes)).along axis)[p]? = some q)
    (honwards : axis.place p < axis.place q) (hv : v ∈ oddCorners boxes)
    (hline : axis.line v = axis.line p) (hafter : axis.place p < axis.place v) :
    axis.place q ≤ axis.place v := by
  by_contra hbefore
  rcases eq_end_of_onwards hpq honwards hv hline (by omega) (by omega) with h | h
  · exact absurd hafter (h ▸ Int.lt_irrefl _)
  · exact hbefore (h ▸ Int.le_refl _)

/-- A vertex that is the last of an odd number on its line has an edge to the next one. -/
theorem along_of_odd (hp : p ∈ oddCorners boxes) (hq : q ∈ oddCorners boxes)
    (hline : axis.line p = axis.line q) (honwards : axis.place p < axis.place q)
    (hnext : ∀ v ∈ oddCorners boxes, axis.line v = axis.line p → axis.place p < axis.place v →
      axis.place q ≤ axis.place v)
    (hodd : (oddCorners boxes).countP (axis.upTo (axis.line p) (axis.place p)) % 2 = 1) :
    ((Edges.ofVertices (oddCorners boxes)).along axis)[p]? = some q := by
  obtain ⟨a, b, hab, hover⟩ := exists_over_of_odd hodd
  obtain ⟨hline', hbegin, hend⟩ := hover
  simp only [Int.not_le] at hline' hbegin hend
  have hsound := sound_ofVertices boxes axis
  have hsame := hsound.same_line a b hab
  have hb := (hsound.defined b).mpr ⟨a, hsound.symm a b hab⟩
  -- the edge that goes over the place of the vertex begins there
  have hpa : p = a := by
    rcases eq_end_of_onwards hab (by omega) hp hline'.symm hbegin (Int.le_of_lt hend) with h | h
    · exact h
    · subst h
      omega
  subst hpa
  have hle := hnext b hb hsame.symm hend
  rcases eq_end_of_onwards hab hend hq hline.symm (Int.le_of_lt honwards) hle with h | h
  · subst h
    omega
  · rw [h]
    exact hab

end Edges

/-! ### Maps that carry outlines over -/

theorem Point.precedes_or {p q : Point} (hne : p ≠ q) : p.Precedes q ∨ q.Precedes p := by
  cases p
  cases q
  simp only [Precedes, ne_eq, mk.injEq] at *
  omega

/-- The map keeps the order of the vertices, and it sends edges that lead onwards to edges. -/
structure Carried (boxes boxes' : List Box) (image : Point → Point) : Prop where
  ordered : ∀ p ∈ oddCorners boxes, ∀ q ∈ oddCorners boxes, p.Precedes q →
    (image p).Precedes (image q)
  onwards : ∀ (axis : Axis) (p q : Point),
    ((Edges.ofVertices (oddCorners boxes)).along axis)[p]? = some q →
      axis.place p < axis.place q →
        ((Edges.ofVertices (oddCorners boxes')).along axis)[image p]? = some (image q)

namespace Carried

variable {boxes boxes' : List Box} {image : Point → Point}

theorem along (h : Carried boxes boxes' image) {axis : Axis} {p q : Point}
    (hpq : ((Edges.ofVertices (oddCorners boxes)).along axis)[p]? = some q) :
    ((Edges.ofVertices (oddCorners boxes')).along axis)[image p]? = some (image q) := by
  have hsound := sound_ofVertices boxes axis
  have hsame := hsound.same_line p q hpq
  have hne : axis.place p ≠ axis.place q := fun heq => hsound.ne p q hpq (axis.ext hsame heq)
  rcases Int.lt_or_gt_of_ne hne with hlt | hgt
  · exact h.onwards axis p q hpq hlt
  · have hback := h.onwards axis q p (hsound.symm p q hpq) hgt
    exact (sound_ofVertices boxes' axis).symm _ _ hback

theorem leads (h : Carried boxes boxes' image) {start current : Point} {axis : Axis}
    {met : List Point} (hleads : Leads (.ofVertices (oddCorners boxes)) start axis current met) :
    Leads (.ofVertices (oddCorners boxes')) (image start) axis (image current)
      (met.map image) := by
  induction met generalizing axis current with
  | nil => exact ⟨hleads.1, h.along hleads.2⟩
  | cons next rest ih => exact ⟨h.along hleads.1, ih hleads.2⟩

theorem injective (h : Carried boxes boxes' image) :
    ∀ p ∈ oddCorners boxes, ∀ q ∈ oddCorners boxes, image p = image q → p = q := by
  intro p hp q hq heq
  by_contra hne
  rcases Point.precedes_or hne with hpq | hqp
  · exact (h.ordered p hp q hq hpq).ne heq
  · exact (h.ordered q hq p hp hqp).ne heq.symm

theorem mem_boundary (h : Carried boxes boxes' image) {polygon : Polygon}
    (hpolygon : polygon ∈ boundary boxes) : polygon.map image ∈ boundary boxes' := by
  have hvertex := mem_of_mem_boundary hpolygon
  obtain ⟨houtlines, hnodup, hleast⟩ := mem_boundary_iff.mp hpolygon
  refine mem_boundary_iff.mpr ⟨?_, ?_, ?_⟩
  · obtain ⟨start, met, rfl, hleads⟩ := houtlines
    exact ⟨image start, met.map image, rfl, h.leads hleads⟩
  · exact hnodup.map_on fun p hp q hq => h.injective p (hvertex p hp) q (hvertex q hq)
  · obtain ⟨first, rest, rfl, hfirst⟩ := hleast
    refine ⟨image first, rest.map image, rfl, ?_⟩
    rw [List.forall_mem_map]
    intro p hp
    exact h.ordered first (hvertex first List.mem_cons_self) p
      (hvertex p (List.mem_cons_of_mem _ hp)) (hfirst p hp)

theorem ordered_map (h : Carried boxes boxes' image) :
    ((boundary boxes).map (List.map image)).Pairwise FirstBefore := by
  refine List.pairwise_map.mpr ((boundary_ordered boxes).imp_of_mem ?_)
  intro polygon polygon' hpolygon hpolygon' hbefore
  obtain ⟨p, hp, q, hq, hpq⟩ := hbefore
  have hvertex := mem_of_mem_boundary hpolygon p (List.mem_of_mem_head? hp)
  have hvertex' := mem_of_mem_boundary hpolygon' q (List.mem_of_mem_head? hq)
  refine ⟨image p, ?_, image q, ?_, h.ordered p hvertex q hvertex' hpq⟩
  · rw [List.head?_map, hp]
    rfl
  · rw [List.head?_map, hq]
    rfl

end Carried

end Redraw.Outline
