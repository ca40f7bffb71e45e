import Redraw.Proofs.Outline.Sides

/-!
# Order of the outlines

Every outline is walked from its least vertex, and the outlines are listed in order of their least
vertices.
-/

namespace Redraw.Outline

/-! ### Least vertices first -/

def LeastFirst (polygon : Polygon) : Prop :=
  ∃ first rest, polygon = first :: rest ∧ ∀ p ∈ rest, first.Precedes p

/-- The first vertex of the one polygon comes before that of the other. -/
def FirstBefore (polygon polygon' : Polygon) : Prop :=
  ∃ first ∈ polygon.head?, ∃ first' ∈ polygon'.head?, first.Precedes first'

theorem Point.Precedes.asymm {p q : Point} (hpq : p.Precedes q) : ¬q.Precedes p := by
  simp only [Precedes] at *
  omega

theorem FirstBefore.asymm {polygon polygon' : Polygon} (h : FirstBefore polygon polygon') :
    ¬FirstBefore polygon' polygon := by
  obtain ⟨p, hp, q, hq, hpq⟩ := h
  intro hback
  obtain ⟨q', hq', p', hp', hqp⟩ := hback
  obtain rfl := Option.mem_unique hp hp'
  obtain rfl := Option.mem_unique hq hq'
  exact hpq.asymm hqp

theorem FirstBefore.ne {polygon polygon' : Polygon} (h : FirstBefore polygon polygon') :
    polygon ≠ polygon' := by
  rintro rfl
  exact h.asymm h

/-- Taking starts in increasing order makes each of them the least vertex of its outline. -/
theorem outlinesThrough_least {points : List Point} {e : Edges} {vertices : Point → Prop}
    (hsound : e.Sound vertices) (hpoints : ∀ p, vertices p → p ∈ points)
    (hsorted : points.Pairwise Point.Precedes) :
    (∀ polygon ∈ outlinesThrough points e, LeastFirst polygon) ∧
      (outlinesThrough points e).Pairwise FirstBefore := by
  induction points generalizing e vertices with
  | nil => simp [outlinesThrough]
  | cons start rest ih =>
    have hcontains := contains_horizontal_iff hsound start
    have hlater : ∀ p ∈ rest, start.Precedes p := fun p hp => List.rel_of_pairwise_cons hsorted hp
    have hrest : ∀ p, vertices p → p ≠ start → p ∈ rest := by
      intro p hp hne
      exact (List.mem_cons.mp (hpoints p hp)).resolve_left hne
    rw [outlinesThrough]
    by_cases hstart : vertices start
    · rw [if_pos (hcontains.mpr hstart)]
      obtain ⟨houtline, hmem, hnodup, hvertex⟩ := outlineAt_walk hsound hstart
      obtain ⟨-, hremaining⟩ := outlineAt_remaining hsound hstart
      have hkept : ∀ p, vertices p ∧ p ∉ (outlineAt start e).1 → p ∈ rest := by
        intro p hp
        exact hrest p hp.1 fun heq => hp.2 (heq ▸ hmem)
      obtain ⟨hleast, hordered⟩ := ih hremaining hkept hsorted.of_cons
      obtain ⟨-, -, hshare⟩ := outlinesThrough_share rest hremaining hkept
      refine ⟨List.forall_mem_cons.mpr ⟨⟨start, _, rfl, ?_⟩, hleast⟩,
        List.Pairwise.cons ?_ hordered⟩
      · intro p hp
        have hne : p ≠ start := fun heq => (List.nodup_cons.mp hnodup).1 (heq ▸ hp)
        exact hlater p (hrest p (hvertex p (List.mem_cons_of_mem _ hp)) hne)
      · -- the first vertex of a later outline is one of the vertices that remain
        intro polygon hpolygon
        obtain ⟨first, met, rfl, -⟩ := hleast polygon hpolygon
        have hfirst := (hshare first).mp (List.mem_flatten.mpr ⟨_, hpolygon, List.mem_cons_self⟩)
        exact ⟨start, rfl, first, rfl, hlater first (hkept first hfirst)⟩
    · rw [if_neg fun h => hstart (hcontains.mp h)]
      refine ih hsound ?_ hsorted.of_cons
      exact fun p hp => hrest p hp fun heq => hstart (heq ▸ hp)

theorem boundary_least {boxes : List Box} {polygon : Polygon} (h : polygon ∈ boundary boxes) :
    LeastFirst polygon :=
  (outlinesThrough_least (sound_ofVertices boxes) (fun _ hp => hp)
    (oddCorners_increasing boxes)).1 polygon h

theorem boundary_ordered (boxes : List Box) : (boundary boxes).Pairwise FirstBefore :=
  (outlinesThrough_least (sound_ofVertices boxes) (fun _ hp => hp) (oddCorners_increasing boxes)).2

theorem boundary_distinct (boxes : List Box) : (boundary boxes).Nodup :=
  (boundary_ordered boxes).imp FirstBefore.ne

/-! ### Walks along the same edges -/

/-- Edges never lead out of the set. -/
def Closed (e : Edges) (points : Point → Prop) : Prop :=
  ∀ p, points p → ∀ (a : Axis) (q : Point), (e.along a)[p]? = some q → points q

theorem Closed.compl {e : Edges} {vertices points : Point → Prop} (hsound : e.Sound vertices)
    (h : Closed e points) : Closed e fun p => ¬points p := by
  intro p hp a q hpq hq
  exact hp (h q hq a p ((hsound a).symm p q hpq))

theorem Leads.stays {e : Edges} {points : Point → Prop} (hclosed : Closed e points)
    {start current : Point} {axis : Axis} {met : List Point} (h : Leads e start axis current met)
    (hcurrent : points current) : ∀ p ∈ met, points p := by
  induction met generalizing axis current with
  | nil => simp
  | cons next rest ih =>
    have hnext := hclosed current hcurrent axis next h.1
    exact List.forall_mem_cons.mpr ⟨hnext, ih h.2 hnext⟩

theorem Outlines.stays {e : Edges} {vertices points : Point → Prop} (hsound : e.Sound vertices)
    (hclosed : Closed e points) {polygon : Polygon} (h : Outlines e polygon) {p : Point}
    (hp : p ∈ polygon) (hin : points p) : ∀ q ∈ polygon, points q := by
  obtain ⟨start, met, rfl, hleads⟩ := h
  -- no edge leads into the set either, so the walk is in it or out of it from its start on
  by_cases hstart : points start
  · exact List.forall_mem_cons.mpr ⟨hstart, hleads.stays hclosed hstart⟩
  · have hout := hleads.stays (hclosed.compl hsound) hstart
    rcases List.mem_cons.mp hp with rfl | hmem
    · exact absurd hin hstart
    · exact absurd hin (hout p hmem)

theorem Leads.vertex {e : Edges} {vertices : Point → Prop} (hsound : e.Sound vertices)
    {start current : Point} {axis : Axis} {met : List Point} (h : Leads e start axis current met) :
    vertices current := by
  cases met with
  | nil => exact ((hsound axis).defined current).mpr ⟨start, h.2⟩
  | cons next rest => exact ((hsound axis).defined current).mpr ⟨next, h.1⟩

theorem Leads.unique {e : Edges} {start current : Point} {axis : Axis} {met met' : List Point}
    (h : Leads e start axis current met) (h' : Leads e start axis current met')
    (hnew : start ∉ met) (hnew' : start ∉ met') : met = met' := by
  induction met generalizing axis current met' with
  | nil =>
    cases met' with
    | nil => rfl
    | cons next rest =>
      obtain rfl := Option.some.inj (h.2.symm.trans h'.1)
      exact absurd List.mem_cons_self hnew'
  | cons next rest ih =>
    cases met' with
    | nil =>
      obtain rfl := Option.some.inj (h.1.symm.trans h'.2)
      exact absurd List.mem_cons_self hnew
    | cons next' rest' =>
      obtain rfl := Option.some.inj (h.1.symm.trans h'.1)
      have hrest : start ∉ rest := fun hmem => hnew (List.mem_cons_of_mem _ hmem)
      have hrest' : start ∉ rest' := fun hmem => hnew' (List.mem_cons_of_mem _ hmem)
      rw [ih h.2 h'.2 hrest hrest']

theorem closed_outlineAt {e : Edges} {vertices : Point → Prop} (hsound : e.Sound vertices)
    {start : Point} (hstart : vertices start) : Closed e (· ∈ (outlineAt start e).1) := by
  obtain ⟨hlookup, hremaining⟩ := outlineAt_remaining hsound hstart
  intro p hp a q hpq
  by_cases hq : q ∈ (outlineAt start e).1
  · exact hq
  · -- the edge at `q` would be left and lead back to a vertex that is gone
    have hleft : ((outlineAt start e).2.along a)[q]? = some p := by
      rw [hlookup, if_neg hq]
      exact (hsound a).symm p q hpq
    have hback := (hremaining a).symm q p hleft
    rw [hlookup, if_pos hp] at hback
    cases hback

section Walks

variable {e : Edges} {vertices : Point → Prop} {polygon polygon' : Polygon}

theorem Outlines.closed (hsound : e.Sound vertices) (h : Outlines e polygon)
    (hnodup : polygon.Nodup) : Closed e (· ∈ polygon) := by
  obtain ⟨start, met, rfl, hleads⟩ := h
  have hstart := hleads.vertex hsound
  obtain ⟨⟨start', met', heq, hleads'⟩, -, hnodup', -⟩ := outlineAt_walk hsound hstart
  have hclosed := closed_outlineAt hsound hstart
  obtain ⟨rfl, rfl⟩ := List.cons.inj heq
  have hmet := hleads.unique hleads' (List.nodup_cons.mp hnodup).1 (List.nodup_cons.mp hnodup').1
  rw [hmet]
  exact hclosed

theorem Outlines.eq_of_shared (hsound : e.Sound vertices) (h : Outlines e polygon)
    (h' : Outlines e polygon') (hnodup : polygon.Nodup) (hnodup' : polygon'.Nodup)
    (hleast : LeastFirst polygon) (hleast' : LeastFirst polygon') {p : Point} (hp : p ∈ polygon)
    (hp' : p ∈ polygon') : polygon = polygon' := by
  have hsub : ∀ q ∈ polygon, q ∈ polygon' := h.stays hsound (h'.closed hsound hnodup') hp hp'
  have hsub' : ∀ q ∈ polygon', q ∈ polygon := h'.stays hsound (h.closed hsound hnodup) hp' hp
  obtain ⟨start, met, rfl, hleads⟩ := h
  obtain ⟨start', met', rfl, hleads'⟩ := h'
  obtain ⟨first, rest, heq, hfirst⟩ := hleast
  obtain ⟨first', rest', heq', hfirst'⟩ := hleast'
  obtain ⟨rfl, rfl⟩ := List.cons.inj heq
  obtain ⟨rfl, rfl⟩ := List.cons.inj heq'
  have hstart : start = start' := by
    rcases List.mem_cons.mp (hsub start List.mem_cons_self) with h | hmem
    · exact h
    rcases List.mem_cons.mp (hsub' start' List.mem_cons_self) with h | hmem'
    · exact h.symm
    · exact absurd (hfirst start' hmem') (hfirst' start hmem).asymm
  subst hstart
  rw [hleads.unique hleads' (List.nodup_cons.mp hnodup).1 (List.nodup_cons.mp hnodup').1]

end Walks

/-! ### Members of the list -/

section Boundary

variable {boxes : List Box} {polygon : Polygon}

theorem boundary_nodup (h : polygon ∈ boundary boxes) : polygon.Nodup :=
  (List.nodup_flatten.mp (flatten_boundary_nodup boxes)).1 polygon h

theorem exists_mem_boundary {p : Point} (hp : p ∈ oddCorners boxes) :
    ∃ polygon ∈ boundary boxes, p ∈ polygon :=
  List.mem_flatten.mp ((flatten_boundary_perm boxes).mem_iff.mpr hp)

theorem mem_of_mem_boundary (h : polygon ∈ boundary boxes) : ∀ p ∈ polygon, p ∈ oddCorners boxes :=
  fun _ hp => (flatten_boundary_perm boxes).mem_iff.mp (List.mem_flatten.mpr ⟨polygon, h, hp⟩)

/-- The outlines of boxes are the closed walks along their edges that begin at their least vertex. -/
theorem mem_boundary_iff : polygon ∈ boundary boxes ↔
    Outlines (.ofVertices (oddCorners boxes)) polygon ∧ polygon.Nodup ∧ LeastFirst polygon := by
  constructor
  · exact fun h => ⟨outlines_of_mem_boundary h, boundary_nodup h, boundary_least h⟩
  · intro h
    obtain ⟨houtlines, hnodup, hleast⟩ := h
    have hsound := sound_ofVertices boxes
    obtain ⟨start, met, rfl, hleads⟩ := id houtlines
    have hstart := hleads.vertex hsound
    obtain ⟨polygon, hpolygon, hmem⟩ := exists_mem_boundary hstart
    rw [houtlines.eq_of_shared hsound (outlines_of_mem_boundary hpolygon) hnodup
      (boundary_nodup hpolygon) hleast (boundary_least hpolygon) List.mem_cons_self hmem]
    exact hpolygon

theorem eq_of_mem_boundary {polygon' : Polygon} (h : polygon ∈ boundary boxes)
    (h' : polygon' ∈ boundary boxes) {p : Point} (hp : p ∈ polygon) (hp' : p ∈ polygon') :
    polygon = polygon' :=
  (outlines_of_mem_boundary h).eq_of_shared (sound_ofVertices boxes) (outlines_of_mem_boundary h')
    (boundary_nodup h) (boundary_nodup h') (boundary_least h) (boundary_least h') hp hp'

/-- Different outlines that meet every vertex are all of them. -/
theorem perm_boundary {polygons : List Polygon} (hnodup : polygons.Nodup)
    (hmem : ∀ polygon ∈ polygons, polygon ∈ boundary boxes)
    (hall : ∀ p ∈ oddCorners boxes, ∃ polygon ∈ polygons, p ∈ polygon) :
    polygons.Perm (boundary boxes) := by
  refine (List.perm_ext_iff_of_nodup hnodup (boundary_distinct boxes)).mpr ?_
  intro polygon
  refine ⟨hmem polygon, ?_⟩
  intro hpolygon
  obtain ⟨first, rest, rfl, -⟩ := boundary_least hpolygon
  obtain ⟨polygon', hpolygon', hfirst⟩ :=
    hall first (mem_of_mem_boundary hpolygon first List.mem_cons_self)
  rw [eq_of_mem_boundary hpolygon (hmem _ hpolygon') List.mem_cons_self hfirst]
  exact hpolygon'

end Boundary

end Redraw.Outline
