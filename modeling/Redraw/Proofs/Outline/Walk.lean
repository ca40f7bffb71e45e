import Redraw.Proofs.Outline.Pairing

/-!
# Walks along outlines

Of the vertices that a walk has seen only two directions are open: the one it takes next, and the
horizontal one at its start. So it comes upon a new vertex or back to its start.
-/

namespace Redraw.Outline

/-! ### Edges that are taken out -/

theorem Edges.getElem?_along_erase (e : Edges) (p q : Point) (axis a : Axis) :
    ((e.erase p axis).along a)[q]? = if a = axis ∧ p = q then none else (e.along a)[q]? := by
  cases axis <;> cases a <;> simp [erase, along, Matching.getElem?_erase_eq]

theorem Edges.getElem?_along_eraseVertex (e : Edges) (p q : Point) (a : Axis) :
    ((e.eraseVertex p).along a)[q]? = if p = q then none else (e.along a)[q]? := by
  cases a <;> exact Matching.getElem?_erase_eq _ _ _

theorem Edges.getElem?_along_foldl_eraseVertex (points : List Point) (e : Edges) (q : Point)
    (a : Axis) :
    ((points.foldl Edges.eraseVertex e).along a)[q]? =
      if q ∈ points then none else (e.along a)[q]? := by
  induction points generalizing e with
  | nil => simp
  | cons p rest ih =>
    rw [List.foldl_cons, ih, getElem?_along_eraseVertex]
    by_cases hrest : q ∈ rest
    · rw [if_pos hrest, if_pos (List.mem_cons_of_mem _ hrest)]
    · rw [if_neg hrest]
      by_cases hpq : p = q
      · rw [if_pos hpq, if_pos (hpq ▸ List.mem_cons_self)]
      · have hne : q ∉ p :: rest := by
          simp only [List.mem_cons, not_or]
          exact ⟨fun heq => hpq heq.symm, hrest⟩
        rw [if_neg hpq, if_neg hne]

theorem Axis.turn_ne (axis : Axis) : axis.turn ≠ axis := by
  cases axis <;> simp [turn]

theorem Axis.eq_of_ne_turn {axis a : Axis} (h : a ≠ axis.turn) : a = axis := by
  cases axis <;> cases a <;> simp_all [turn]

theorem Axis.turn_of_ne {axis a : Axis} (h : a ≠ axis) : a.turn = axis := by
  cases axis <;> cases a <;> first | rfl | exact absurd rfl h

/-! ### Walks -/

/-- From `current` the edges lead through `met`, along the two axes in turn, and back to `start` by a
horizontal edge. -/
def Leads (e : Edges) (start : Point) : Axis → Point → List Point → Prop
  | axis, current, [] => axis = .horizontal ∧ (e.along axis)[current]? = some start
  | axis, current, next :: rest =>
    (e.along axis)[current]? = some next ∧ Leads e start axis.turn next rest

theorem Leads.mono {e f : Edges} {start : Point}
    (hsub : ∀ (a : Axis) (p q : Point), (e.along a)[p]? = some q → (f.along a)[p]? = some q)
    {axis : Axis} {current : Point} {met : List Point} (h : Leads e start axis current met) :
    Leads f start axis current met := by
  induction met generalizing axis current with
  | nil => exact ⟨h.1, hsub axis current start h.2⟩
  | cons next rest ih => exact ⟨hsub axis current next h.1, ih h.2⟩

/-- The two directions in which the edges of a walk have not been closed up. -/
def OpenEnd (start current : Point) (axis : Axis) (p : Point) (a : Axis) : Prop :=
  p = current ∧ a = axis ∨ p = start ∧ a = .horizontal

/-- A walk along `e` that has `seen` some vertices and goes on from `current`; `edges` are left. -/
structure Walking (e : Edges) (vertices : Point → Prop) (start : Point) (seen : List Point)
    (current : Point) (axis : Axis) (edges : Edges) : Prop where
  nodup : seen.Nodup
  start_mem : start ∈ seen
  current_mem : current ∈ seen
  vertex : ∀ p ∈ seen, vertices p
  outset : current = start → axis = .vertical
  closed : ∀ p ∈ seen, ∀ (a : Axis) (q : Point), ¬OpenEnd start current axis p a →
    (e.along a)[p]? = some q → q ∈ seen ∧ ¬OpenEnd start current axis q a
  ahead : (edges.along axis)[current]? = (e.along axis)[current]?
  untouched : ∀ p, p ∉ seen → ∀ a : Axis, (edges.along a)[p]? = (e.along a)[p]?

section Steps

variable {e edges : Edges} {vertices : Point → Prop} {start current next : Point}
  {seen : List Point} {axis : Axis}

theorem walking_start (hstart : vertices start) :
    Walking e vertices start [start] start .vertical (e.erase start .horizontal) := by
  constructor
  · simp
  · simp
  · simp
  · intro p hp
    exact List.mem_singleton.mp hp ▸ hstart
  · exact fun _ => rfl
  · intro p hp a q hopen _
    refine absurd ?_ hopen
    cases a with
    | vertical => exact Or.inl ⟨List.mem_singleton.mp hp, rfl⟩
    | horizontal => exact Or.inr ⟨List.mem_singleton.mp hp, rfl⟩
  · rw [Edges.getElem?_along_erase]
    simp
  · intro p hp a
    have hne : start ≠ p := fun heq => hp (heq ▸ List.mem_singleton_self _)
    rw [Edges.getElem?_along_erase, if_neg fun h => hne h.2]

theorem Walking.next_not_mem (h : Walking e vertices start seen current axis edges)
    (hsound : e.Sound vertices) (hnext : (e.along axis)[current]? = some next)
    (hopen : ¬(next = start ∧ axis = .horizontal)) : next ∉ seen := by
  intro hmem
  have hback := (hsound axis).symm current next hnext
  have hne := (hsound axis).ne current next hnext
  have hclosed : ¬OpenEnd start current axis next axis := by
    intro hcases
    rcases hcases with ⟨heq, _⟩ | hstart
    · exact hne heq.symm
    · exact hopen hstart
  exact (h.closed next hmem axis current hclosed hback).2 (Or.inl ⟨rfl, rfl⟩)

theorem Walking.step (h : Walking e vertices start seen current axis edges)
    (hsound : e.Sound vertices) (hnext : (e.along axis)[current]? = some next)
    (hopen : ¬(next = start ∧ axis = .horizontal)) :
    Walking e vertices start (next :: seen) next axis.turn (edges.erase current axis) := by
  have hnew := h.next_not_mem hsound hnext hopen
  have hback := (hsound axis).symm current next hnext
  have hne_start : next ≠ start := fun heq => hnew (heq ▸ h.start_mem)
  have hne_current : current ≠ next := (hsound axis).ne current next hnext
  constructor
  · exact List.nodup_cons.mpr ⟨hnew, h.nodup⟩
  · exact List.mem_cons_of_mem _ h.start_mem
  · exact List.mem_cons_self
  · intro p hp
    rcases List.mem_cons.mp hp with rfl | hp
    · exact ((hsound axis).defined p).mpr ⟨current, hback⟩
    · exact h.vertex p hp
  · exact fun heq => absurd heq hne_start
  · intro p hp a q hclosed hpq
    rcases List.mem_cons.mp hp with rfl | hp
    · -- The edge by which the walk arrived joins the new vertex to `current`.
      have ha : a = axis := Axis.eq_of_ne_turn fun heq => hclosed (Or.inl ⟨rfl, heq⟩)
      subst ha
      have hq : q = current := Option.some.inj (hpq.symm.trans hback)
      subst hq
      refine ⟨List.mem_cons_of_mem _ h.current_mem, ?_⟩
      intro hcases
      rcases hcases with ⟨heq, _⟩ | ⟨heq, hhor⟩
      · exact hne_current heq
      · exact absurd ((h.outset heq).symm.trans hhor) (by simp)
    · by_cases hold : OpenEnd start current axis p a
      · rcases hold with ⟨rfl, rfl⟩ | hstart
        · have hq : q = next := Option.some.inj (hpq.symm.trans hnext)
          subst hq
          refine ⟨List.mem_cons_self, ?_⟩
          intro hcases
          rcases hcases with ⟨_, hturn⟩ | ⟨heq, _⟩
          · exact a.turn_ne hturn.symm
          · exact hne_start heq
        · exact absurd (Or.inr hstart) hclosed
      · obtain ⟨hmem, hq⟩ := h.closed p hp a q hold hpq
        refine ⟨List.mem_cons_of_mem _ hmem, ?_⟩
        intro hcases
        rcases hcases with ⟨heq, _⟩ | hstart
        · exact hnew (heq ▸ hmem)
        · exact hq (Or.inr hstart)
  · rw [Edges.getElem?_along_erase, if_neg fun heq => axis.turn_ne heq.1]
    exact h.untouched next hnew axis.turn
  · intro p hp a
    have hne : current ≠ p := fun heq => hp (List.mem_cons_of_mem _ (heq ▸ h.current_mem))
    rw [Edges.getElem?_along_erase, if_neg fun heq => hne heq.2]
    exact h.untouched p (fun hmem => hp (List.mem_cons_of_mem _ hmem)) a

/-- What a closed walk leaves behind: every edge of a vertex that it has seen leads to another one. -/
structure Walked (e : Edges) (vertices : Point → Prop) (seen : List Point) (edges : Edges) : Prop where
  nodup : seen.Nodup
  vertex : ∀ p ∈ seen, vertices p
  closed : ∀ p ∈ seen, ∀ (a : Axis) (q : Point), (e.along a)[p]? = some q → q ∈ seen
  untouched : ∀ p, p ∉ seen → ∀ a : Axis, (edges.along a)[p]? = (e.along a)[p]?

theorem Walking.close (h : Walking e vertices start seen current .horizontal edges)
    (hsound : e.Sound vertices) (hnext : (e.along .horizontal)[current]? = some start) :
    Walked e vertices seen (edges.erase current .horizontal) := by
  have hback := (hsound .horizontal).symm current start hnext
  refine ⟨h.nodup, h.vertex, ?_, ?_⟩
  · intro p hp a q hpq
    by_cases hopen : OpenEnd start current .horizontal p a
    · rcases hopen with ⟨rfl, rfl⟩ | ⟨rfl, rfl⟩
      · exact Option.some.inj (hpq.symm.trans hnext) ▸ h.start_mem
      · exact Option.some.inj (hpq.symm.trans hback) ▸ h.current_mem
    · exact (h.closed p hp a q hopen hpq).1
  · intro p hp a
    have hne : current ≠ p := fun heq => hp (heq ▸ h.current_mem)
    rw [Edges.getElem?_along_erase, if_neg fun heq => hne heq.2]
    exact h.untouched p hp a

theorem follow_close (hsome : (edges.along .horizontal)[current]? = some start) :
    follow start current .horizontal edges = ([], edges.erase current .horizontal) := by
  rw [follow]
  split
  · next hnone => exact absurd (hnone.symm.trans hsome) (by simp)
  · next found hfound =>
    have heq : found = start := Option.some.inj (hfound.symm.trans hsome)
    rw [if_pos ⟨heq, rfl⟩]

theorem follow_next (hsome : (edges.along axis)[current]? = some next)
    (hopen : ¬(next = start ∧ axis = .horizontal)) :
    follow start current axis edges =
      (next :: (follow start next axis.turn (edges.erase current axis)).1,
        (follow start next axis.turn (edges.erase current axis)).2) := by
  rw [follow]
  split
  · next hnone => exact absurd (hnone.symm.trans hsome) (by simp)
  · next found hfound =>
    obtain rfl : found = next := Option.some.inj (hfound.symm.trans hsome)
    rw [if_neg hopen]

/-- From `current` there is an edge to take at each step, along the axes in turn, through `met` and back to
`start` by a horizontal one. Each edge is taken out in the direction in which it was followed; `left` is
what remains. -/
inductive Returns (start : Point) : Axis → Point → Edges → List Point → Edges → Prop where
  | home {current : Point} {edges : Edges} (hsome : (edges.along .horizontal)[current]? = some start) :
    Returns start .horizontal current edges [] (edges.erase current .horizontal)
  | hop {axis : Axis} {current next : Point} {edges left : Edges} {met : List Point}
    (hsome : (edges.along axis)[current]? = some next)
    (hopen : ¬(next = start ∧ axis = .horizontal))
    (rest : Returns start axis.turn next (edges.erase current axis) met left) :
    Returns start axis current edges (next :: met) left

theorem Returns.follow_eq {met : List Point} {left : Edges}
    (h : Returns start axis current edges met left) :
    follow start current axis edges = (met, left) := by
  induction h with
  | home hsome => exact follow_close hsome
  | hop hsome hopen _ ih => rw [follow_next hsome hopen, ih]

theorem Returns.walked {met : List Point} {left : Edges} (hsound : e.Sound vertices)
    (h : Returns start axis current edges met left)
    (hwalking : Walking e vertices start seen current axis edges) :
    Leads e start axis current met ∧ Walked e vertices (met.reverse ++ seen) left := by
  induction h generalizing seen with
  | home hsome =>
    have hnext := hwalking.ahead.symm.trans hsome
    exact ⟨⟨rfl, hnext⟩, hwalking.close hsound hnext⟩
  | hop hsome hopen _ ih =>
    have hnext := hwalking.ahead.symm.trans hsome
    obtain ⟨hleads, hwalked⟩ := ih (hwalking.step hsound hnext hopen)
    refine ⟨⟨hnext, hleads⟩, ?_⟩
    simpa only [List.reverse_cons, List.append_assoc, List.singleton_append] using hwalked

/-- A walk is never stopped by a missing edge: it comes back to its start. -/
theorem Walking.returns (hsound : e.Sound vertices)
    (h : Walking e vertices start seen current axis edges) :
    ∃ met left, Returns start axis current edges met left := by
  induction hsize : edges.size using Nat.strongRecOn generalizing current axis edges seen with
  | ind size ih =>
    obtain ⟨next, hnext⟩ := ((hsound axis).defined current).mp (h.vertex current h.current_mem)
    have hsome := h.ahead.trans hnext
    by_cases hclose : next = start ∧ axis = .horizontal
    · obtain ⟨rfl, rfl⟩ := hclose
      exact ⟨[], _, .home hsome⟩
    · have hlt := Edges.size_erase_lt edges axis current next hsome
      obtain ⟨met, left, hreturns⟩ := ih _ (hsize ▸ hlt) (h.step hsound hnext hclose) rfl
      exact ⟨next :: met, left, .hop hsome hclose hreturns⟩

/-- What is followed are the edges, and what was met keeps no edge to the rest. -/
theorem Walking.leads (hsound : e.Sound vertices)
    (h : Walking e vertices start seen current axis edges) :
    Leads e start axis current (follow start current axis edges).1 ∧
      Walked e vertices ((follow start current axis edges).1.reverse ++ seen)
        (follow start current axis edges).2 := by
  obtain ⟨met, left, hreturns⟩ := h.returns hsound
  rw [hreturns.follow_eq]
  exact hreturns.walked hsound h

end Steps

end Redraw.Outline
