import Redraw.Proofs.Cache.Rules
import Redraw.Proofs.Cache.Update

/-!
# Which shapes a cache owns

A cache owns the shapes of this frame and after them those of the previous frame that wait for a
request. As long as nobody else writes to its surface these are all the shapes there are, oldest first.
-/

namespace Redraw

namespace CachedShape

def handles (entries : List CachedShape) : List Handle := entries.map handle

theorem handles_append (entries entries' : List CachedShape) :
    handles (entries ++ entries') = handles entries ++ handles entries' := List.map_append

theorem mem_handles {entry : CachedShape} {entries : List CachedShape} (h : entry ∈ entries) :
    entry.handle ∈ handles entries := List.mem_map_of_mem h

end CachedShape

open CachedShape

/-! ### A list of shapes and a table -/

/-- The entries are the shapes of the table, oldest first, each of its kind. -/
structure Owns (entries : List CachedShape) (r : Recorder) : Prop where
  increasing : (handles entries).Pairwise fun h k => h.id < k.id
  holds : ∀ entry, entry ∈ entries →
    ∃ shape, r.shape? entry.handle = some shape ∧ (shape.geometry.kind == entry.kind) = true
  live_mem : ∀ k, (r.shape? k).isSome = true → k ∈ handles entries
  below : ∀ k, k ∈ handles entries → k.id < r.nextId
  gone : ∀ k, k ∈ r.removed → k ∉ handles entries ∧ k.id < r.nextId
  once : r.removed.Nodup

namespace Owns

variable {entries kept given before after : List CachedShape} {r r' : Recorder}
  {entry entry' : CachedShape} {shape : StoredShape}

theorem nodup (h : Owns entries r) : (handles entries).Nodup :=
  Recorder.nodup_of_increasing h.increasing

theorem mem_iff (h : Owns entries r) (k : Handle) :
    k ∈ handles entries ↔ (r.shape? k).isSome = true := by
  constructor
  · intro hk
    obtain ⟨entry, hentry, rfl⟩ := List.mem_map.mp hk
    obtain ⟨shape, hshape, _⟩ := h.holds entry hentry
    rw [hshape]
    rfl
  · exact h.live_mem k

theorem nil (hempty : ∀ k, r.shape? k = none) (hremoved : r.removed = []) : Owns [] r := by
  refine ⟨List.Pairwise.nil, ?_, ?_, ?_, ?_, ?_⟩
  · intro entry hentry
    cases hentry
  · intro k hk
    rw [hempty k] at hk
    cases hk
  · intro k hk
    cases hk
  · intro k hk
    rw [hremoved] at hk
    cases hk
  · rw [hremoved]
    exact List.nodup_nil

theorem liveHandles_eq (h : Owns entries r) : r.liveShapes.map Prod.fst = handles entries :=
  Recorder.liveHandles_eq h.increasing h.mem_iff

theorem drop (h : Owns (kept ++ given) r) (hremoved : r.Removed r' (handles given).reverse) :
    Owns kept r' := by
  have hincreasing := h.increasing
  have hnodup := h.nodup
  have hlog := hremoved.removed
  rw [handles_append] at hincreasing hnodup
  rw [List.reverse_reverse] at hlog
  obtain ⟨_, hgiven, happart⟩ := List.nodup_append.mp hnodup
  have hsame : ∀ k, k ∈ handles kept → r'.shape? k = r.shape? k := by
    intro k hk
    refine hremoved.shape?_of_not_mem ?_
    intro hmem
    exact happart k hk k (List.mem_reverse.mp hmem) rfl
  have hmem : ∀ k, k ∈ handles (kept ++ given) ↔ k ∈ handles kept ∨ k ∈ handles given := by
    intro k
    rw [handles_append, List.mem_append]
  refine ⟨(List.pairwise_append.mp hincreasing).1, ?_, ?_, ?_, ?_, ?_⟩
  · intro entry hentry
    rw [hsame entry.handle (mem_handles hentry)]
    exact h.holds entry (List.mem_append_left _ hentry)
  · intro k hk
    by_cases hk' : k ∈ (handles given).reverse
    · rw [hremoved.shape?_of_mem hk'] at hk
      cases hk
    · rw [hremoved.shape?_of_not_mem hk'] at hk
      rcases (hmem k).mp (h.live_mem k hk) with hkept | hgiven
      · exact hkept
      · exact absurd (List.mem_reverse.mpr hgiven) hk'
  · intro k hk
    rw [hremoved.nextId]
    exact h.below k ((hmem k).mpr (Or.inl hk))
  · intro k hk
    rw [hremoved.nextId]
    rw [hlog, List.mem_append] at hk
    rcases hk with hk | hk
    · exact ⟨fun hkept => happart k hkept k hk rfl, h.below k ((hmem k).mpr (Or.inr hk))⟩
    · obtain ⟨hnot, hlt⟩ := h.gone k hk
      exact ⟨fun hkept => hnot ((hmem k).mpr (Or.inl hkept)), hlt⟩
  · rw [hlog, List.nodup_append]
    refine ⟨hgiven, h.once, ?_⟩
    intro a ha b hb heq
    exact (h.gone b hb).1 ((hmem b).mpr (Or.inr (heq ▸ ha)))

theorem write (h : Owns (before ++ entry :: after) r)
    (hwritten : r.Rewritten r' entry.handle shape) (hhandle : entry'.handle = entry.handle)
    (hkind : (shape.geometry.kind == entry'.kind) = true) :
    Owns (before ++ entry' :: after) r' := by
  have hhandles : handles (before ++ entry' :: after) = handles (before ++ entry :: after) := by
    simp only [handles, List.map_append, List.map_cons, hhandle]
  have hlive : (r.shape? entry.handle).isSome = true :=
    (h.mem_iff entry.handle).mp (mem_handles List.mem_append_cons_self)
  have hnodup := h.nodup
  rw [handles_append] at hnodup
  obtain ⟨_, htail, happart⟩ := List.nodup_append.mp hnodup
  have hother : ∀ other : CachedShape, other ∈ before ++ entry :: after →
      other.handle ≠ entry.handle →
      ∃ shape, r'.shape? other.handle = some shape ∧ (shape.geometry.kind == other.kind) = true := by
    intro other hmem hne
    rw [hwritten.elsewhere hne]
    exact h.holds other hmem
  refine ⟨?_, ?_, ?_, ?_, ?_, ?_⟩
  · rw [hhandles]
    exact h.increasing
  · intro other hmem
    rcases List.mem_append.mp hmem with hbefore | hrest
    · refine hother other (List.mem_append_left _ hbefore) ?_
      exact happart _ (mem_handles hbefore) _ List.mem_cons_self
    rcases List.mem_cons.mp hrest with rfl | hafter
    · rw [hhandle]
      exact ⟨shape, hwritten.here, hkind⟩
    · refine hother other (List.mem_append_right _ (List.mem_cons_of_mem _ hafter)) ?_
      intro heq
      exact (List.nodup_cons.mp htail).1 (heq ▸ mem_handles hafter)
  · intro k hk
    rw [hwritten.isSome_shape? hlive] at hk
    rw [hhandles]
    exact h.live_mem k hk
  · intro k hk
    rw [hhandles] at hk
    rw [hwritten.nextId]
    exact h.below k hk
  · intro k hk
    rw [hwritten.removed] at hk
    rw [hhandles, hwritten.nextId]
    exact h.gone k hk
  · rw [hwritten.removed]
    exact h.once

theorem make (h : Owns entries r) (hcreated : r.Created r' entry.handle shape)
    (hkind : (shape.geometry.kind == entry.kind) = true) : Owns (entries ++ [entry]) r' := by
  have hid : entry.handle.id = r.nextId := congrArg Handle.id hcreated.handle_eq
  have hfresh : ∀ k : Handle, k.id < r.nextId → k ≠ entry.handle := by
    intro k hk heq
    rw [heq, hid] at hk
    exact Nat.lt_irrefl _ hk
  have hmem : ∀ k, k ∈ handles (entries ++ [entry]) ↔ k ∈ handles entries ∨ k = entry.handle := by
    intro k
    rw [handles_append, List.mem_append]
    exact or_congr_right List.mem_singleton
  refine ⟨?_, ?_, ?_, ?_, ?_, ?_⟩
  · rw [handles_append, List.pairwise_append]
    refine ⟨h.increasing, List.pairwise_singleton _ _, ?_⟩
    intro k hk last hlast
    rw [List.mem_singleton.mp hlast]
    show k.id < entry.handle.id
    rw [hid]
    exact h.below k hk
  · intro other hother
    rcases List.mem_append.mp hother with hold | hnew
    · rw [hcreated.elsewhere (hfresh _ (h.below _ (mem_handles hold)))]
      exact h.holds other hold
    · rw [List.mem_singleton.mp hnew]
      exact ⟨shape, hcreated.here, hkind⟩
  · intro k hk
    rw [hmem]
    by_cases heq : k = entry.handle
    · exact Or.inr heq
    · rw [hcreated.elsewhere heq] at hk
      exact Or.inl (h.live_mem k hk)
  · intro k hk
    rw [hcreated.nextId]
    rcases (hmem k).mp hk with hold | heq
    · exact Nat.lt_succ_of_lt (h.below k hold)
    · rw [heq, hid]
      exact Nat.lt_succ_self _
  · intro k hk
    rw [hcreated.removed] at hk
    rw [hcreated.nextId, hmem]
    obtain ⟨hnot, hlt⟩ := h.gone k hk
    refine ⟨?_, Nat.lt_succ_of_lt hlt⟩
    intro hcases
    rcases hcases with hold | heq
    · exact hnot hold
    · exact hfresh k hlt heq
  · rw [hcreated.removed]
    exact h.once

end Owns

namespace Cache

variable {σ : Type}

/-! ### A cache and its surface -/

/-- The shapes of this frame, then those waiting. -/
def owned (c : Cache σ) : List CachedShape := c.active.toList ++ c.pending

theorem owned_eq {c : Cache σ} {waiting : List CachedShape} (h : c.previous = some waiting) :
    c.owned = c.active.toList ++ waiting := by
  unfold owned
  rw [pending_of_some h]

theorem mem_owned_of_waiting {c : Cache σ} {entry : CachedShape} {rest : List CachedShape}
    (h : c.previous = some (entry :: rest)) : entry ∈ c.owned := by
  rw [owned_eq h]
  exact List.mem_append_right _ List.mem_cons_self

variable [Surface σ] [Recording σ]

structure Owning (c : Cache σ) : Prop where
  owns : Owns c.owned c.table
  asked : Recording.view.asked c.surface = c.table.removed
  yields : Recording.view.Yields c.surface
  idle : c.isDrawing = false → c.pending = []

variable {c c' c'' : Cache σ} {removed : List Handle}

/-- The shapes at the handles were removed in this order; otherwise the cache is the same. -/
structure Released (c c' : Cache σ) (removed : List Handle) : Prop where
  active : c'.active = c.active
  previous : c'.previous = c.previous
  phase : c'.phase = c.phase
  table : c.table.Removed c'.table removed
  asked : Recording.view.asked c'.surface = removed.reverse ++ Recording.view.asked c.surface
  yields : Recording.view.Yields c'.surface

theorem Released.refl (hyields : Recording.view.Yields c.surface) : Released c c [] :=
  ⟨rfl, rfl, rfl, .refl _, rfl, hyields⟩

theorem Released.cons {handle : Handle} (h : Released c c' [handle]) (h' : Released c' c'' removed) :
    Released c c'' (handle :: removed) := by
  refine ⟨h'.active.trans h.active, h'.previous.trans h.previous, h'.phase.trans h.phase,
    h.table.cons h'.table, ?_, h'.yields⟩
  rw [h'.asked, h.asked, @List.reverse_cons _ handle removed, List.append_assoc]
  rfl

theorem Released.asked_eq (h : Released c c' removed)
    (hasked : Recording.view.asked c.surface = c.table.removed) :
    Recording.view.asked c'.surface = c'.table.removed := by
  rw [h.asked, h.table.removed, hasked]

theorem remove_ends {handle : Handle} (hyields : Recording.view.Yields c.surface)
    (hlive : (c.table.shape? handle).isSome = true) :
    Ends (onSurface (Surface.remove handle)) c (fun _ c' => Released c c' [handle])
      fun _ _ => False := by
  refine onSurface_ends ((Recording.remove handle c.surface hyields hlive).imp_ok ?_)
  intro _ surface ⟨htable, hasked, hyields'⟩
  exact ⟨rfl, rfl, rfl, htable, hasked, hyields'⟩

theorem removeAll_ends (entries : List CachedShape) (hyields : Recording.view.Yields c.surface)
    (hdistinct : (handles entries).Nodup)
    (hlive : ∀ entry, entry ∈ entries → (c.table.shape? entry.handle).isSome = true) :
    Ends (removeAll entries) c (fun _ c' => Released c c' (handles entries)) fun _ _ => False := by
  induction entries generalizing c with
  | nil => exact Ends.pure (.refl hyields)
  | cons entry rest ih =>
    obtain ⟨hentry, hrest⟩ := List.nodup_cons.mp hdistinct
    unfold removeAll
    refine Ends.seq (remove_ends hyields (hlive entry List.mem_cons_self)) ?_
    intro _ c₁ hreleased
    refine (ih hreleased.yields hrest ?_).imp_ok ?_
    · intro other hother
      have hne : other.handle ∉ [entry.handle] := by
        rw [List.mem_singleton]
        intro heq
        exact hentry (heq ▸ List.mem_map_of_mem hother)
      rw [hreleased.table.shape?_of_not_mem hne]
      exact hlive other (List.mem_cons_of_mem _ hother)
    · intro _ c₂ hreleased'
      exact hreleased.cons hreleased'

/-- The last entries of those that are owned can be removed, newest first. -/
theorem removeNewest_ends {kept given : List CachedShape} (howns : Owns (kept ++ given) c.table)
    (hyields : Recording.view.Yields c.surface) :
    Ends (removeAll given.reverse) c (fun _ c' => Released c c' (handles given).reverse)
      fun _ _ => False := by
  have hmap : handles given.reverse = (handles given).reverse := List.map_reverse
  have hnodup := howns.nodup
  rw [handles_append] at hnodup
  rw [← hmap]
  apply removeAll_ends given.reverse hyields
  · rw [hmap]
    exact (List.reverse_perm _).nodup_iff.mpr (List.nodup_append.mp hnodup).2.1
  · intro entry hentry
    have hmem := List.mem_append_right kept (List.mem_reverse.mp hentry)
    exact (howns.mem_iff entry.handle).mp (mem_handles hmem)

theorem releasePrevious_ends (howns : Owns c.owned c.table)
    (hyields : Recording.view.Yields c.surface) (journal : List Event) :
    Ends releasePrevious { c with journal := journal }
      (fun _ c' => Released { c with previous := none } c' (handles c.pending).reverse)
      fun _ _ => False := by
  unfold releasePrevious
  refine Ends.bind (Ends.get (Ends.bind (Ends.modify ?_)))
  refine (removeNewest_ends (c := { c with previous := none, journal := journal }) howns
    hyields).imp_ok ?_
  intro _ c' ⟨hactive, hprevious, hphase, htable, hasked, hyields'⟩
  exact ⟨hactive, hprevious, hphase, htable, hasked, hyields'⟩

theorem Owning.meets (h : Owning c) {entry : CachedShape} {rest : List CachedShape} {kind : ShapeKind}
    (hwaiting : c.previous = some (entry :: rest)) (hkind : (entry.kind == kind) = true) :
    ∃ shape, c.table.shape? entry.handle = some shape ∧ (shape.geometry.kind == kind) = true := by
  obtain ⟨shape, hshape, hheld⟩ := h.owns.holds entry (mem_owned_of_waiting hwaiting)
  exact ⟨shape, hshape, ShapeKind.beq_trans hheld hkind⟩

theorem Released.owning {given : List CachedShape} (h : Released c c' (handles given).reverse)
    (hprevious : c.previous = none) (howns : Owns (c.active.toList ++ given) c.table)
    (hasked : Recording.view.asked c.surface = c.table.removed) : Owning c' := by
  have hpending : c'.pending = [] := pending_of_none (h.previous.trans hprevious)
  have howned : c'.owned = c.active.toList := by
    unfold owned
    rw [hpending, h.active]
    exact List.append_nil _
  refine ⟨?_, h.asked_eq hasked, h.yields, fun _ => hpending⟩
  rw [howned]
  exact howns.drop h.table

theorem Owning.release (h : Owning c)
    (hreleased : Released { c with previous := none } c' (handles c.pending).reverse) :
    Owning c' := hreleased.owning rfl h.owns h.asked

end Cache

end Redraw
