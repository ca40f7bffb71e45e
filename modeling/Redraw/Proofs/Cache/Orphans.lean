import Redraw.Proofs.Cache.Run

/-!
# Refused removals

A cache takes the shapes it gives up off its books before it asks for their removal. So a removal that is
refused and those that were to follow leave shapes that belong to nobody.
-/

namespace Redraw

open CachedShape

theorem Probe.remove_ends {p : Probe Recorder} {handle : Handle}
    (hlive : (p.inner.shape? handle).isSome = true) :
    Ends (Surface.remove handle) p
      (fun _ p' => p.inner.Removed p'.inner [handle] ∧ p'.removalCalls = handle :: p.removalCalls)
      fun _ p' => p'.inner = p.inner ∧ p'.removalCalls = handle :: p.removalCalls := by
  have hnoted : (SurfaceCall.remove handle :: p.calls).filterMap SurfaceCall.removed? =
      handle :: p.removalCalls := List.filterMap_cons_some rfl
  apply observe_ends
  · intro e _
    exact ⟨rfl, hnoted⟩
  · intro _
    refine (@Recording.remove Recorder _ _ handle p.inner trivial hlive).imp ?_ fun _ _ h => h.elim
    intro _ inner ⟨hremoved, _⟩
    exact ⟨hremoved, hnoted⟩

namespace Cache

/-! ### Shapes with and without an owner -/

/-- The live shapes are those held, each of its kind, and those lost; shapes are lost exactly if fewer
were removed than was asked for. -/
structure Books (held : List CachedShape) (lost : List Handle) (p : Probe Recorder) : Prop where
  distinct : (handles held ++ lost).Nodup
  holds : ∀ entry, entry ∈ held →
    ∃ shape, p.inner.shape? entry.handle = some shape ∧ (shape.geometry.kind == entry.kind) = true
  live : ∀ k, (p.inner.shape? k).isSome = true ↔ k ∈ handles held ++ lost
  below : ∀ k, k ∈ handles held ++ lost → k.id < p.inner.nextId
  asked : p.inner.removed.Sublist p.removalCalls
  even : lost = [] ↔ p.removalCalls.length ≤ p.inner.removed.length

namespace Books

variable {held held' kept before after entries : List CachedShape} {lost : List Handle}
  {p p' : Probe Recorder} {entry entry' : CachedShape} {handle : Handle} {shape : StoredShape}

theorem perm (h : Books held lost p) (hperm : held.Perm held') : Books held' lost p := by
  have hmem : ∀ k, k ∈ handles held' ++ lost ↔ k ∈ handles held ++ lost :=
    fun k => ((hperm.map _).append_right lost).mem_iff.symm
  refine ⟨?_, ?_, ?_, ?_, h.asked, h.even⟩
  · exact ((hperm.map _).append_right lost).nodup_iff.mp h.distinct
  · intro entry hentry
    exact h.holds entry (hperm.mem_iff.mpr hentry)
  · intro k
    rw [hmem]
    exact h.live k
  · intro k hk
    exact h.below k ((hmem k).mp hk)

theorem congr (h : Books held lost p) (hinner : p'.inner = p.inner)
    (hcalls : p'.removalCalls = p.removalCalls) : Books held lost p' := by
  obtain ⟨hdistinct, hholds, hlive, hbelow, hasked, heven⟩ := h
  rw [← hinner] at hholds hlive hbelow hasked heven
  rw [← hcalls] at hasked heven
  exact ⟨hdistinct, hholds, hlive, hbelow, hasked, heven⟩

theorem remove (h : Books (entry :: held) lost p)
    (hremoved : p.inner.Removed p'.inner [entry.handle])
    (hcalls : p'.removalCalls = entry.handle :: p.removalCalls) : Books held lost p' := by
  obtain ⟨hentry, hdistinct⟩ := List.nodup_cons.mp h.distinct
  have hlog : p'.inner.removed = entry.handle :: p.inner.removed := hremoved.removed
  refine ⟨hdistinct, ?_, ?_, ?_, ?_, ?_⟩
  · intro other hother
    have hne : other.handle ∉ [entry.handle] := by
      intro heq
      rw [← List.mem_singleton.mp heq] at hentry
      exact hentry (List.mem_append_left _ (mem_handles hother))
    rw [hremoved.shape?_of_not_mem hne]
    exact h.holds other (List.mem_cons_of_mem _ hother)
  · intro k
    by_cases hk : k = entry.handle
    · rw [hk, hremoved.shape?_of_mem List.mem_cons_self]
      exact iff_of_false Bool.false_ne_true hentry
    · rw [hremoved.shape?_of_not_mem (mt List.mem_singleton.mp hk), h.live]
      exact List.mem_cons.trans (or_iff_right hk)
  · intro k hk
    rw [hremoved.nextId]
    exact h.below k (List.mem_cons_of_mem _ hk)
  · rw [hlog, hcalls]
    exact h.asked.cons_cons _
  · rw [hlog, hcalls, h.even]
    exact Nat.succ_le_succ_iff.symm

theorem refuse (h : Books (entries ++ kept) lost p) (hentries : entries ≠ [])
    (hinner : p'.inner = p.inner) (hcalls : p'.removalCalls = handle :: p.removalCalls) :
    Books kept (handles entries ++ lost) p' := by
  have hperm : (handles (entries ++ kept) ++ lost).Perm (handles kept ++ (handles entries ++ lost)) := by
    rw [handles_append, ← List.append_assoc]
    exact List.perm_append_comm.append_right lost
  refine ⟨hperm.nodup_iff.mp h.distinct, ?_, ?_, ?_, ?_, ?_⟩
  · intro entry hentry
    rw [hinner]
    exact h.holds entry (List.mem_append_right _ hentry)
  · intro k
    rw [hinner, h.live]
    exact hperm.mem_iff
  · intro k hk
    rw [hinner]
    exact h.below k (hperm.mem_iff.mpr hk)
  · rw [hinner, hcalls]
    exact h.asked.cons _
  · have hle := h.asked.length_le
    rw [hinner, hcalls, List.length_cons]
    refine iff_of_false ?_ (by omega)
    intro hnil
    exact hentries (List.map_eq_nil_iff.mp (List.append_eq_nil_iff.mp hnil).1)

theorem write (h : Books (entry :: held) lost p)
    (hwritten : p.inner.Rewritten p'.inner entry.handle shape)
    (hcalls : p'.removalCalls = p.removalCalls) (hhandle : entry'.handle = entry.handle)
    (hkind : (shape.geometry.kind == entry'.kind) = true) : Books (entry' :: held) lost p' := by
  have hhandles : handles (entry' :: held) = handles (entry :: held) := congrArg (· :: _) hhandle
  have hentry := (List.nodup_cons.mp h.distinct).1
  have hlive : (p.inner.shape? entry.handle).isSome = true :=
    (h.live _).mpr (List.mem_append_left _ List.mem_cons_self)
  refine ⟨?_, ?_, ?_, ?_, ?_, ?_⟩
  · rw [hhandles]
    exact h.distinct
  · intro other hother
    rcases List.mem_cons.mp hother with rfl | hheld
    · rw [hhandle]
      exact ⟨shape, hwritten.here, hkind⟩
    · have hne : other.handle ≠ entry.handle :=
        fun heq => hentry (heq ▸ List.mem_append_left _ (mem_handles hheld))
      rw [hwritten.elsewhere hne]
      exact h.holds other (List.mem_cons_of_mem _ hheld)
  · intro k
    rw [hhandles, hwritten.isSome_shape? hlive]
    exact h.live k
  · rw [hhandles, hwritten.nextId]
    exact h.below
  · rw [hwritten.removed, hcalls]
    exact h.asked
  · rw [hwritten.removed, hcalls]
    exact h.even

theorem make (h : Books held lost p) (hcreated : p.inner.Created p'.inner entry.handle shape)
    (hcalls : p'.removalCalls = p.removalCalls)
    (hkind : (shape.geometry.kind == entry.kind) = true) : Books (entry :: held) lost p' := by
  have hid : entry.handle.id = p.inner.nextId := congrArg Handle.id hcreated.handle_eq
  have hfresh : entry.handle ∉ handles held ++ lost := by
    intro hmem
    exact Nat.lt_irrefl _ (hid ▸ h.below _ hmem)
  refine ⟨List.nodup_cons.mpr ⟨hfresh, h.distinct⟩, ?_, ?_, ?_, ?_, ?_⟩
  · intro other hother
    rcases List.mem_cons.mp hother with rfl | hheld
    · exact ⟨shape, hcreated.here, hkind⟩
    · have hne : other.handle ≠ entry.handle :=
        fun heq => hfresh (heq ▸ List.mem_append_left _ (mem_handles hheld))
      rw [hcreated.elsewhere hne]
      exact h.holds other hheld
  · intro k
    show _ ↔ k ∈ entry.handle :: (handles held ++ lost)
    rw [List.mem_cons]
    by_cases hk : k = entry.handle
    · rw [hk, hcreated.here]
      exact iff_of_true rfl (Or.inl rfl)
    · rw [hcreated.elsewhere hk, h.live]
      exact (or_iff_right hk).symm
  · intro k hk
    rw [hcreated.nextId]
    rcases List.mem_cons.mp hk with rfl | hold
    · rw [hid]
      exact Nat.lt_succ_self _
    · exact Nat.lt_succ_of_lt (h.below k hold)
  · rw [hcreated.removed, hcalls]
    exact h.asked
  · rw [hcreated.removed, hcalls]
    exact h.even

end Books

/-! ### Giving shapes up -/

variable {c c' : Cache (Probe Recorder)} {entries held : List CachedShape} {lost : List Handle}

structure Same (c c' : Cache (Probe Recorder)) : Prop where
  active : c'.active = c.active
  previous : c'.previous = c.previous
  phase : c'.phase = c.phase

theorem remove_books {entry : CachedShape} (h : Books (entry :: entries ++ held) lost c.surface) :
    Ends (onSurface (Surface.remove entry.handle)) c
      (fun _ c' => Same c c' ∧ Books (entries ++ held) lost c'.surface)
      fun _ c' => Same c c' ∧ Books held (handles (entry :: entries) ++ lost) c'.surface := by
  have hlive : (c.surface.inner.shape? entry.handle).isSome = true :=
    (h.live _).mpr List.mem_cons_self
  refine onSurface_ends ((Probe.remove_ends hlive).imp ?_ ?_)
  · rintro _ p ⟨hremoved, hcalls⟩
    exact ⟨⟨rfl, rfl, rfl⟩, h.remove hremoved hcalls⟩
  · rintro _ p ⟨hinner, hcalls⟩
    exact ⟨⟨rfl, rfl, rfl⟩, h.refuse (List.cons_ne_nil _ _) hinner hcalls⟩

/-- A release that fails has removed the first of the shapes; the others are lost. -/
theorem removeAll_books (entries : List CachedShape)
    (h : Books (entries ++ held) lost c.surface) :
    Ends (removeAll entries) c (fun _ c' => Same c c' ∧ Books held lost c'.surface)
      fun _ c' => Same c c' ∧ ∃ rest, rest <:+ entries ∧ rest ≠ [] ∧
        Books held (handles rest ++ lost) c'.surface := by
  induction entries generalizing c with
  | nil => exact Ends.pure ⟨⟨rfl, rfl, rfl⟩, h⟩
  | cons entry rest ih =>
    unfold removeAll
    refine Ends.bind ((remove_books h).imp ?_ ?_)
    · rintro _ c₁ ⟨⟨hactive, hprevious, hphase⟩, hbooks⟩
      refine (ih hbooks).imp ?_ ?_
      · rintro _ c₂ ⟨hsame, hbooks'⟩
        exact ⟨⟨hsame.active.trans hactive, hsame.previous.trans hprevious,
          hsame.phase.trans hphase⟩, hbooks'⟩
      · rintro _ c₂ ⟨hsame, left, hleft, hsome, hbooks'⟩
        exact ⟨⟨hsame.active.trans hactive, hsame.previous.trans hprevious,
          hsame.phase.trans hphase⟩, left, hleft.trans (List.suffix_cons entry rest), hsome, hbooks'⟩
    · rintro _ c₁ ⟨hsame, hbooks⟩
      exact ⟨hsame, entry :: rest, List.suffix_rfl, List.cons_ne_nil _ _, hbooks⟩

/-- Nothing waits any more, and these were lost. -/
structure Given (c c' : Cache (Probe Recorder)) (lost : List Handle) : Prop where
  active : c'.active = c.active
  previous : c'.previous = none
  phase : c'.phase = c.phase
  books : Books c.active.toList lost c'.surface

theorem releasePrevious_books (h : Books c.owned lost c.surface) (journal : List Event) :
    Ends releasePrevious { c with journal := journal } (fun _ c' => Given c c' lost)
      fun _ c' => ∃ rest, rest <:+ c.pending.reverse ∧ rest ≠ [] ∧
        Given c c' (handles rest ++ lost) := by
  have hperm : c.owned.Perm (c.pending.reverse ++ c.active.toList) :=
    List.perm_append_comm.trans ((List.reverse_perm c.pending).symm.append_right _)
  unfold releasePrevious
  refine Ends.bind (Ends.get (Ends.bind (Ends.modify ?_)))
  refine (removeAll_books (c := { c with previous := none, journal := journal }) _
    (h.perm hperm)).imp ?_ ?_
  · rintro _ c' ⟨⟨hactive, hprevious, hphase⟩, hbooks⟩
    exact ⟨hactive, hprevious, hphase, hbooks⟩
  · rintro _ c' ⟨⟨hactive, hprevious, hphase⟩, rest, hrest, hsome, hbooks⟩
    exact ⟨rest, hrest, hsome, hactive, hprevious, hphase, hbooks⟩

/-! ### Operations -/

/-- The live shapes are those owned and those lost, and between frames nothing waits. -/
structure Kept (c : Cache (Probe Recorder)) (lost : List Handle) : Prop where
  books : Books c.owned lost c.surface
  idle : c.isDrawing = false → c.pending = []

/-- After an operation some more shapes may be lost: the last that were to be removed. -/
def Loses (c c' : Cache (Probe Recorder)) (lost : List Handle) : Prop :=
  ∃ rest, Kept c' (handles rest ++ lost) ∧
    (rest <:+ c.pending.reverse ∨ rest <:+ c.active.toList.reverse)

theorem Kept.of_books (hprevious : c.previous = none)
    (h : Books c.active.toList lost c.surface) : Kept c lost := by
  have hpending : c.pending = [] := pending_of_none hprevious
  refine ⟨?_, fun _ => hpending⟩
  unfold owned
  rwa [hpending, List.append_nil]

theorem Given.kept (h : Given c c' lost) : Kept c' lost := by
  have hbooks := h.books
  rw [← h.active] at hbooks
  exact .of_books h.previous hbooks

theorem Kept.loses (h : Kept c' lost) : Loses c c' lost :=
  ⟨[], h, Or.inl List.nil_suffix⟩

theorem flush_loses (h : Kept c lost) :
    Ends flush c (fun _ c' => Loses c c' lost) fun _ c' => Loses c c' lost := by
  refine flush_rule (fun _ => h.loses) fun _ journal => ?_
  refine (releasePrevious_books (c := { c with phase := .idle }) h.books journal).imp ?_ ?_
  · intro _ c' hgiven
    exact hgiven.kept.loses
  · rintro _ c' ⟨rest, hrest, _, hgiven⟩
    exact ⟨rest, hgiven.kept, Or.inl hrest⟩

/-- A teardown that is answered leaves only the shapes that were lost before. -/
theorem teardown_loses (h : Kept c lost) :
    Ends teardown c (fun _ c' => Kept c' lost ∧ c'.owned = []) fun _ c' => Loses c c' lost := by
  unfold teardown
  refine Ends.bind ((releasePrevious_books h.books c.journal).imp ?_ ?_)
  · intro _ c₁ hgiven
    refine Ends.bind (Ends.get (Ends.bind (Ends.modify (Ends.bind ?_))))
    have hperm : c₁.active.toList.Perm (c₁.active.toList.reverse ++ []) := by
      rw [List.append_nil]
      exact (List.reverse_perm _).symm
    have hbooks := hgiven.books
    rw [← hgiven.active] at hbooks
    refine (removeAll_books (c := { c₁ with active := #[] }) _ (hbooks.perm hperm)).imp ?_ ?_
    · rintro _ c₂ ⟨hsame, hbooks'⟩
      have hactive : c₂.active = #[] := hsame.active
      have hprevious : c₂.previous = none := hsame.previous.trans hgiven.previous
      refine Ends.modify ⟨.of_books hprevious ?_, ?_⟩
      · rw [hactive]
        exact hbooks'
      · unfold owned pending
        rw [hactive, hprevious]
        rfl
    · rintro _ c₂ ⟨hsame, rest, hrest, _, hbooks'⟩
      have hactive : c₂.active = #[] := hsame.active
      rw [hgiven.active] at hrest
      refine ⟨rest, .of_books (hsame.previous.trans hgiven.previous) ?_, Or.inr hrest⟩
      rw [hactive]
      exact hbooks'
  · rintro _ c₁ ⟨rest, hrest, _, hgiven⟩
    exact ⟨rest, hgiven.kept, Or.inl hrest⟩

/-! ### Requests -/

variable {g : Geometry} {s : Style} {entry : CachedShape} {rest : List CachedShape}

theorem Kept.reuse (h : Kept c lost) (hwaiting : c.previous = some (entry :: rest))
    {c₁ : Cache (Probe Recorder)} {shape : StoredShape}
    (hworked : Worked { c with previous := some rest } c₁)
    (hwritten : c.table.Rewritten c₁.table entry.handle shape) {kind : ShapeKind}
    (hkind : (shape.geometry.kind == kind) = true)
    (howned : c'.owned.Perm (⟨kind, entry.handle⟩ :: (c.active.toList ++ rest)))
    (hsurface : c'.surface = c₁.surface) (hphase : c'.phase = c.phase) : Kept c' lost := by
  have hbooks := h.books
  rw [owned_eq hwaiting] at hbooks
  have hwrite : Books (⟨kind, entry.handle⟩ :: (c.active.toList ++ rest)) lost c₁.surface :=
    (hbooks.perm List.perm_middle).write hwritten hworked.still.asked rfl hkind
  refine ⟨?_, ?_⟩
  · rw [hsurface]
    exact hwrite.perm howned.symm
  · intro hidle
    have hempty : c.pending = [] := h.idle (by rw [← hidle]; unfold isDrawing; rw [hphase])
    cases (pending_of_some hwaiting).symm.trans hempty

theorem add_loses (h : Kept c lost) :
    Ends (add g s) c (fun _ c' => Loses c c' lost) fun _ c' => Loses c c' lost := by
  refine add_rule (fun _ => h.loses) ?_ ?_
  · intro _ entry rest hwaiting hkind
    obtain ⟨shape, hshape, hheld⟩ := h.books.holds entry (mem_owned_of_waiting hwaiting)
    have hupdate := update_brings (c := { c with previous := some rest }) (s := s) hshape
      (ShapeKind.beq_trans hheld hkind)
    refine hupdate.imp ?_ ?_
    · rintro changed c₁ ⟨hworked, shape', hwritten, hupdated⟩
      have hactive : c₁.active = c.active := hworked.active
      apply Kept.loses
      refine h.reuse hwaiting hworked hwritten hupdated.fits.shows.kind_beq ?_ rfl hworked.phase
      unfold owned
      rw [enlist_active, enlist_pending, pending_of_some hworked.previous, hactive,
        Array.toList_push, List.append_assoc]
      exact List.perm_middle
    · rintro _ c₁ ⟨hworked, shape', hwritten, hkind'⟩
      have hactive : c₁.active = c.active := hworked.active
      apply Kept.loses
      refine h.reuse hwaiting hworked hwritten hkind' ?_ rfl hworked.phase
      show (c₁.active.toList ++ _ :: c₁.pending).Perm _
      rw [hactive, pending_of_some hworked.previous]
      exact List.perm_middle
  · intro _ _ journal
    refine (releasePrevious_books h.books journal).imp ?_ ?_
    · intro _ c₁ hgiven
      refine (call_ends (Recording.create g s) c₁).imp ?_ ?_
      · rintro handle c₂ ⟨hworked, hcreate⟩
        obtain ⟨haccepted, _, hcreated⟩ := Recorder.create_ok hcreate
        have hmade : Books (⟨g.kind, handle⟩ :: c.active.toList) lost c₂.surface :=
          hgiven.books.make hcreated hworked.still.asked (Geometry.kind_beq_self haccepted)
        apply Kept.loses
        refine .of_books (hworked.previous.trans hgiven.previous) ?_
        rw [enlist_active, hworked.active, hgiven.active, Array.toList_push]
        exact hmade.perm (List.perm_append_singleton _ _).symm
      · rintro _ c₂ ⟨hworked, htable⟩
        apply Kept.loses
        refine .of_books (hworked.previous.trans hgiven.previous) ?_
        rw [hworked.active, hgiven.active]
        exact hgiven.books.congr htable hworked.still.asked
    · rintro _ c₁ ⟨left, hleft, _, hgiven⟩
      exact ⟨left, hgiven.kept, Or.inl hleft⟩

theorem Op.run_loses (h : Kept c lost) (op : Op) :
    Ends op.run c (fun _ c' => Loses c c' lost) fun _ c' => Loses c c' lost := by
  cases op with
  | beginFrame =>
    refine Ends.bind (Ends.modify (Ends.pure ?_))
    apply Kept.loses
    exact ⟨h.books, h.idle⟩
  | clear =>
    refine Ends.bind ((clear_ends c).imp ?_ ?_)
    · rintro _ c' ⟨hidle, rfl⟩
      have hbooks := h.books
      unfold owned at hbooks
      rw [h.idle hidle, List.append_nil] at hbooks
      apply Ends.pure
      apply Kept.loses
      refine ⟨hbooks, ?_⟩
      intro hclosed
      cases hclosed
    · rintro _ c' ⟨_, rfl⟩
      exact h.loses
  | flush => exact Ends.bind ((flush_loses h).imp_ok fun _ _ h' => Ends.pure h')
  | teardown => exact Ends.bind ((teardown_loses h).imp_ok fun _ _ h' => Ends.pure h'.1.loses)
  | add g s => exact Ends.map (add_loses h)

theorem Kept.after (h : Kept c lost) (op : Op) : Loses c (op.after c) lost := by
  have hends := Op.run_loses h op
  unfold Op.after
  split
  · next hrun => exact hends.of_ok hrun
  · next hrun => exact hends.of_error hrun

theorem Kept.runAll (h : Kept c lost) (ops : List Op) : ∃ lost', Kept (runAll ops c) lost' := by
  induction ops generalizing c lost with
  | nil => exact ⟨lost, h⟩
  | cons op rest ih =>
    obtain ⟨left, hkept, _⟩ := h.after op
    exact ih hkept

/-! ### Shapes that belong to nobody -/

/-- The live shapes that the cache does not own. -/
def orphans (c : Cache (Probe Recorder)) : List Handle :=
  (c.surface.inner.liveShapes.map Prod.fst).filter fun k => !(handles c.owned).contains k

theorem Kept.mem_orphans_iff (h : Kept c lost) (k : Handle) : k ∈ orphans c ↔ k ∈ lost := by
  have hdisjoint := (List.nodup_append.mp h.books.distinct).2.2
  unfold orphans
  rw [List.mem_filter, Recorder.mem_liveHandles_iff, h.books.live, List.mem_append,
    Bool.not_eq_true', ← Bool.not_eq_true, List.contains_iff_mem]
  constructor
  · rintro ⟨hheld | hlost, hnot⟩
    · exact absurd hheld hnot
    · exact hlost
  · intro hlost
    exact ⟨Or.inr hlost, fun hheld => hdisjoint k hheld k hlost rfl⟩

theorem Kept.orphans_perm (h : Kept c lost) : (orphans c).Perm lost := by
  have hnodup : (orphans c).Nodup :=
    (Recorder.nodup_of_increasing (Recorder.liveHandles_increasing _)).filter _
  rw [List.perm_ext_iff_of_nodup hnodup (List.nodup_append.mp h.books.distinct).2.1]
  exact h.mem_orphans_iff

/-- A fresh cache on an empty recorder inside a probe that refuses the chosen calls. -/
def refusing (supported : Option (List StyleKey)) (refuses : SurfaceOp → Nat → Bool) :
    Cache (Probe Recorder) := { surface := { inner := { supported := supported }, refuses := refuses } }

theorem kept_refusing (supported : Option (List StyleKey)) (refuses : SurfaceOp → Nat → Bool) :
    Kept (refusing supported refuses) [] := by
  have hempty : ∀ k, (refusing supported refuses).surface.inner.shape? k = none :=
    fun k => Std.TreeMap.getElem?_emptyc
  refine .of_books rfl ⟨List.nodup_nil, nofun, ?_, nofun, List.Sublist.refl _, ?_⟩
  · intro k
    rw [hempty]
    exact iff_of_false Bool.false_ne_true List.not_mem_nil
  · exact iff_of_true rfl (Nat.le_refl _)

/-- Whatever is done with a cache on a surface that refuses some calls, every live shape belongs to it
exactly if every removal that was asked for was done. Each operation adds to the shapes without an
owner only the last of those it was to remove, and a teardown that is answered leaves exactly the
shapes without an owner. -/
theorem orphans_eq_nil_iff (supported : Option (List StyleKey)) (refuses : SurfaceOp → Nat → Bool)
    (ops : List Op) :
    let c := runAll ops (refusing supported refuses)
    (orphans c = [] ↔ c.surface.removalCalls = c.surface.inner.removed) ∧
      (∀ op : Op, ∃ rest, (orphans (op.after c)).Perm (handles rest ++ orphans c) ∧
        (rest <:+ c.pending.reverse ∨ rest <:+ c.active.toList.reverse)) ∧
      ∀ c', teardown c = .ok () c' → c'.surface.inner.liveShapes.map Prod.fst = orphans c := by
  intro c
  obtain ⟨lost, hkept⟩ := (kept_refusing supported refuses).runAll ops
  have hperm := hkept.orphans_perm
  refine ⟨?_, ?_, ?_⟩
  · have hlost : orphans c = [] ↔ lost = [] := by
      rw [← List.length_eq_zero_iff, ← List.length_eq_zero_iff, hperm.length_eq]
    rw [hlost, hkept.books.even]
    constructor
    · intro hle
      exact (hkept.books.asked.eq_of_length_le hle).symm
    · intro heq
      exact Nat.le_of_eq (congrArg List.length heq)
  · intro op
    obtain ⟨rest, hkept', hrest⟩ := hkept.after op
    exact ⟨rest, hkept'.orphans_perm.trans (hperm.symm.append_left _), hrest⟩
  · intro c' hrun
    obtain ⟨hkept', howned⟩ := (teardown_loses hkept).of_ok hrun
    apply Recorder.liveHandles_eq
    · exact (Recorder.liveHandles_increasing _).filter _
    · intro k
      rw [hkept.mem_orphans_iff, hkept'.books.live, howned]
      rfl

/-- Two squares, and a frame that asks for neither, on a surface that refuses the first removal. -/
def unclaimed : List Op :=
  [.clear, .add (.rect ⟨0.0, 0.0, 1.0, 1.0⟩) {}, .add (.rect ⟨2.0, 0.0, 1.0, 1.0⟩) {}, .flush, .clear]

def refusingFirst : Cache (Probe Recorder) :=
  refusing none fun op number => op == .remove && number == 0

theorem orphans_eq_nil_iff_unclaimed :
    ∃ c', teardown (runAll (unclaimed ++ [.flush]) refusingFirst) = .ok () c' ∧
      c'.surface.inner.liveShapes.map Prod.fst = [⟨0⟩, ⟨1⟩] ∧
      (runAll (unclaimed ++ [.flush]) refusingFirst).surface.removalCalls ≠
        (runAll (unclaimed ++ [.flush]) refusingFirst).surface.inner.removed := by
  have horphans : orphans (runAll (unclaimed ++ [.flush]) refusingFirst) = [⟨0⟩, ⟨1⟩] := by
    decide +kernel
  have hanswered : passes teardown (runAll (unclaimed ++ [.flush]) refusingFirst)
      (fun _ _ => true) = true := by decide +kernel
  obtain ⟨_, hrun, _⟩ := ok_of_passes hanswered
  obtain ⟨hnone, _, hteardown⟩ := orphans_eq_nil_iff none
    (fun op number => op == .remove && number == 0) (unclaimed ++ [.flush])
  refine ⟨_, hrun, (hteardown _ hrun).trans horphans, ?_⟩
  intro heven
  have hnil := hnone.mpr heven
  cases horphans.symm.trans hnil

/-- The flush fails, both squares stay and belong to nobody, and a later teardown that is answered
leaves them. -/
theorem flush_loses_unclaimed :
    ∃ e c c', flush (runAll unclaimed refusingFirst) = .error (.surface e) c ∧
      c.surface.inner.liveShapes.map Prod.fst = [⟨0⟩, ⟨1⟩] ∧ c.owned.map CachedShape.handle = [] ∧
      teardown c = .ok () c' ∧ c'.surface.inner.liveShapes.map Prod.fst = [⟨0⟩, ⟨1⟩] := by
  refine ⟨_, _, _, rfl, ?_, ?_, rfl, ?_⟩
  · decide +kernel
  · decide +kernel
  · decide +kernel

end Cache

end Redraw
