import Redraw.Proofs.Cache.Ownership

namespace Redraw

open CachedShape

namespace Cache

variable {σ : Type} {c c' : Cache σ} {g : Geometry} {s : Style}

variable [Surface σ] [Recording σ]

/-- What a request that was answered with `handle` has done. -/
inductive Added (c : Cache σ) (g : Geometry) (s : Style) (handle : Handle) (c' : Cache σ) : Prop where
  | reused (entry : CachedShape) (rest : List CachedShape) (shape shape' : StoredShape)
      (waiting : c.previous = some (entry :: rest)) (handle_eq : entry.handle = handle)
      (kind : (entry.kind == g.kind) = true)
      (active : c'.active = c.active.push ⟨g.kind, handle⟩) (previous : c'.previous = some rest)
      (phase : c'.phase = c.phase) (still : Recording.view.Still c.surface c'.surface)
      (held : c.table.shape? handle = some shape)
      (written : c.table.Rewritten c'.table handle shape')
      (updated : Updated shape.style g s shape')
  | made (mid : Cache σ)
      (released : Released { c with previous := none } mid (handles c.pending).reverse)
      (accepted : Recorder.fault? g = none)
      (active : c'.active = c.active.push ⟨g.kind, handle⟩) (previous : c'.previous = none)
      (phase : c'.phase = c.phase) (still : Recording.view.Still mid.surface c'.surface)
      (created : mid.table.Created c'.table handle ⟨g, s⟩)

/-- What a request that failed has done. -/
inductive Refused (c : Cache σ) (g : Geometry) (c' : Cache σ) : Prop where
  | outside (closed : c.isDrawing = false) (same : c' = c)
  | kept (entry : CachedShape) (rest : List CachedShape) (shape : StoredShape)
      (waiting : c.previous = some (entry :: rest)) (active : c'.active = c.active)
      (previous : c'.previous = some (⟨g.kind, entry.handle⟩ :: rest))
      (phase : c'.phase = c.phase) (still : Recording.view.Still c.surface c'.surface)
      (written : c.table.Rewritten c'.table entry.handle shape)
      (kind : (shape.geometry.kind == g.kind) = true)
  | missed (mid : Cache σ)
      (released : Released { c with previous := none } mid (handles c.pending).reverse)
      (worked : Worked mid c') (table : c'.table = mid.table)

/-! ### Drawing a shape -/

theorem add_ends (h : Owning c) :
    Ends (add g s) c (fun handle c' => c.isDrawing = true ∧ Added c g s handle c')
      fun _ c' => Refused c g c' := by
  refine add_rule (fun hclosed => .outside hclosed rfl) ?_ ?_
  · intro hdrawing entry rest hwaiting hkind
    obtain ⟨shape, hshape, hheld⟩ := h.meets hwaiting hkind
    have hupdate := update_brings (c := { c with previous := some rest }) (s := s) hshape hheld
    refine hupdate.imp ?_ ?_
    · intro changed c₁ ⟨hworked, shape', hwritten, hupdated⟩
      have hactive : c₁.active = c.active := hworked.active
      refine ⟨hdrawing, .reused entry rest shape shape' hwaiting rfl hkind ?_ hworked.previous
        hworked.phase hworked.still hshape hwritten hupdated⟩
      rw [enlist_active, hactive]
    · intro _ c₁ ⟨hworked, shape', hwritten, hkind'⟩
      rw [pending_of_some hworked.previous]
      exact .kept entry rest shape' hwaiting hworked.active rfl hworked.phase hworked.still
        hwritten hkind'
  · intro hdrawing _ journal
    refine (releasePrevious_ends h.owns h.yields journal).imp ?_ fun _ _ h => h.elim
    intro _ c₁ hreleased
    refine (call_ends (Recording.create g s) c₁).imp ?_ ?_
    · intro handle c₂ ⟨hworked, hcreate⟩
      obtain ⟨haccepted, _, hcreated⟩ := Recorder.create_ok hcreate
      have hactive : c₂.active = c.active := hworked.active.trans hreleased.active
      refine ⟨hdrawing, .made c₁ hreleased haccepted ?_ (hworked.previous.trans hreleased.previous)
        (hworked.phase.trans hreleased.phase) hworked.still hcreated⟩
      rw [enlist_active, hactive]
    · intro _ c₂ ⟨hworked, htable⟩
      exact .missed c₁ hreleased hworked htable

/-! ### Ownership after a request -/

theorem Owning.added {handle : Handle} (h : Owning c) (hdrawing : c.isDrawing = true)
    (hadded : Added c g s handle c') : Owning c' := by
  have hnotIdle : c'.phase = c.phase → c'.isDrawing = false → c'.pending = [] := by
    intro hphase hidle
    unfold isDrawing at hdrawing hidle
    rw [hphase, hdrawing] at hidle
    cases hidle
  cases hadded with
  | reused entry rest shape shape' hwaiting hhandle hkind hactive hprevious hphase hstill _ hwritten
      hupdated =>
    have howned' : c'.owned = c.active.toList ++ ⟨g.kind, handle⟩ :: rest := by
      rw [owned_eq hprevious, hactive, Array.toList_push, List.append_assoc]
      rfl
    subst hhandle
    refine ⟨?_, ?_, hstill.yields h.yields, hnotIdle hphase⟩
    · have howns := h.owns
      rw [owned_eq hwaiting] at howns
      rw [howned']
      exact howns.write hwritten rfl hupdated.fits.shows.kind_beq
    · rw [hstill.asked, hwritten.removed]
      exact h.asked
  | made mid hreleased haccepted hactive hprevious hphase hstill hcreated =>
    have hmid := h.release hreleased
    have howned' : c'.owned = mid.owned ++ [⟨g.kind, handle⟩] := by
      unfold owned pending
      rw [hactive, hprevious, hreleased.active, hreleased.previous, Array.toList_push]
      simp only [Option.getD_none, List.append_nil]
    refine ⟨?_, ?_, hstill.yields hmid.yields, hnotIdle hphase⟩
    · rw [howned']
      exact hmid.owns.make hcreated (Geometry.kind_beq_self haccepted)
    · rw [hstill.asked, hcreated.removed]
      exact hmid.asked

theorem Owning.refused (h : Owning c) (hrefused : Refused c g c') : Owning c' := by
  cases hrefused with
  | outside _ hsame =>
    rw [hsame]
    exact h
  | kept entry rest shape hwaiting hactive hprevious hphase hstill hwritten hkind =>
    have howned' : c'.owned = c.active.toList ++ ⟨g.kind, entry.handle⟩ :: rest := by
      rw [owned_eq hprevious, hactive]
    refine ⟨?_, ?_, hstill.yields h.yields, ?_⟩
    · have howns := h.owns
      rw [owned_eq hwaiting] at howns
      rw [howned']
      exact howns.write hwritten rfl hkind
    · rw [hstill.asked, hwritten.removed]
      exact h.asked
    · intro hidle
      have hempty : c.pending = [] := h.idle (by rw [← hidle]; unfold isDrawing; rw [hphase])
      cases (pending_of_some hwaiting).symm.trans hempty
  | missed mid hreleased hworked htable =>
    have hmid := h.release hreleased
    have howned : c'.owned = mid.owned := by
      unfold owned pending
      rw [hworked.active, hworked.previous]
    refine ⟨?_, ?_, hworked.still.yields hmid.yields, ?_⟩
    · rw [howned, htable]
      exact hmid.owns
    · rw [hworked.still.asked, htable]
      exact hmid.asked
    · exact fun _ => pending_of_none (hworked.previous.trans hreleased.previous)

end Cache

end Redraw
