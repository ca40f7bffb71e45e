import Redraw.Proofs.Cache.Acceptance
import Redraw.Proofs.Cache.Calls
import Redraw.Proofs.Cache.Run
import Redraw.Proofs.Equality

namespace Redraw

open CachedShape

variable {σ : Type} [Surface σ]

/-- The surface takes the removals one after another. -/
inductive Surface.Removes : List Handle → σ → σ → Prop
  | nil (surface : σ) : Removes [] surface surface
  | cons {handle : Handle} {rest : List Handle} {surface mid surface' : σ}
      (hremove : Surface.remove handle surface = .ok () mid) (hrest : Removes rest mid surface') :
      Removes (handle :: rest) surface surface'

namespace Cache

open Surface (Removes)

variable {c c' : Cache σ} {g : Geometry} {s : Style} {e : CacheError} {handle : Handle}
  {rest : List CachedShape}

/-! ### Giving up what waits -/

theorem removeAll_ok_iff {entries : List CachedShape} : removeAll entries c = .ok () c' ↔
    ∃ surface, Removes (handles entries) c.surface surface ∧ c' = { c with surface := surface } := by
  induction entries generalizing c with
  | nil =>
    constructor
    · intro hrun
      cases hrun
      exact ⟨_, .nil _, rfl⟩
    · rintro ⟨_, ⟨⟩, rfl⟩
      rfl
  | cons entry rest ih =>
    have hcall : ∀ {mid}, Surface.remove entry.handle c.surface = .ok () mid →
        removeAll (entry :: rest) c = removeAll rest { c with surface := mid } := by
      intro mid hremove
      apply bind_of_ok
      unfold onSurface
      rw [hremove]
    constructor
    · intro hrun
      cases hremove : Surface.remove entry.handle c.surface with
      | ok _ mid =>
        obtain ⟨surface, hrest, hc'⟩ := ih.mp ((hcall hremove).symm.trans hrun)
        exact ⟨surface, .cons hremove hrest, hc'⟩
      | error e mid =>
        have hfails : onSurface (Surface.remove entry.handle) c =
            .error (.surface e) { c with surface := mid } := by
          unfold onSurface
          rw [hremove]
        cases (bind_of_error hfails).symm.trans hrun
    · rintro ⟨surface, hremoves, rfl⟩
      cases hremoves with
      | cons hremove hrest => exact (hcall hremove).trans (ih.mpr ⟨surface, hrest, rfl⟩)

theorem releasePrevious_of_removes {surface : σ}
    (h : Removes (handles c.pending).reverse c.surface surface) :
    releasePrevious c = .ok () { c with previous := none, surface := surface } := by
  have hreversed : handles c.pending.reverse = (handles c.pending).reverse := List.map_reverse
  rw [← hreversed] at h
  exact (removeAll_ok_iff (c := { c with previous := none })).mpr ⟨surface, h, rfl⟩

/-- A cache that alone writes to its surface can always remove what waits. -/
theorem Owning.removable [Recording σ] (h : Owning c) :
    ∃ surface, Removes (handles c.pending).reverse c.surface surface := by
  obtain ⟨_, c', hrun, -⟩ := (removeNewest_ends h.owns h.yields).answers
  obtain ⟨surface, hremoves, -⟩ := removeAll_ok_iff.mp hrun
  have hreversed : handles c.pending.reverse = (handles c.pending).reverse := List.map_reverse
  exact ⟨surface, hreversed ▸ hremoves⟩

/-! ### A shape that waits for its request -/

omit [Surface σ] in
theorem previous_of_pending {entry : CachedShape} (h : c.pending = entry :: rest) :
    c.previous = some (entry :: rest) := by
  unfold pending at h
  cases hprevious : c.previous with
  | none =>
    rw [hprevious] at h
    cases h
  | some waiting =>
    rw [hprevious] at h
    exact congrArg some h

/-- The shape at the head of what waits would serve a request of the kind. -/
def Awaits (c : Cache σ) (kind : ShapeKind) (handle : Handle) (rest : List CachedShape) : Prop :=
  ∃ held, c.pending = ⟨held, handle⟩ :: rest ∧ (held == kind) = true

/-- What a request leaves that was tried on the shape at the head and failed. -/
structure PutBack (c : Cache σ) (kind : ShapeKind) (handle : Handle) (rest : List CachedShape)
    (c' : Cache σ) : Prop where
  pending : c'.pending = ⟨kind, handle⟩ :: rest
  active : c'.active = c.active
  touched : c'.touched = c.touched
  phase : c'.phase = c.phase

omit [Surface σ] in
theorem Awaits.self {kind : ShapeKind} (h : c.Awaits kind handle rest) : (kind == kind) = true := by
  obtain ⟨held, -, hkind⟩ := h
  exact ShapeKind.beq_trans (ShapeKind.beq_symm hkind) hkind

theorem Awaits.add_ends {kind : ShapeKind} (h : c.Awaits kind handle rest)
    (hdrawing : c.isDrawing = true) (hkind : (kind == g.kind) = true) :
    Ends (add g s) c
      (fun answer c' => answer = handle ∧ c'.active = c.active.push ⟨g.kind, handle⟩ ∧
        c'.pending = rest)
      fun e c' => OfSurface e ∧ PutBack c g.kind handle rest c' := by
  obtain ⟨held, hpending, hheld⟩ := h
  have hprevious := previous_of_pending hpending
  refine add_rule ?_ ?_ ?_
  · exact fun hidle => absurd (hdrawing.symm.trans hidle) nofun
  · intro _ entry rest' hwaiting _
    cases hprevious.symm.trans hwaiting
    have hcalls := ofCalls_onlySurface.update handle g s { c with previous := some rest }
    refine (hcalls.and (ofCalls_ofSurface.update handle g s _)).imp ?_ ?_
    · rintro changed _ ⟨⟨surface, rfl⟩, -⟩
      exact ⟨rfl, rfl, rfl⟩
    · rintro e _ ⟨⟨surface, rfl⟩, herror⟩
      exact ⟨herror, rfl, rfl, rfl, rfl⟩
  · intro _ hmissed
    exact absurd (ShapeKind.beq_trans hheld hkind) (hmissed _ _ hprevious)

theorem PutBack.add_ends {kind : ShapeKind} (h : PutBack c kind handle rest c')
    (hself : (kind == kind) = true) (hdrawing : c.isDrawing = true) (hkind : (kind == g.kind) = true) :
    Ends (add g s) c'
      (fun answer c₂ => answer = handle ∧ c₂.active = c.active.push ⟨g.kind, handle⟩ ∧
        c₂.pending = rest)
      fun _ c₂ => c₂.active = c.active ∧ c₂.pending = ⟨g.kind, handle⟩ :: rest := by
  have hawaits : c'.Awaits kind handle rest := ⟨kind, h.pending, hself⟩
  have hdrawing' : c'.isDrawing = true := by
    unfold isDrawing at hdrawing ⊢
    rw [h.phase]
    exact hdrawing
  refine (hawaits.add_ends hdrawing' hkind).imp ?_ ?_
  · rintro answer c₂ ⟨hanswer, hactive, hrest⟩
    exact ⟨hanswer, h.active ▸ hactive, hrest⟩
  · rintro e c₂ ⟨-, hback⟩
    exact ⟨hback.active.trans h.active, hback.pending⟩

/-! ### A request that no waiting shape serves -/

/-- What a request leaves that met no shape of its kind and failed: all that waited is removed, and no
shape was made. -/
structure GivenUp (c : Cache σ) (g : Geometry) (s : Style) (c' : Cache σ) : Prop where
  pending : c'.pending = []
  active : c'.active = c.active
  touched : c'.touched = c.touched
  surface : ∃ surface, Removes (handles c.pending).reverse c.surface surface ∧
    ∃ error, Surface.create g s surface = .error error c'.surface

theorem add_missed_ends {surface : σ} (hdrawing : c.isDrawing = true)
    (hmissed : ∀ entry rest, c.pending = entry :: rest → ¬(entry.kind == g.kind) = true)
    (hremoves : Removes (handles c.pending).reverse c.surface surface) :
    Ends (add g s) c (fun _ _ => True) fun e c' => OfSurface e ∧ GivenUp c g s c' := by
  refine add_rule ?_ ?_ ?_
  · exact fun hidle => absurd (hdrawing.symm.trans hidle) nofun
  · intro _ entry rest hwaiting hkind
    exact absurd hkind (hmissed entry rest (pending_of_some hwaiting))
  · intro _ _ journal
    refine Ends.of_eq (releasePrevious_of_removes (c := { c with journal := journal }) hremoves)
      (Ends.pure ?_)
    unfold Ends onSurface
    cases hcreate : Surface.create g s surface with
    | ok answer surface' => trivial
    | error error surface' =>
      exact ⟨⟨error, rfl⟩, rfl, rfl, rfl, surface, hremoves, error, hcreate⟩

/-! ### Requests that fail -/

/-- A request that fails within a frame has drawn nothing and marked nothing. If it met the first shape
that waits, the shape waits there as before, filed under a kind that is equal, and the next request of
the kind gets it or leaves it again. If it met none, all that waited is removed. -/
theorem failed_keeps_slot (hdrawing : c.isDrawing = true)
    (hremovable : ∃ surface, Removes (handles c.pending).reverse c.surface surface)
    (hfailed : add g s c = .error e c') :
    OfSurface e ∧ c'.active = c.active ∧ c'.touched = c.touched ∧
      (c.pending = [] ∧ c'.pending = [] ∨
        (∃ entry rest, c.pending = entry :: rest ∧ (entry.kind == g.kind) = true ∧
          c'.pending = ⟨g.kind, entry.handle⟩ :: rest ∧
          ∀ g' s', (g.kind == g'.kind) = true → Ends (add g' s') c'
            (fun answer c₂ => answer = entry.handle ∧
              c₂.active = c.active.push ⟨g'.kind, entry.handle⟩ ∧ c₂.pending = rest)
            fun _ c₂ => c₂.active = c.active ∧ c₂.pending = ⟨g'.kind, entry.handle⟩ :: rest) ∨
        ∃ entry rest, c.pending = entry :: rest ∧ (entry.kind == g.kind) = false ∧
          c'.pending = [] ∧ ∃ surface, Removes (handles c.pending).reverse c.surface surface ∧
            ∃ error, Surface.create g s surface = .error error c'.surface) := by
  obtain ⟨surface, hremoves⟩ := hremovable
  cases hwaiting : c.pending with
  | nil =>
    obtain ⟨herror, hgiven⟩ := (add_missed_ends hdrawing
      (fun _ _ hcons => absurd (hwaiting.symm.trans hcons) nofun) hremoves).of_error hfailed
    exact ⟨herror, hgiven.active, hgiven.touched, Or.inl ⟨rfl, hgiven.pending⟩⟩
  | cons entry rest =>
    cases hkind : entry.kind == g.kind with
    | true =>
      have hawaits : c.Awaits g.kind entry.handle rest := ⟨entry.kind, hwaiting, hkind⟩
      obtain ⟨herror, hback⟩ := (hawaits.add_ends hdrawing hawaits.self).of_error hfailed
      refine ⟨herror, hback.active, hback.touched, Or.inr (Or.inl ?_)⟩
      exact ⟨entry, rest, rfl, hkind, hback.pending, fun g' s' => hback.add_ends hawaits.self hdrawing⟩
    | false =>
      have hmissed : ∀ entry' rest', c.pending = entry' :: rest' → ¬(entry'.kind == g.kind) = true := by
        intro entry' rest' hcons
        cases hwaiting.symm.trans hcons
        rw [hkind]
        exact nofun
      obtain ⟨herror, hgiven⟩ := (add_missed_ends hdrawing hmissed hremoves).of_error hfailed
      refine ⟨herror, hgiven.active, hgiven.touched, Or.inr (Or.inr ?_)⟩
      exact ⟨entry, rest, rfl, hkind, hgiven.pending, hwaiting ▸ hgiven.surface⟩

/-- A square waits and is asked for with a size below zero, then with a proper one. -/
theorem failed_keeps_slot_square :
    let c := runAll plainSquare (onEmpty none)
    handles c.pending = [⟨0⟩] ∧ ∃ e c', add (.rect ⟨2.0, 0.0, -1.0, 1.0⟩) {} c = .error e c' ∧
      handles c'.pending = [⟨0⟩] ∧ ∃ c₂, add (.rect ⟨2.0, 0.0, 1.0, 1.0⟩) {} c' = .ok ⟨0⟩ c₂ := by
  intro c
  have hwaits : handles c.pending = [⟨0⟩] := by decide +kernel
  have hdrawing : c.isDrawing = true := by decide +kernel
  have hkinds : c.pending.all (fun entry => entry.kind == .rect) = true := by decide +kernel
  have hfails : passes (add (.rect ⟨2.0, 0.0, -1.0, 1.0⟩) {}) c (fun _ _ => true) = false := by
    decide +kernel
  have hanswers : passes (add (.rect ⟨2.0, 0.0, 1.0, 1.0⟩) {})
      (stateAfter (add (.rect ⟨2.0, 0.0, -1.0, 1.0⟩) {}) c) (fun _ _ => true) = true := by decide +kernel
  unfold passes at hfails
  unfold stateAfter at hanswers
  refine ⟨hwaits, ?_⟩
  have howning : Owning c := (owning_onEmpty none).runAll plainSquare
  cases hrun : add (.rect ⟨2.0, 0.0, -1.0, 1.0⟩) {} c with
  | ok answer c' =>
    rw [hrun] at hfails
    cases hfails
  | error e c' =>
    rw [hrun] at hanswers
    refine ⟨e, c', rfl, ?_⟩
    obtain ⟨-, -, -, hcases⟩ := failed_keeps_slot hdrawing howning.removable hrun
    rcases hcases with ⟨hnone, -⟩ | ⟨entry, rest, hwaiting, -, hback, hserves⟩ |
      ⟨entry, rest, hwaiting, hkind, -⟩
    · rw [hnone] at hwaits
      cases hwaits
    · rw [hwaiting] at hwaits
      obtain ⟨answer, hrun', -⟩ := ok_of_passes hanswers
      obtain ⟨hanswer, -⟩ := (hserves (.rect ⟨2.0, 0.0, 1.0, 1.0⟩) {} rfl).of_ok hrun'
      have hentry : entry.handle = ⟨0⟩ := (List.cons.inj hwaits).1
      rw [hanswer, hentry] at hrun'
      rw [hback]
      exact ⟨hwaits, _, hrun'⟩
    · rw [hwaiting] at hkinds
      exact absurd ((List.all_eq_true.mp hkinds entry List.mem_cons_self).symm.trans hkind) nofun

end Cache

end Redraw
