import Redraw.Cache
import Redraw.Proofs.Ending

/-!
# The ways an operation goes

One rule for each step that goes several ways: to show how the step ends, it is enough to show it for
each way.
-/

namespace Redraw.Cache

variable {σ : Type} {c : Cache σ}

/-- The shape of a request is drawn; if it was made or changed, it is to be redrawn. -/
def enlist (c : Cache σ) (entry : CachedShape) (changed : Bool) : Cache σ := { c with
  active := c.active.push entry
  touched := if changed then c.touched.push entry.handle else c.touched }

section Enlist

variable {entry : CachedShape} {changed : Bool}

@[simp] theorem enlist_active : (c.enlist entry changed).active = c.active.push entry := rfl

@[simp] theorem enlist_pending : (c.enlist entry changed).pending = c.pending := rfl

@[simp] theorem enlist_touched : (c.enlist entry changed).touched =
    if changed then c.touched.push entry.handle else c.touched := rfl

end Enlist

theorem pending_of_none (hprevious : c.previous = none) : c.pending = [] := by
  unfold pending
  rw [hprevious]
  rfl

theorem pending_of_some {waiting : List CachedShape} (hprevious : c.previous = some waiting) :
    c.pending = waiting := by
  unfold pending
  rw [hprevious]
  rfl

/-- At the start of a frame nothing is drawn, and the shapes of the frame before wait. -/
def opened (c : Cache σ) : Cache σ := { c with
  active := #[]
  previous := some c.active.toList
  touched := #[]
  phase := .drawing }

theorem clear_ends (c : Cache σ) :
    Ends clear c (fun _ c' => c.isDrawing = false ∧ c' = c.opened)
      fun _ c' => c.isDrawing = true ∧ c' = c := by
  unfold clear
  refine Ends.bind (Ends.get ?_)
  cases hdrawing : c.isDrawing with
  | true => exact Ends.bind (Ends.throw ⟨rfl, rfl⟩)
  | false => exact Ends.modify ⟨rfl, rfl⟩

theorem ensureDrawing_ends (c : Cache σ) :
    Ends ensureDrawing c (fun _ c' => c.isDrawing = true ∧ c' = c)
      fun e c' => e = .protocol .requestOutsideFrame ∧ c.isDrawing = false ∧ c' = c := by
  unfold ensureDrawing
  refine Ends.bind (Ends.get ?_)
  cases hdrawing : c.isDrawing with
  | true => exact Ends.pure ⟨rfl, rfl⟩
  | false => exact Ends.throw ⟨rfl, rfl, rfl⟩

theorem keepingSlot_ends {α : Type} {entry : CachedShape} {step : CacheM σ α}
    {ok : α → Cache σ → Prop} {fail : CacheError → Cache σ → Prop}
    (h : Ends step c ok fun e c' => fail e { c' with previous := some (entry :: c'.pending) }) :
    Ends (keepingSlot entry step) c ok fail := by
  unfold Ends at h ⊢
  unfold keepingSlot
  cases hrun : step c with
  | ok a c' =>
    rw [hrun] at h
    exact h
  | error e c' =>
    rw [hrun] at h
    exact h

variable [Surface σ] {fail : CacheError → Cache σ → Prop}

theorem releasePrevious_of_pending (h : c.pending = []) :
    releasePrevious c = .ok () { c with previous := none } := by
  show (removeAll c.pending.reverse : CacheM σ Unit) { c with previous := none } = _
  rw [h]
  rfl

theorem flush_rule {ok : Unit → Cache σ → Prop} (hidle : c.isDrawing = false → ok () c)
    (hclose : c.isDrawing = true → ∀ journal,
      Ends releasePrevious { c with phase := .idle, journal := journal } ok fail) :
    Ends flush c ok fail := by
  unfold flush
  refine Ends.bind (Ends.get ?_)
  cases hdrawing : c.isDrawing with
  | false => exact Ends.pure (hidle hdrawing)
  | true =>
    refine Ends.bind (Ends.modify (Ends.bind (Ends.get ?_)))
    dsimp only
    split
    · exact Ends.bind (Ends.modify (hclose hdrawing _))
    · exact hclose hdrawing _

/-- The first shape that waits serves the request, or all that waits is given up. -/
theorem takeCached_rule {kind : ShapeKind} {ok : Option Handle → Cache σ → Prop}
    (hmet : ∀ entry rest, c.previous = some (entry :: rest) → (entry.kind == kind) = true →
      ok (some entry.handle) { c with previous := some rest })
    (hmissed : (∀ entry rest, c.previous = some (entry :: rest) → ¬(entry.kind == kind) = true) →
      ∀ journal, Ends releasePrevious { c with journal := journal } (fun _ => ok none) fail) :
    Ends (takeCached kind) c ok fail := by
  have hempty : c.pending = [] → (∀ entry rest, c.previous ≠ some (entry :: rest)) →
      ok none { c with previous := none } := by
    intro hpending hnone
    have hrelease := hmissed (fun entry rest hprevious => absurd hprevious (hnone entry rest)) c.journal
    exact hrelease.of_ok (releasePrevious_of_pending hpending)
  unfold takeCached
  refine Ends.bind (Ends.get ?_)
  split
  · next hprevious =>
    have hok := hempty (pending_of_none hprevious) (by rw [hprevious]; exact nofun)
    rw [← hprevious] at hok
    exact Ends.pure hok
  · next hprevious =>
    have hok := hempty (pending_of_some hprevious) (by rw [hprevious]; exact nofun)
    exact Ends.bind (Ends.modify (Ends.pure hok))
  · next entry rest hprevious =>
    split
    · next hkind => exact Ends.bind (Ends.modify (Ends.pure (hmet entry rest hprevious hkind)))
    · next hkind =>
      refine Ends.bind (Ends.get (Ends.bind (Ends.modify (Ends.bind ?_))))
      refine hmissed ?_ _
      intro entry' rest' hprevious'
      cases hprevious.symm.trans hprevious'
      exact hkind

/-- A request meets the first shape that waits and updates it, or gives up all that waits and makes a
new shape. -/
theorem add_rule {g : Geometry} {s : Style} {ok : Handle → Cache σ → Prop}
    (houtside : c.isDrawing = false → fail (.protocol .requestOutsideFrame) c)
    (hmet : c.isDrawing = true → ∀ entry rest, c.previous = some (entry :: rest) →
      (entry.kind == g.kind) = true →
      Ends (update entry.handle g s) { c with previous := some rest }
        (fun changed c' => ok entry.handle (c'.enlist ⟨g.kind, entry.handle⟩ changed))
        fun e c' => fail e { c' with previous := some (⟨g.kind, entry.handle⟩ :: c'.pending) })
    (hmissed : c.isDrawing = true →
      (∀ entry rest, c.previous = some (entry :: rest) → ¬(entry.kind == g.kind) = true) →
      ∀ journal, Ends releasePrevious { c with journal := journal }
        (fun _ c₁ => Ends (onSurface (Surface.create g s)) c₁
          (fun handle c₂ => ok handle (c₂.enlist ⟨g.kind, handle⟩ true)) fail) fail) :
    Ends (add g s) c ok fail := by
  unfold add
  refine Ends.bind ((ensureDrawing_ends c).imp ?_ ?_)
  · rintro _ c₀ ⟨hdrawing, rfl⟩
    refine Ends.bind (takeCached_rule ?_ ?_)
    · intro entry rest hwaiting hkind
      refine Ends.bind (keepingSlot_ends ((hmet hdrawing entry rest hwaiting hkind).imp_ok ?_))
      intro changed c₁ hok
      cases changed with
      | true => exact Ends.bind (Ends.modify (Ends.bind (Ends.modify (Ends.pure hok))))
      | false => exact Ends.bind (Ends.modify (Ends.pure hok))
    · intro hnone journal
      refine (hmissed hdrawing hnone journal).imp_ok fun _ c₁ hcreate => Ends.bind (hcreate.imp_ok ?_)
      intro handle c₂ hok
      exact Ends.bind (Ends.modify (Ends.bind (Ends.modify (Ends.pure hok))))
  · rintro _ c₀ ⟨rfl, hclosed, rfl⟩
    exact houtside hclosed

end Redraw.Cache
