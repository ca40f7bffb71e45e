import Redraw.Proofs.Cache.Rules

namespace Redraw.Cache

variable {σ : Type} {P : ∀ {α : Type}, CacheM σ α → Prop}

/-- The property holds of each call on the surface, whatever it answers, and of steps that are made of
steps which have it. -/
structure OfCalls (P : ∀ {α : Type}, CacheM σ α → Prop) : Prop where
  done : ∀ {α : Type} (a : α), P (pure a : CacheM σ α)
  next : ∀ {α β : Type} {step : CacheM σ α} {next : α → CacheM σ β}, P step → (∀ a, P (next a)) →
    P (step >>= next)
  call : ∀ {α : Type} (act : EStateM SurfaceError σ α), P (onSurface act)
  refuse : ∀ {α : Type} (error : SurfaceError), P (throw (.surface error) : CacheM σ α)

section OfCalls

variable [Surface σ] (h : OfCalls P)
include h

theorem OfCalls.removeAll (entries : List CachedShape) : P (removeAll entries) := by
  induction entries with
  | nil => exact h.done ()
  | cons entry rest ih => exact h.next (h.call _) fun _ => ih

theorem OfCalls.applyEntries (handle : Handle) (entries : List (StyleKey × StyleValue)) :
    P (applyEntries handle entries) := by
  induction entries with
  | nil => exact h.done false
  | cons entry rest ih =>
    unfold Cache.applyEntries
    refine h.next (h.call _) fun held => ?_
    split
    · exact ih
    · exact h.next (h.call _) fun _ => h.next ih fun _ => h.done true

theorem OfCalls.applyFields (handle : Handle) (current wanted : Rect) (fields : List RectField) :
    P (applyFields handle current wanted fields) := by
  induction fields with
  | nil => exact h.done false
  | cons field rest ih =>
    unfold Cache.applyFields
    split
    · exact ih
    · exact h.next (h.call _) fun _ => h.next ih fun _ => h.done true

theorem OfCalls.update (handle : Handle) (g : Geometry) (s : Style) : P (update handle g s) := by
  have hrewrite : ∀ g : Geometry, P
      (onSurface (Surface.setGeometry handle g) >>= fun _ =>
        applyStyle handle s >>= fun _ => pure true) := fun g =>
    h.next (h.call _) fun _ => h.next (h.applyEntries _ _) fun _ => h.done true
  cases g with
  | ellipse => exact hrewrite _
  | polygon => exact hrewrite _
  | rect wanted =>
    refine h.next (h.call _) fun held => ?_
    cases held with
    | rect current =>
      refine h.next (h.applyFields _ _ _ _) fun _ => ?_
      exact h.next (h.applyEntries _ _) fun _ => h.done _
    | ellipse => exact h.refuse _
    | polygon => exact h.refuse _

end OfCalls

/-! ### Calls leave the cache alone -/

def OnlySurface (c c' : Cache σ) : Prop := ∃ surface, c' = { c with surface := surface }

theorem ofCalls_onlySurface : OfCalls fun step : CacheM σ _ =>
    ∀ c, Ends step c (fun _ c' => OnlySurface c c') fun _ c' => OnlySurface c c' where
  done _ c := Ends.pure ⟨c.surface, rfl⟩
  refuse _ c := Ends.throw ⟨c.surface, rfl⟩
  next := by
    intro _ _ step next hstep hnext c
    refine Ends.seq (hstep c) ?_
    intro a c₁ ⟨surface, hc₁⟩
    subst hc₁
    exact (hnext a _).both fun _ h => h
  call act c := by
    unfold Ends onSurface
    cases act c.surface with
    | ok a surface => exact ⟨surface, rfl⟩
    | error e surface => exact ⟨surface, rfl⟩

theorem releasePrevious_leaves [Surface σ] (c : Cache σ) :
    Ends releasePrevious c (fun _ c' => OnlySurface { c with previous := none } c')
      fun _ c' => OnlySurface { c with previous := none } c' := by
  unfold releasePrevious
  refine Ends.bind (Ends.get (Ends.bind (Ends.modify ?_)))
  exact ofCalls_onlySurface.removeAll _ _

theorem teardown_keepsJournal [Surface σ] (journal : List Event) :
    Keeps (fun c : Cache σ => c.journal = journal) teardown := by
  have hcall : ∀ c c' : Cache σ, c.journal = journal → OnlySurface c c' → c'.journal = journal := by
    intro c c' hc ⟨surface, hc'⟩
    subst hc'
    exact hc
  unfold teardown
  refine .bind ?_ fun _ => .bind .get fun c => .bind (.modify fun _ hc => hc) fun _ =>
    .bind ?_ fun _ => .modify fun _ hc => hc
  · intro c hc
    exact (releasePrevious_leaves c).both fun c' => hcall { c with previous := none } c' hc
  · intro c hc
    exact (ofCalls_onlySurface.removeAll _ c).both fun c' => hcall c c' hc

/-! ### Errors of calls -/

/-- The surface has refused a call, or holds something else than the cache has filed. -/
def OfSurface (e : CacheError) : Prop := ∃ error, e = .surface error

theorem ofCalls_ofSurface : OfCalls fun step : CacheM σ _ => Raises OfSurface step where
  done := Raises.pure
  next := Raises.bind
  refuse error := Raises.throw ⟨error, rfl⟩
  call act c := by
    unfold Ends onSurface
    cases act c.surface with
    | ok a surface => trivial
    | error e surface => exact ⟨e, rfl⟩

theorem releasePrevious_raises [Surface σ] : Raises OfSurface (releasePrevious : CacheM σ Unit) := by
  intro c
  unfold releasePrevious
  exact Ends.bind (Ends.get (Ends.bind (Ends.modify (ofCalls_ofSurface.removeAll _ _))))

end Redraw.Cache
