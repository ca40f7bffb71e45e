import Redraw.Proofs.Cache.Calls
import Redraw.Proofs.Cache.Twin

/-!
# The journal of a cache

A cache writes to its journal and never looks at it.
-/

namespace Redraw.Cache

variable {σ α β : Type}

/-- The other cache is the same but for its journal. -/
def Echoes (c d : Cache σ) : Prop := ∃ journal, d = { c with journal := journal }

def IgnoresJournal (step : CacheM σ α) : Prop :=
  ∀ c d : Cache σ, c.Echoes d → Matches Echoes step step c d

namespace IgnoresJournal

variable {step : CacheM σ α}

protected theorem pure (a : α) : IgnoresJournal (pure a : CacheM σ α) := fun _ _ h => .pure h

protected theorem throw (e : CacheError) : IgnoresJournal (throw e : CacheM σ α) :=
  fun _ _ h => .throw h

protected theorem bind {next : α → CacheM σ β} (h : IgnoresJournal step)
    (hnext : ∀ a, IgnoresJournal (next a)) : IgnoresJournal (step >>= next) :=
  fun c d hcd => (h c d hcd).bind fun a => hnext a

protected theorem modify {f : Cache σ → Cache σ}
    (hf : ∀ c journal, (f c).Echoes (f { c with journal := journal })) :
    IgnoresJournal (modify f : CacheM σ Unit) := by
  intro c d ⟨journal, hd⟩
  subst hd
  exact .modify (hf c journal)

theorem get_bind {next : Cache σ → CacheM σ α}
    (hread : ∀ c journal, next { c with journal := journal } = next c)
    (hnext : ∀ c, IgnoresJournal (next c)) : IgnoresJournal (get >>= next) := by
  intro c d hcd
  have hmatches := hnext c c d hcd
  obtain ⟨journal, hd⟩ := hcd
  subst hd
  apply Matches.get_bind
  rw [hread c journal]
  exact hmatches

end IgnoresJournal

theorem ofCalls_ignoresJournal : OfCalls fun step : CacheM σ _ => IgnoresJournal step where
  done := .pure
  next := .bind
  refuse _ := .throw _
  call act := by
    intro c d ⟨journal, hd⟩
    subst hd
    unfold Matches Ends onSurface
    dsimp only
    cases act c.surface with
    | ok a surface => exact ⟨_, rfl, journal, rfl⟩
    | error e surface => exact ⟨_, rfl, journal, rfl⟩

theorem note_ignoresJournal (event : Event) : IgnoresJournal (note event : CacheM σ Unit) :=
  .modify fun _ journal => ⟨event :: journal, rfl⟩

theorem touch_ignoresJournal (handle : Handle) : IgnoresJournal (touch handle : CacheM σ Unit) :=
  .modify fun _ journal => ⟨journal, rfl⟩

theorem keepingSlot_ignoresJournal (entry : CachedShape) {step : CacheM σ α}
    (h : IgnoresJournal step) : IgnoresJournal (keepingSlot entry step) := by
  intro c d hcd
  apply keepingSlot_ends
  unfold keepingSlot
  refine (h c d hcd).imp ?_ ?_
  · intro a c' ⟨d', hrun, hcd'⟩
    refine ⟨d', ?_, hcd'⟩
    rw [hrun]
  · intro e c' ⟨d', hrun, journal, hd'⟩
    subst hd'
    refine ⟨_, ?_, journal, rfl⟩
    rw [hrun]
    rfl

theorem ensureDrawing_ignoresJournal : IgnoresJournal (ensureDrawing : CacheM σ Unit) := by
  refine .get_bind (fun _ _ => rfl) fun c => ?_
  split
  · exact .throw _
  · exact .pure ()

theorem beginFrame_ignoresJournal : IgnoresJournal (beginFrame : CacheM σ Unit) :=
  .modify fun _ journal => ⟨journal, rfl⟩

theorem clear_ignoresJournal : IgnoresJournal (clear : CacheM σ Unit) := by
  refine .get_bind (fun _ _ => rfl) fun c => ?_
  split
  · exact .bind (.throw _) fun _ => .modify fun _ journal => ⟨journal, rfl⟩
  · exact .modify fun _ journal => ⟨journal, rfl⟩

variable [Surface σ]

theorem releasePrevious_ignoresJournal : IgnoresJournal (releasePrevious : CacheM σ Unit) := by
  refine .get_bind (fun _ _ => rfl) fun c => ?_
  refine .bind (.modify fun _ journal => ⟨journal, rfl⟩) fun _ => ?_
  exact ofCalls_ignoresJournal.removeAll _

theorem takeCached_ignoresJournal (kind : ShapeKind) :
    IgnoresJournal (takeCached kind : CacheM σ (Option Handle)) := by
  refine .get_bind (fun _ _ => rfl) fun c => ?_
  split
  · exact .pure none
  · exact .bind (.modify fun _ journal => ⟨journal, rfl⟩) fun _ => .pure none
  · split
    · exact .bind (.modify fun _ journal => ⟨journal, rfl⟩) fun _ => .pure _
    · refine .get_bind (fun _ _ => rfl) fun c => ?_
      exact (note_ignoresJournal _).bind fun _ =>
        releasePrevious_ignoresJournal.bind fun _ => .pure none

theorem add_ignoresJournal (g : Geometry) (style : Style) :
    IgnoresJournal (add g style : CacheM σ Handle) := by
  have hfile : ∀ entry : CachedShape, IgnoresJournal
      (modify fun c : Cache σ => { c with active := c.active.push entry }) := fun _ =>
    .modify fun _ journal => ⟨journal, rfl⟩
  unfold add
  refine ensureDrawing_ignoresJournal.bind fun _ => (takeCached_ignoresJournal g.kind).bind ?_
  intro found
  cases found with
  | none =>
    refine (ofCalls_ignoresJournal.call _).bind fun handle => ?_
    exact (touch_ignoresJournal handle).bind fun _ => (hfile _).bind fun _ => .pure handle
  | some handle =>
    refine (keepingSlot_ignoresJournal _ (ofCalls_ignoresJournal.update handle g style)).bind ?_
    intro changed
    cases changed with
    | true => exact (touch_ignoresJournal handle).bind fun _ => (hfile _).bind fun _ => .pure handle
    | false => exact (hfile _).bind fun _ => .pure handle

theorem flush_ignoresJournal : IgnoresJournal (flush : CacheM σ Unit) := by
  refine .get_bind (fun _ _ => rfl) fun c => ?_
  split
  · refine .bind (.modify fun _ journal => ⟨journal, rfl⟩) fun _ => ?_
    refine .get_bind (fun _ _ => rfl) fun c => ?_
    dsimp only
    split
    · exact (note_ignoresJournal _).bind fun _ => releasePrevious_ignoresJournal
    · exact releasePrevious_ignoresJournal
  · exact .pure ()

theorem teardown_ignoresJournal : IgnoresJournal (teardown : CacheM σ Unit) := by
  refine releasePrevious_ignoresJournal.bind fun _ => .get_bind (fun _ _ => rfl) fun c => ?_
  refine .bind (.modify fun _ journal => ⟨journal, rfl⟩) fun _ => ?_
  refine (ofCalls_ignoresJournal.removeAll _).bind fun _ => ?_
  exact .modify fun _ journal => ⟨journal, rfl⟩

end Redraw.Cache
