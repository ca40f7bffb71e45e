import Redraw.Proofs.Animation.Run
import Redraw.Proofs.Cache.Twin

namespace Redraw

/-! ### Caches in order -/

namespace Cache

/-- The cache owns what is on its surface, and no shape is unaccounted for. -/
structure InOrder (c : Cache Recorder) : Prop where
  owning : Owning c
  balanced : c.surface.Balanced

theorem lasting_inOrder : Cache.Lasting InOrder where
  op op _ h := ((op.run_ends h.owning).and (op.run_stable Recorder.stable_balanced h.owning
    h.balanced)).both fun _ h => ⟨h.1, h.2⟩
  note _ _ h := ⟨⟨h.owning.owns, h.owning.asked, h.owning.yields, h.owning.idle⟩, h.balanced⟩

theorem inOrder_onEmpty (supported : Option (List StyleKey)) : InOrder (onEmpty supported) := by
  refine ⟨owning_onEmpty supported, ?_, rfl⟩
  intro k hk
  have hnone : (onEmpty supported).surface.shape? k = none := shape?_onEmpty supported k
  rw [hnone] at hk
  cases hk

theorem teardown_untouches {σ : Type} [Surface σ] (c : Cache σ) :
    Ends teardown c (fun _ c' => c'.touched = #[]) fun _ _ => True := by
  unfold teardown
  refine Ends.seq Ends.trivial ?_
  intro _ c₁ _
  refine Ends.bind (Ends.get (Ends.bind (Ends.modify (Ends.bind ?_))))
  exact Ends.trivial.imp (fun _ _ _ => Ends.modify rfl) fun _ _ h => h

end Cache

/-! ### After a teardown -/

namespace Context

/-- Nothing is drawn, nothing waits to be drawn, and every shape that was created was removed. -/
structure Cleared (c : Context Recorder) : Prop where
  idle : c.cache.isDrawing = false
  active : c.cache.active = #[]
  pending : c.cache.pending = []
  touched : c.cache.touched = #[]
  batch : c.batch = #[]
  batchStyle : c.batchStyle = none
  live : c.cache.surface.liveShapes = []
  removed : c.cache.surface.stats.created = c.cache.surface.stats.removed

theorem teardown_clears {c : Context Recorder} (h : c.cache.InOrder) :
    Ends teardown c (fun _ c' => c'.Cleared) fun _ _ => False := by
  have hkeeps : Keeps Cache.InOrder (Cache.teardown : CacheM Recorder Unit) :=
    (Cache.lasting_inOrder.op .teardown).of_bind_pure
  refine Ends.bind (Ends.modify (onCache_ends ?_))
  refine (((Cache.teardown_ends h.owning).and (hkeeps _ h)).and
    (Cache.teardown_untouches _)).imp ?_ fun _ _ h => h.1.1
  intro _ c' ⟨⟨⟨howning, howned, hidle, _⟩, _, hbalanced⟩, htouched⟩
  obtain ⟨hactive, hpending⟩ := List.append_eq_nil_iff.mp howned
  have hlive : c'.surface.liveShapes = [] := by
    have hhandles := howning.owns.liveHandles_eq
    rw [howned] at hhandles
    exact List.map_eq_nil_iff.mp hhandles
  refine ⟨hidle, Array.toList_eq_nil_iff.mp hactive, hpending, htouched, rfl, rfl, hlive, ?_⟩
  have hcount : c'.surface.liveCount = 0 := by
    rw [Recorder.liveCount_eq, hlive]
    rfl
  have hbalance := hbalanced.count
  rw [hcount] at hbalance
  show c'.surface.stats.created = c'.surface.stats.removed
  omega

end Context

/-! ### After a run -/

/-- A script is run on a canvas that commands and other runs may have left in any state. Whether the run
succeeds or not, everything is gone afterwards: the teardown always succeeds, and an error is the one
with which the frames stopped. -/
theorem Animation.run_clears (supported : Option (List StyleKey)) (width height : Float)
    (past : List Deed) (a : Animation) (script : Script) (seen : Script.Seen) :
    let s : Scene Script.Seen Recorder :=
      ⟨seen, (Context.onCanvas { supported := supported } width height).afterAll past⟩
    Ends (a.run script.sketch) s
      (fun reports s' => s'.context.Cleared ∧ ∃ s₁, runFrames a script.sketch s = .ok reports s₁ ∧
        Context.teardown s₁.context = .ok () s'.context)
      fun e s' => s'.context.Cleared ∧ ∃ s₁, runFrames a script.sketch s = .error e s₁ ∧
        Raised script.sketch e s₁ ∧ Context.teardown s₁.context = .ok () s'.context := by
  intro s
  have hlasting := lasting_of_cache Cache.lasting_inOrder
  have hs : s.context.cache.InOrder :=
    hlasting.afterAll past (Cache.inOrder_onEmpty supported)
  have hclear : ∀ s₁ : Scene Script.Seen Recorder, s₁.context.cache.InOrder →
      Ends cleanUp s₁
        (fun _ s' => s'.context.Cleared ∧ Context.teardown s₁.context = .ok () s'.context)
        fun _ _ => False := by
    intro s₁ hs₁
    apply during_ends
    apply SceneM.onContext_ends
    apply Ends.intro
    · intro _ c' hrun
      exact ⟨(Context.teardown_clears hs₁).of_ok hrun, hrun⟩
    · intro e c' hrun
      exact (Context.teardown_clears hs₁).of_error hrun
  apply run_ends
  apply Ends.intro
  · intro reports s₁ hframes
    have hs₁ := (runFrames_ends hlasting (hlasting.script script) a hs).of_ok hframes
    refine (hclear s₁ hs₁).imp ?_ fun _ _ h => h.elim
    intro _ s' ⟨hcleared, hteardown⟩
    exact ⟨hcleared, s₁, hframes, hteardown⟩
  · intro e s₁ hframes
    obtain ⟨hs₁, hraised⟩ :=
      (runFrames_ends hlasting (hlasting.script script) a hs).of_error hframes
    refine (hclear s₁ hs₁).imp ?_ fun _ _ h => h.elim
    intro _ s' ⟨hcleared, hteardown⟩
    exact ⟨hcleared, s₁, hframes, hraised, hteardown⟩

end Redraw
