import Redraw.Proofs.Animation.Watched
import Redraw.Proofs.Cache.Calls

/-!
# Which frames are drawn

The frames whose number is a multiple of the cycle are shown, all others are drawn on a muted context.
-/

namespace Redraw

variable {τ σ : Type}

/-! ### The schedule -/

namespace Animation

/-- How many frames are drawn when so many are shown. -/
def drawsFor (a : Animation) (shown : Nat) : Nat :=
  if shown = 0 then 0 else (shown - 1) * (a.skipFrames + 1) + 1

def skips (a : Animation) (frame : Nat) : Bool := frame % (a.skipFrames + 1) != 0

/-- The calls of `draw` for the first frames, all of them answered. -/
def schedule (a : Animation) (draws : Nat) : List DrawCall :=
  (List.range draws).map fun frame => ⟨frame, a.skips frame, none⟩

variable {a : Animation}

theorem schedule_succ (draws : Nat) :
    a.schedule (draws + 1) = a.schedule draws ++ [⟨draws, a.skips draws, none⟩] := by
  unfold schedule
  rw [List.range_succ, List.map_append]
  rfl

theorem drawsFor_zero : a.drawsFor 0 = 0 := rfl

theorem drawsFor_succ (shown : Nat) : a.drawsFor (shown + 1) = shown * (a.skipFrames + 1) + 1 := rfl

theorem drawsFor_add_skipped (shown : Nat) :
    a.drawsFor shown + (if a.drawsFor shown = 0 then 0 else a.skipFrames) =
      shown * (a.skipFrames + 1) := by
  cases shown with
  | zero => simp [drawsFor_zero]
  | succ shown =>
    rw [drawsFor_succ, if_neg (Nat.succ_ne_zero _), Nat.add_mul, Nat.one_mul]
    omega

theorem skips_shown (shown : Nat) : a.skips (shown * (a.skipFrames + 1)) = false := by
  unfold skips
  rw [Nat.mul_mod_left]
  rfl

theorem skips_between {shown k : Nat} (h : k < a.skipFrames) :
    a.skips (shown * (a.skipFrames + 1) + 1 + k) = true := by
  unfold skips
  have hmod : (shown * (a.skipFrames + 1) + 1 + k) % (a.skipFrames + 1) = 1 + k := by
    rw [Nat.add_assoc, Nat.add_comm, Nat.add_mul_mod_self_right]
    exact Nat.mod_eq_of_lt (by omega)
  rw [hmod, bne_iff_ne]
  omega

theorem drawsFor_mono {shown shown' : Nat} (h : shown ≤ shown') :
    a.drawsFor shown ≤ a.drawsFor shown' := by
  cases shown with
  | zero => exact Nat.zero_le _
  | succ shown =>
    cases shown' with
    | zero => cases h
    | succ shown' =>
      have hle := Nat.mul_le_mul_right (a.skipFrames + 1) (Nat.le_of_succ_le_succ h)
      rw [drawsFor_succ, drawsFor_succ]
      omega

/-- A cycle is as long as it says unless it is longer than all frames together. -/
theorem drawsFor_displayedFrames_le (h : a.frames ≤ maxSetting) :
    a.drawsFor a.displayedFrames ≤ a.frames := by
  unfold displayedFrames
  cases hshown : a.frames / min (a.skipFrames + 1) maxSetting with
  | zero => exact Nat.zero_le _
  | succ shown =>
    have hmax : 0 < maxSetting := by decide
    have hle := Nat.div_mul_le_self a.frames (min (a.skipFrames + 1) maxSetting)
    rw [hshown, Nat.add_mul, Nat.one_mul] at hle
    rw [drawsFor_succ]
    by_cases hshort : a.skipFrames + 1 ≤ maxSetting
    · rw [Nat.min_eq_left hshort] at hle
      omega
    · -- the cycle is longer than any number of frames, so at most one frame is shown
      rw [Nat.min_eq_right (by omega)] at hle
      have hone : shown = 0 := by
        cases shown with
        | zero => rfl
        | succ shown =>
          rw [Nat.add_mul, Nat.one_mul] at hle
          omega
      subst hone
      omega

end Animation

/-! ### Steps that leave the mute flag alone -/

namespace Context

def KeepsMuted {α : Type} (step : ContextM σ α) : Prop :=
  ∀ muted, Keeps (fun c => c.muted = muted) step

theorem onCache_keepsMuted {α : Type} (step : CacheM σ α) : KeepsMuted (onCache step) :=
  fun _ _ hc => onCache_ends (Ends.trivial.imp (fun _ _ _ => hc) fun _ _ _ => hc)

theorem whenHeard_keepsMuted {step : ContextM σ Unit} (h : KeepsMuted step) :
    KeepsMuted (whenHeard step) := by
  intro muted
  exact Effect.keeping_allows_iff.mp (whenHeard_allows (Effect.keeping_allows_iff.mpr (h muted)))

theorem beginFrame_keepsMuted : KeepsMuted (beginFrame : ContextM σ Unit) :=
  whenHeard_keepsMuted fun muted =>
    (onCache_keepsMuted _ muted).bind fun _ => onCache_keepsMuted _ muted

variable [Surface σ]

theorem flushBatch_keepsMuted : KeepsMuted (flushBatch : ContextM σ Unit) := by
  intro muted
  unfold flushBatch
  refine .bind .get fun c => ?_
  split
  · exact .pure ()
  · exact .bind (.modify fun _ hc => hc) fun _ => onCache_keepsMuted _ muted

theorem endFrame_keepsMuted : KeepsMuted (endFrame : ContextM σ Unit) :=
  whenHeard_keepsMuted fun muted =>
    (flushBatch_keepsMuted muted).bind fun _ => onCache_keepsMuted _ muted

theorem teardown_keepsMuted : KeepsMuted (teardown : ContextM σ Unit) := fun muted =>
  .bind (.modify fun _ hc => hc) fun _ => onCache_keepsMuted _ muted

end Context

/-- The sketch does not mute its context, nor does it make itself heard. -/
def Sketch.KeepsMuted (sketch : Sketch τ σ) : Prop :=
  ∀ muted, sketch.Respects fun c => c.muted = muted

/-! ### Runs -/

namespace Animation

variable {a : Animation} {sketch : Sketch τ σ} {s : Scene (Watched τ) σ} {draws : Nat} {hushed : Bool}

/-- So many frames have been drawn as they should. -/
structure Drawn (a : Animation) (draws : Nat) (hushed : Bool) (s : Scene (Watched τ) σ) : Prop where
  calls : s.state.calls = a.schedule draws
  muted : s.context.muted = hushed

def stageOf (a : Animation) (frame : Nat) : RunStage :=
  if a.skips frame then .skippedFrame frame else .frame frame

/-- The last call of `draw` failed, and this is its error. -/
def Failed (a : Animation) (frame : Nat) (e : RunError) (s : Scene (Watched τ) σ) : Prop :=
  ∃ cause, s.state.calls = a.schedule frame ++ [⟨frame, a.skips frame, some cause⟩] ∧
    e = ⟨some (a.stageOf frame), cause⟩

/-- All calls of `draw` were answered, and something else failed. -/
def Interrupted (a : Animation) (draws : Nat) (e : RunError) (s : Scene (Watched τ) σ) : Prop :=
  s.state.calls = a.schedule draws ∧
    (e.stage = some .setup ∨ e.stage = none ∨ e.stage = some .teardown)

/-- Where a run stops that would have drawn so many frames. -/
def Stopped (a : Animation) (draws : Nat) (e : RunError) (s : Scene (Watched τ) σ) : Prop :=
  (∃ frame, frame < draws ∧ a.Failed frame e s) ∨ ∃ done, done ≤ draws ∧ a.Interrupted done e s

theorem Stopped.mono {draws' : Nat} {e : RunError} (h : a.Stopped draws e s) (hle : draws ≤ draws') :
    a.Stopped draws' e s := by
  rcases h with ⟨frame, hlt, hfailed⟩ | ⟨done, hdone, hinterrupted⟩
  · exact Or.inl ⟨frame, Nat.lt_of_lt_of_le hlt hle, hfailed⟩
  · exact Or.inr ⟨done, Nat.le_trans hdone hle, hinterrupted⟩

theorem draw_ends (hsketch : sketch.KeepsMuted) (h : a.Drawn draws (a.skips draws) s) :
    Ends (during (some (a.stageOf draws)) (sketch.watched.draw draws)) s
      (fun _ s' => a.Drawn (draws + 1) (a.skips draws) s')
      fun e s' => s'.context.muted = a.skips draws ∧ a.Failed draws e s' := by
  have hkeeps := (hsketch (a.skips draws)).draw draws s.unwatched h.muted
  apply during_ends
  apply Sketch.watched_draw_ends
  refine hkeeps.imp ?_ ?_
  · intro _ t ht
    refine ⟨?_, ht⟩
    rw [schedule_succ, ← h.calls, ← h.muted]
    rfl
  · intro cause t ht
    refine ⟨ht, cause, ?_, rfl⟩
    rw [← h.calls, ← h.muted]
    rfl

theorem drawSkipped_draws (hsketch : sketch.KeepsMuted) (count : Nat)
    (hskips : ∀ k, k < count → a.skips (draws + k) = true) (h : a.Drawn draws true s) :
    Ends (drawSkipped sketch.watched draws count) s (fun _ s' => a.Drawn (draws + count) true s')
      fun e s' => s'.context.muted = true ∧ ∃ frame, frame < draws + count ∧ a.Failed frame e s' := by
  induction count generalizing draws s with
  | zero => exact Ends.pure h
  | succ count ih =>
    have hskip : a.skips draws = true := hskips 0 (Nat.succ_pos _)
    have hdraw := draw_ends hsketch (hskip ▸ h)
    rw [stageOf, if_pos hskip, hskip] at hdraw
    unfold drawSkipped
    refine Ends.bind (hdraw.imp ?_ ?_)
    · intro _ s₁ h₁
      have hlater : ∀ k, k < count → a.skips (draws + 1 + k) = true := by
        intro k hk
        rw [Nat.add_right_comm]
        exact hskips (k + 1) (Nat.succ_lt_succ hk)
      have hrest := ih hlater h₁
      rw [Nat.add_right_comm] at hrest
      exact hrest
    · intro e s₁ h₁
      obtain ⟨hmuted, hfailed⟩ := h₁
      exact ⟨hmuted, draws, by omega, hfailed⟩

theorem onContext_draws {step : ContextM σ Unit} (hstep : Context.KeepsMuted step)
    (h : a.Drawn draws hushed s) :
    Ends (during none (SceneM.onContext step)) s (fun _ s' => a.Drawn draws hushed s')
      fun e s' => s'.context.muted = hushed ∧ a.Interrupted draws e s' := by
  apply during_ends
  apply SceneM.onContext_ends
  refine (hstep hushed s.context h.muted).imp ?_ ?_
  · intro _ c hc
    exact ⟨h.calls, hc⟩
  · intro _ c hc
    exact ⟨hc, h.calls, Or.inr (Or.inl rfl)⟩

theorem skipped_draws (hsketch : sketch.KeepsMuted) {shown skipped : Nat}
    (htotal : a.drawsFor shown + skipped = shown * (a.skipFrames + 1))
    (h : a.Drawn (a.drawsFor shown) false s) :
    Ends (muted (drawSkipped sketch.watched (a.drawsFor shown) skipped)) s
      (fun _ s' => a.Drawn (shown * (a.skipFrames + 1)) false s')
      fun e s' => s'.context.muted = false ∧ a.Stopped (shown * (a.skipFrames + 1)) e s' := by
  have hskips : ∀ k, k < skipped → a.skips (a.drawsFor shown + k) = true := by
    intro k hk
    cases shown with
    | zero =>
      rw [Nat.zero_mul, drawsFor_zero] at htotal
      omega
    | succ shown =>
      rw [drawsFor_succ, Nat.add_mul, Nat.one_mul] at htotal
      rw [drawsFor_succ]
      exact skips_between (by omega)
  have hmuted : a.Drawn (a.drawsFor shown) true { s with context := s.context.setMuted true } :=
    ⟨h.calls, rfl⟩
  apply muted_ends
  rw [← htotal]
  refine (drawSkipped_draws hsketch skipped hskips hmuted).imp ?_ ?_
  · intro _ s₁ h₁
    exact ⟨h₁.calls, rfl⟩
  · intro e s₁ ⟨_, frame, hlt, hfailed⟩
    exact ⟨rfl, Or.inl ⟨frame, hlt, hfailed⟩⟩

variable [Surface σ]

theorem showFrame_draws (hsketch : sketch.KeepsMuted) (hshown : a.skips draws = false)
    (h : a.Drawn draws false s) :
    Ends (showFrame a sketch.watched draws) s
      (fun report s' => a.Drawn (draws + 1) false s' ∧ report.frame = draws)
      fun e s' => s'.context.muted = false ∧ a.Stopped (draws + 1) e s' := by
  have hdraw : ∀ {s : Scene (Watched τ) σ}, a.Drawn draws false s →
      Ends (during (some (.frame draws)) (sketch.watched.draw draws)) s
        (fun _ s' => a.Drawn (draws + 1) false s')
        fun e s' => s'.context.muted = false ∧ a.Failed draws e s' := by
    intro s h
    have hends := draw_ends hsketch (hshown ▸ h)
    rwa [stageOf, hshown, if_neg Bool.false_ne_true] at hends
  unfold showFrame
  refine Ends.bind ((onContext_draws Context.beginFrame_keepsMuted h).imp ?_ ?_)
  · intro _ s₁ h₁
    refine Ends.bind ((hdraw h₁).imp ?_ ?_)
    · intro _ s₂ h₂
      refine Ends.bind ((onContext_draws Context.endFrame_keepsMuted h₂).imp ?_ ?_)
      · intro _ s₃ h₃
        exact Ends.bind (Ends.get (Ends.bind (Ends.modify (Ends.pure ⟨⟨h₃.calls, h₃.muted⟩, rfl⟩))))
      · intro e s₃ ⟨hmuted, hinterrupted⟩
        exact ⟨hmuted, Or.inr ⟨draws + 1, Nat.le_refl _, hinterrupted⟩⟩
    · intro e s₂ ⟨hmuted, hfailed⟩
      exact ⟨hmuted, Or.inl ⟨draws, Nat.lt_succ_self _, hfailed⟩⟩
  · intro e s₁ ⟨hmuted, hinterrupted⟩
    exact ⟨hmuted, Or.inr ⟨draws, Nat.le_succ _, hinterrupted⟩⟩

theorem showFrames_draws (hsketch : sketch.KeepsMuted) (left shown : Nat)
    (reports : Array FrameReport)
    (hreports : reports.toList.map FrameReport.frame =
      (List.range shown).map fun i => i * (a.skipFrames + 1))
    (h : a.Drawn (a.drawsFor shown) false s) :
    Ends (showFrames a sketch.watched left (a.drawsFor shown) reports) s
      (fun result s' => a.Drawn (a.drawsFor (shown + left)) false s' ∧
        result.1 = a.drawsFor (shown + left) ∧
        result.2.toList.map FrameReport.frame =
          (List.range (shown + left)).map fun i => i * (a.skipFrames + 1))
      fun e s' => s'.context.muted = false ∧ a.Stopped (a.drawsFor (shown + left)) e s' := by
  -- on the frames left; those shown so far have been reported
  induction left generalizing shown reports s with
  | zero => exact Ends.pure ⟨h, rfl, hreports⟩
  | succ left ih =>
    have hnext : a.drawsFor (shown + 1) ≤ a.drawsFor (shown + (left + 1)) := drawsFor_mono (by omega)
    have hshow : ∀ {s : Scene (Watched τ) σ}, a.Drawn (shown * (a.skipFrames + 1)) false s →
        Ends (showFrame a sketch.watched (shown * (a.skipFrames + 1)) >>= fun report =>
            showFrames a sketch.watched left (shown * (a.skipFrames + 1) + 1) (reports.push report)) s
          (fun result s' => a.Drawn (a.drawsFor (shown + (left + 1))) false s' ∧
            result.1 = a.drawsFor (shown + (left + 1)) ∧
            result.2.toList.map FrameReport.frame =
              (List.range (shown + (left + 1))).map fun i => i * (a.skipFrames + 1))
          fun e s' => s'.context.muted = false ∧ a.Stopped (a.drawsFor (shown + (left + 1))) e s' := by
      intro s h
      refine Ends.bind ((showFrame_draws hsketch (skips_shown shown) h).imp ?_ ?_)
      · intro report s₁ hreport
        obtain ⟨h₁, hframe⟩ := hreport
        have hreports₁ : (reports.push report).toList.map FrameReport.frame =
            (List.range (shown + 1)).map fun i => i * (a.skipFrames + 1) := by
          rw [Array.toList_push, List.map_append, hreports, List.range_succ, List.map_append,
            List.map_singleton, List.map_singleton, hframe]
        have hrest := ih (shown + 1) (reports.push report) hreports₁ h₁
        rw [show shown + 1 + left = shown + (left + 1) by omega] at hrest
        exact hrest
      · intro e s₁ he
        obtain ⟨hmuted, hstopped⟩ := he
        exact ⟨hmuted, hstopped.mono hnext⟩
    have htotal := drawsFor_add_skipped (a := a) shown
    unfold showFrames
    dsimp only
    generalize (if a.drawsFor shown = 0 then 0 else a.skipFrames) = skipped at htotal ⊢
    rw [htotal]
    split
    · refine Ends.bind ((skipped_draws hsketch htotal h).imp ?_ ?_)
      · intro _ s₁ h₁
        exact hshow h₁
      · intro e s₁ he
        obtain ⟨hmuted, hstopped⟩ := he
        exact ⟨hmuted, hstopped.mono (Nat.le_trans (Nat.le_succ _) hnext)⟩
    · next hnone =>
      have hskipped : skipped = 0 := by omega
      rw [hskipped, Nat.add_zero] at htotal
      exact hshow (htotal ▸ h)

theorem runFrames_draws (hsketch : sketch.KeepsMuted) (hcalls : s.state.calls = [])
    (hmuted : s.context.muted = false) :
    Ends (runFrames a sketch.watched) s
      (fun reports s' => a.Drawn (a.drawsFor a.displayedFrames) false s' ∧
        reports.map FrameReport.frame =
          (List.range a.displayedFrames).map (fun i => i * (a.skipFrames + 1)) ∧
        s'.context.cache.journal.head? = some (.finished (a.drawsFor a.displayedFrames)))
      fun e s' => s'.context.muted = false ∧ a.Stopped (a.drawsFor a.displayedFrames) e s' := by
  have hsetup := (hsketch false).setup s.unwatched hmuted
  unfold runFrames
  refine Ends.bind (during_ends (Sketch.watched_setup_ends (hsetup.imp ?_ ?_)))
  · intro _ t ht
    have hstart : a.Drawn (a.drawsFor 0) false (t.watched s.state.calls) := ⟨hcalls, ht⟩
    have hframes := showFrames_draws (a := a) hsketch a.displayedFrames 0 #[] rfl
      (s := { t.watched s.state.calls with context := { t.context with cache := { t.context.cache with
        journal := .running a.frames a.displayedFrames a.interval :: t.context.cache.journal } } })
      ⟨hstart.calls, hstart.muted⟩
    rw [Nat.zero_add] at hframes
    refine Ends.bind (Ends.modify (Ends.bind (hframes.imp_ok ?_)))
    intro (frame, reports) s₁ ⟨h₁, hframe, hreports⟩
    have hframe : frame = a.drawsFor a.displayedFrames := hframe
    subst hframe
    exact Ends.bind (Ends.modify (Ends.pure ⟨⟨h₁.calls, h₁.muted⟩, hreports, rfl⟩))
  · intro e t ht
    exact ⟨ht, Or.inr ⟨0, Nat.zero_le _, hcalls, Or.inl rfl⟩⟩

theorem cleanUp_leaves (s : Scene (Watched τ) σ) :
    Ends cleanUp s
      (fun _ s' => s'.state = s.state ∧ s'.context.muted = s.context.muted ∧
        s'.context.cache.journal = s.context.cache.journal)
      fun e s' => s'.state = s.state ∧ s'.context.muted = s.context.muted ∧
        e.stage = some .teardown := by
  have hmuted := Context.teardown_keepsMuted s.context.muted s.context rfl
  have hjournal : Ends Context.teardown s.context
      (fun _ c => c.cache.journal = s.context.cache.journal) fun _ _ => True := by
    refine Ends.bind (Ends.modify (Context.onCache_ends ?_))
    exact (Cache.teardown_keepsJournal _ _ rfl).imp (fun _ _ h => h) fun _ _ _ => trivial
  apply during_ends
  apply SceneM.onContext_ends
  refine (hmuted.and hjournal).imp ?_ ?_
  · intro _ c ⟨hmuted, hjournal⟩
    exact ⟨rfl, hmuted, hjournal⟩
  · intro e c ⟨hmuted, _⟩
    exact ⟨rfl, hmuted, rfl⟩

theorem stageOf_message (frame : Nat) (cause : SketchError) :
    RunError.message ⟨some (a.stageOf frame), cause⟩ =
      (if frame % (a.skipFrames + 1) ≠ 0 then "Sketch failed on skipped frame "
        else "Sketch failed on frame ") ++ toString frame ++ ": " ++ cause.message := by
  unfold stageOf skips
  by_cases hskip : frame % (a.skipFrames + 1) = 0
  · rw [hskip]
    rfl
  · rw [if_pos (bne_iff_ne.mpr hskip), if_pos hskip]
    rfl

/-- A run on a context that is heard, of a sketch that leaves it so, makes its calls of `draw` in the
order of the schedule, all of them if nothing fails, and reports the frames that are shown. A call that
fails is the last one, and the run fails with its error. The calls never outnumber the frames, and the
context is heard in the end. -/
theorem run_scheduled (a : Animation) (hframes : a.frames ≤ maxSetting) (sketch : Sketch τ σ)
    (hsketch : sketch.KeepsMuted) (s : Scene τ σ) (hs : s.context.muted = false) :
    a.drawsFor a.displayedFrames ≤ a.frames ∧
      Ends (a.run sketch.watched) (s.watched [])
        (fun reports s' => s'.context.muted = false ∧ a.run sketch s = .ok reports s'.unwatched ∧
          s'.state.calls = a.schedule (a.drawsFor a.displayedFrames) ∧
          reports.map FrameReport.frame =
            (List.range a.displayedFrames).map (fun i => i * (a.skipFrames + 1)) ∧
          s'.context.cache.journal.head? = some (.finished (a.drawsFor a.displayedFrames)))
        fun e s' => s'.context.muted = false ∧ a.run sketch s = .error e s'.unwatched ∧
          ((∃ frame cause, frame < a.drawsFor a.displayedFrames ∧
              s'.state.calls = a.schedule frame ++ [⟨frame, a.skips frame, some cause⟩] ∧
              e.cause = cause ∧ e.message =
                (if frame % (a.skipFrames + 1) ≠ 0 then "Sketch failed on skipped frame "
                  else "Sketch failed on frame ") ++ toString frame ++ ": " ++ cause.message) ∨
            ∃ draws, draws ≤ a.drawsFor a.displayedFrames ∧ s'.state.calls = a.schedule draws ∧
              (e.stage = some .setup ∨ e.stage = none ∨ e.stage = some .teardown)) := by
  have hunwatched : (s.watched []).IsUnwatched s := rfl
  have hsame := run_unwatched a sketch hunwatched
  have hrun : Ends (a.run sketch.watched) (s.watched [])
      (fun reports s' => s'.context.muted = false ∧
        s'.state.calls = a.schedule (a.drawsFor a.displayedFrames) ∧
        reports.map FrameReport.frame =
          (List.range a.displayedFrames).map (fun i => i * (a.skipFrames + 1)) ∧
        s'.context.cache.journal.head? = some (.finished (a.drawsFor a.displayedFrames)))
      fun e s' => s'.context.muted = false ∧ a.Stopped (a.drawsFor a.displayedFrames) e s' := by
    refine run_ends ((runFrames_draws hsketch rfl hs).imp ?_ ?_)
    · intro reports s₁ ⟨h₁, hreports, hjournal⟩
      refine (cleanUp_leaves s₁).imp ?_ ?_
      · intro _ s₂ ⟨hstate, hmuted, hjournal₂⟩
        rw [hstate, hmuted, hjournal₂]
        exact ⟨h₁.muted, h₁.calls, hreports, hjournal⟩
      · intro e s₂ ⟨hstate, hmuted, hstage⟩
        refine ⟨hmuted.trans h₁.muted, Or.inr ⟨_, Nat.le_refl _, ?_, Or.inr (Or.inr hstage)⟩⟩
        rw [hstate]
        exact h₁.calls
    · intro e s₁ ⟨hmuted₁, hstopped⟩
      have hleft : ∀ s₂ : Scene (Watched τ) σ, s₂.state = s₁.state →
          s₂.context.muted = s₁.context.muted →
          s₂.context.muted = false ∧ a.Stopped (a.drawsFor a.displayedFrames) e s₂ := by
        intro s₂ hstate hmuted
        refine ⟨hmuted.trans hmuted₁, ?_⟩
        unfold Stopped Failed Interrupted at hstopped ⊢
        rwa [hstate]
      refine (cleanUp_leaves s₁).imp ?_ ?_
      · intro _ s₂ ⟨hstate, hmuted, _⟩
        exact hleft s₂ hstate hmuted
      · intro _ s₂ ⟨hstate, hmuted, _⟩
        exact hleft s₂ hstate hmuted
  refine ⟨drawsFor_displayedFrames_le hframes, (hrun.and hsame).imp ?_ ?_⟩
  · intro reports s' ⟨⟨hmuted, hcalls, hreports, hjournal⟩, t, ht, hwatched⟩
    have hwatched : t = s'.unwatched := hwatched
    exact ⟨hmuted, hwatched ▸ ht, hcalls, hreports, hjournal⟩
  · intro e s' ⟨⟨hmuted, hstopped⟩, t, ht, hwatched⟩
    have hwatched : t = s'.unwatched := hwatched
    refine ⟨hmuted, hwatched ▸ ht, ?_⟩
    rcases hstopped with ⟨frame, hlt, cause, hcalls, he⟩ | ⟨draws, hle, hcalls, hstage⟩
    · subst he
      exact Or.inl ⟨frame, cause, hlt, hcalls, rfl, stageOf_message frame cause⟩
    · exact Or.inr ⟨draws, hle, hcalls, hstage⟩

/-- The second frame is skipped, and fails. -/
theorem run_scheduled_outOfPaint :
    let a : Animation := ⟨6, 30, 1, false⟩
    let sketch : Sketch Unit Recorder :=
      { draw := fun frame => if frame = 1 then throw (.other "out of paint") else pure () }
    let s : Scene Unit Recorder := ⟨(), Context.onCanvas {} 4.0 4.0⟩
    a.frames ≤ maxSetting ∧ sketch.KeepsMuted ∧ s.context.muted = false ∧
      Ends (a.run sketch.watched) (s.watched []) (fun _ _ => False) fun e s' =>
        s'.context.muted = false ∧ s'.state.calls = [⟨0, false, none⟩, ⟨1, true, some e.cause⟩] ∧
          e.message = "Sketch failed on skipped frame 1: " ++ e.cause.message := by
  intro a sketch s
  have hframes : a.frames ≤ maxSetting := by decide
  have hsketch : sketch.KeepsMuted := by
    intro muted
    refine ⟨Keeps.pure (), ?_⟩
    intro frame
    show Keeps _ (if frame = 1 then _ else _)
    split
    · exact Keeps.throw _
    · exact Keeps.pure ()
  have hends := (run_scheduled a hframes sketch hsketch s rfl).2
  have hrun : (match a.run sketch.watched (s.watched []) with
      | .ok _ _ => none
      | .error e s' => some (e.stage, s'.state.calls.length)) =
        some (some (.skippedFrame 1), 2) := by decide +kernel
  refine ⟨hframes, hsketch, rfl, ?_⟩
  unfold Ends at hends ⊢
  split at hrun
  · cases hrun
  · next e s' hfailed =>
    rw [hfailed] at hends
    injection hrun with hrun
    injection hrun with hstage hlength
    obtain ⟨hmuted, -, ⟨frame, cause, -, hcalls, hcause, hmessage⟩ | ⟨_, -, -, h⟩⟩ := hends
    · have hframe : frame = 1 := by
        rw [hcalls, List.length_append, schedule, List.length_map, List.length_range] at hlength
        exact Nat.succ.inj hlength
      subst hframe hcause
      rw [hfailed]
      exact ⟨hmuted, hcalls, hmessage⟩
    · rw [hstage] at h
      simp at h

end Animation

end Redraw
