import Redraw.Proofs.Animation.Schedule
import Redraw.Proofs.Context.Echo
import Redraw.Surface.Probe

namespace Redraw

variable {τ σ : Type}

/-- The sketch whose frames are those of another whose numbers are multiples of the cycle. -/
def Sketch.every (sketch : Sketch τ σ) (cycle : Nat) : Sketch τ σ where
  setup := sketch.setup
  draw frame := sketch.draw (frame * cycle)

/-- No frame needs anything that a frame before it has left behind, except on the surface. -/
structure Sketch.SelfContained (sketch : Sketch τ σ) : Prop where
  repeats : ∀ {frame : Nat} {s t : Scene τ σ}, s.Echoes false t →
    Matches (Scene.Echoes false) (sketch.draw frame) (sketch.draw frame) s t
  unheard : ∀ {frame : Nat} {s : Scene τ σ}, s.context.muted = true →
    Ends (sketch.draw frame) s (fun _ s' => s.context.OnlyVertices s'.context) fun _ _ => True

/-! ### Scripts -/

theorem Command.paints_of_selfContained {begun : Bool} {commands : List Command}
    (h : selfContained begun commands = true) : ∀ command ∈ commands, command.paints = true := by
  induction commands generalizing begun with
  | nil => nofun
  | cons command rest ih =>
    unfold selfContained at h
    simp only [Bool.and_eq_true] at h
    exact List.forall_mem_cons.mpr ⟨h.1.1, ih h.2⟩

theorem Script.selfContained [Surface σ] {script : Script}
    (h : ∀ commands ∈ script.frames, Command.selfContained false commands = true) :
    (script.sketch (σ := σ)).SelfContained := by
  have hcommands : ∀ frame, Command.selfContained false (script.commandsAt frame) = true := by
    intro frame
    unfold Script.commandsAt
    cases hlist : script.frames[frame % script.frames.length]? with
    | none => rfl
    | some commands => exact h commands (List.mem_of_getElem? hlist)
  constructor
  · intro frame s t hst
    exact .modify_bind (Command.runAll_echoes _ (hcommands frame) hst)
  · intro frame s hmuted
    refine Ends.bind (Ends.modify ?_)
    exact Command.runAll_unheard _ (Command.paints_of_selfContained (hcommands frame)) hmuted

def FrameReport.counts (report : FrameReport) : Nat × Nat := (report.touched, report.live)

namespace Animation

/-- The animation that shows as many frames and skips none. -/
def shownOnly (a : Animation) : Animation := { a with frames := a.displayedFrames, skipFrames := 0 }

theorem displayedFrames_shownOnly (a : Animation) :
    a.shownOnly.displayedFrames = a.displayedFrames := Nat.div_one _

variable {a : Animation} {sketch : Sketch τ σ} {s s' t : Scene τ σ}

theorem ok_of_during {α : Type} {stage : Option RunStage} {step : SceneM τ σ α} {x : α}
    (h : during stage step s = .ok x s') : step s = .ok x s' := by
  unfold during at h
  cases hrun : step s with
  | ok y s₁ =>
    rw [hrun] at h
    cases h
    rfl
  | error e s₁ =>
    rw [hrun] at h
    cases h

theorem during_echoes {α : Type} {stage : Option RunStage} (stage' : Option RunStage)
    {step step' : SceneM τ σ α} {x : α} (h : Matches (Scene.Echoes false) step step' s t)
    (hrun : during stage step s = .ok x s') :
    ∃ t', during stage' step' t = .ok x t' ∧ s'.Echoes false t' := by
  obtain ⟨t', hrun', hst⟩ := h.of_ok (ok_of_during hrun)
  refine ⟨t', ?_, hst⟩
  unfold during
  rw [hrun']

theorem note_echoes {event : Event} (event' : Event) (h : s.Echoes false t)
    (hrun : note event s = .ok () s') : ∃ t', note event' t = .ok () t' ∧ s'.Echoes false t' := by
  cases hrun
  exact ⟨_, rfl, h.note _ _⟩

theorem drawSkipped_unheard (hsketch : sketch.SelfContained) (count frame : Nat)
    (hmuted : s.context.muted = true) :
    Ends (drawSkipped sketch frame count) s (fun _ s' => s.context.OnlyVertices s'.context)
      fun _ _ => True := by
  induction count generalizing frame s with
  | zero => exact Ends.pure ⟨s.context.vertices, rfl⟩
  | succ count ih =>
    unfold drawSkipped
    refine Ends.bind (during_ends ((hsketch.unheard hmuted).imp_ok ?_))
    intro _ s₁ h₁
    obtain ⟨vertices, hs₁⟩ := h₁
    have hmuted₁ : s₁.context.muted = true := by
      rw [hs₁]
      exact hmuted
    refine (ih (frame + 1) hmuted₁).imp_ok ?_
    intro _ s₂ h₂
    obtain ⟨vertices₂, hs₂⟩ := h₂
    refine ⟨vertices₂, ?_⟩
    rw [hs₂, hs₁]

/-- The frames that are skipped leave no trace but their vertices. -/
theorem skipped_echoes (hsketch : sketch.SelfContained) (frame count : Nat) (h : s.Echoes false t)
    (hrun : muted (drawSkipped sketch frame count) s = .ok () s') : s'.Echoes false t := by
  have hends : Ends (muted (drawSkipped sketch frame count)) s
      (fun _ s' => s.context.OnlyVertices s'.context) fun _ _ => True := by
    apply muted_ends
    refine (drawSkipped_unheard hsketch count frame rfl).imp_ok ?_
    intro _ s₁ ⟨vertices, hs₁⟩
    refine ⟨vertices, ?_⟩
    rw [hs₁]
    show { s.context with vertices := vertices, muted := false } = _
    rw [← h.1]
  obtain ⟨vertices, hs'⟩ := hends.of_ok hrun
  obtain ⟨hheard, journal, vertices', -, ht⟩ := h
  unfold Scene.Echoes
  rw [hs', ht]
  exact ⟨hheard, journal, vertices', nofun, rfl⟩

variable [Surface σ]

theorem showFrame_echoes (hsketch : sketch.SelfContained) {shown : Nat} {report : FrameReport}
    (h : s.Echoes false t)
    (hrun : showFrame a sketch (shown * (a.skipFrames + 1)) s = .ok report s') :
    ∃ report' t', showFrame a.shownOnly (sketch.every (a.skipFrames + 1)) shown t =
        .ok report' t' ∧ report'.counts = report.counts ∧ s'.Echoes false t' := by
  obtain ⟨_, s₁, hopen, hrun⟩ := ok_of_bind hrun
  obtain ⟨_, s₂, hdraw, hrun⟩ := ok_of_bind hrun
  obtain ⟨_, s₃, hclose, hrun⟩ := ok_of_bind hrun
  obtain ⟨t₁, hopen', h₁⟩ := during_echoes none
    (Command.onContext_echoes (Context.beginFrame_repeats _ _ _ h)) hopen
  obtain ⟨t₂, hdraw', h₂⟩ := during_echoes (some (.frame shown)) (hsketch.repeats h₁) hdraw
  obtain ⟨t₃, hclose', h₃⟩ := during_echoes none
    (Command.onContext_echoes (Context.endFrame_repeats _ _ _ h₂)) hclose
  cases hrun
  have hcounts : (t₃.context.cache.touched.size, t₃.context.cache.active.size) =
      (s₃.context.cache.touched.size, s₃.context.cache.active.size) := by
    obtain ⟨-, journal, vertices, -, ht₃⟩ := h₃
    rw [ht₃]
    rfl
  exact ⟨_, _, (bind_of_ok hopen').trans ((bind_of_ok hdraw').trans (bind_of_ok hclose')), hcounts,
    h₃.note _ _⟩

theorem showFrames_succ (hsketch : sketch.SelfContained) {left shown : Nat}
    {reports : Array FrameReport} {result : Nat × Array FrameReport} (h : s.Echoes false t)
    (hrun : showFrames a sketch (left + 1) (a.drawsFor shown) reports s = .ok result s') :
    ∃ s₁ report s₂, s₁.Echoes false t ∧
      showFrame a sketch (shown * (a.skipFrames + 1)) s₁ = .ok report s₂ ∧
      showFrames a sketch left (a.drawsFor (shown + 1)) (reports.push report) s₂ =
        .ok result s' := by
  have htotal := drawsFor_add_skipped (a := a) shown
  unfold showFrames at hrun
  dsimp only at hrun
  generalize (if a.drawsFor shown = 0 then 0 else a.skipFrames) = skipped at htotal hrun
  rw [htotal] at hrun
  split at hrun
  · obtain ⟨_, s₁, hskip, hrun⟩ := ok_of_bind hrun
    obtain ⟨report, s₂, hshow, hrun⟩ := ok_of_bind hrun
    exact ⟨s₁, report, s₂, skipped_echoes hsketch _ _ h hskip, hshow, hrun⟩
  · obtain ⟨report, s₂, hshow, hrun⟩ := ok_of_bind hrun
    exact ⟨s, report, s₂, h, hshow, hrun⟩

theorem showFrames_echoes (hsketch : sketch.SelfContained) (left shown : Nat)
    (reports reports' : Array FrameReport)
    (hcounts : reports'.toList.map FrameReport.counts = reports.toList.map FrameReport.counts)
    {result : Nat × Array FrameReport} (h : s.Echoes false t)
    (hrun : showFrames a sketch left (a.drawsFor shown) reports s = .ok result s') :
    ∃ result' t', showFrames a.shownOnly (sketch.every (a.skipFrames + 1)) left shown reports' t =
        .ok result' t' ∧
      result'.2.toList.map FrameReport.counts = result.2.toList.map FrameReport.counts ∧
      s'.Echoes false t' := by
  -- on the frames left; those shown so far have counted the same
  induction left generalizing shown reports reports' s t with
  | zero =>
    cases hrun
    exact ⟨_, t, rfl, hcounts, h⟩
  | succ left ih =>
    obtain ⟨s₁, report, s₂, h₁, hshow, hrest⟩ := showFrames_succ hsketch h hrun
    obtain ⟨report', t₂, hshow', hreport, h₂⟩ := showFrame_echoes hsketch h₁ hshow
    have hcounts₂ : (reports'.push report').toList.map FrameReport.counts =
        (reports.push report).toList.map FrameReport.counts := by
      rw [Array.toList_push, Array.toList_push, List.map_append, List.map_append, hcounts,
        List.map_singleton, List.map_singleton, hreport]
    obtain ⟨result', t', hrest', hresult, hst⟩ := ih (shown + 1) _ _ hcounts₂ h₂ hrest
    refine ⟨result', t', ?_, hresult, hst⟩
    have hskipped : (if shown = 0 then 0 else a.shownOnly.skipFrames) = 0 := ite_self 0
    unfold showFrames
    dsimp only
    rw [hskipped, if_neg (Nat.lt_irrefl 0)]
    exact (bind_of_ok hshow').trans hrest'

theorem runFrames_echoes (hsketch : sketch.SelfContained) {reports : List FrameReport}
    (hheard : ∀ s₁, sketch.setup s = .ok () s₁ → s₁.context.muted = false)
    (hrun : runFrames a sketch s = .ok reports s') :
    ∃ reports' t', runFrames a.shownOnly (sketch.every (a.skipFrames + 1)) s = .ok reports' t' ∧
      reports'.map FrameReport.counts = reports.map FrameReport.counts ∧ s'.Echoes false t' := by
  obtain ⟨_, s₁, hsetup, hrun⟩ := ok_of_bind hrun
  obtain ⟨_, s₂, hnote, hrun⟩ := ok_of_bind hrun
  obtain ⟨result, s₃, hframes, hrun⟩ := ok_of_bind hrun
  have h₁ : s₁.Echoes false s₁ :=
    ⟨hheard s₁ (ok_of_during hsetup), s₁.context.cache.journal, s₁.context.vertices, nofun, rfl⟩
  obtain ⟨t₂, hnote', h₂⟩ := note_echoes
    (.running a.shownOnly.frames a.shownOnly.displayedFrames a.shownOnly.interval) h₁ hnote
  obtain ⟨⟨frame', reports'⟩, t₃, hframes', hcounts, h₃⟩ :=
    showFrames_echoes hsketch a.displayedFrames 0 #[] #[] rfl h₂ hframes
  obtain ⟨_, s₄, hdone, hrun⟩ := ok_of_bind hrun
  obtain ⟨t₄, hdone', h₄⟩ := note_echoes (.finished frame') h₃ hdone
  cases hrun
  rw [← displayedFrames_shownOnly] at hframes'
  have hsetup' : during (some .setup) (sketch.every (a.skipFrames + 1)).setup s = .ok () s₁ := hsetup
  refine ⟨reports'.toList, t₄, ?_, hcounts, h₄⟩
  unfold runFrames
  rw [bind_of_ok hsetup', bind_of_ok hnote', bind_of_ok hframes']
  exact bind_of_ok hdone'

/-- On any surface, a run that skips frames which draw by themselves leaves everything but the journal and
the collected vertices as the run does that has only the frames shown. -/
theorem run_shownOnly (hsketch : sketch.SelfContained) {reports : List FrameReport}
    (hheard : ∀ s₁, sketch.setup s = .ok () s₁ → s₁.context.muted = false)
    (hrun : a.run sketch s = .ok reports s') :
    ∃ reports' t' journal vertices,
      a.shownOnly.run (sketch.every (a.skipFrames + 1)) s = .ok reports' t' ∧
      t'.context = s'.context.echo journal vertices ∧
      reports'.map FrameReport.counts = reports.map FrameReport.counts := by
  obtain ⟨s₁, hframes, hclear⟩ := ok_of_run hrun
  obtain ⟨reports', t₁, hframes', hcounts, h₁⟩ := runFrames_echoes hsketch hheard hframes
  obtain ⟨t', hclear', -, journal, vertices, -, ht'⟩ := during_echoes (some .teardown)
    (Command.onContext_echoes (Context.teardown_repeats _ _ _ h₁)) hclear
  exact ⟨reports', t', journal, vertices, run_of_ok hframes' hclear', ht', hcounts⟩

/-- The lists of a script draw by themselves, and its setup leaves the context heard. If a run succeeds,
then so does the run that has only the frames shown, from the same beginning. It makes the same calls on
the surface, and as many shapes are touched and alive after each frame. -/
theorem skipping_unseen (a : Animation) (script : Script)
    (hscript : ∀ commands ∈ script.frames, Command.selfContained false commands = true)
    (s : Scene Script.Seen (Probe σ))
    (hheard : ∀ s₁, script.sketch.setup s = .ok () s₁ → s₁.context.muted = false)
    {reports : List FrameReport} {s' : Scene Script.Seen (Probe σ)}
    (hrun : a.run script.sketch s = .ok reports s') :
    ∃ reports' t', a.shownOnly.run (script.sketch.every (a.skipFrames + 1)) s = .ok reports' t' ∧
      t'.context.cache.surface.calls = s'.context.cache.surface.calls ∧
      t'.context.cache.surface.inner = s'.context.cache.surface.inner ∧
      reports'.map FrameReport.counts = reports.map FrameReport.counts := by
  obtain ⟨reports', t', journal, vertices, hrun', ht', hcounts⟩ :=
    run_shownOnly (Script.selfContained hscript) hheard hrun
  have hsurface : t'.context.cache.surface = s'.context.cache.surface := by
    rw [ht']
    rfl
  exact ⟨reports', t', hrun', congrArg Probe.calls hsurface, congrArg Probe.inner hsurface, hcounts⟩

/-- The triangle is skipped. -/
theorem skipping_unseen_triangle :
    let a : Animation := ⟨4, 30, 1, false⟩
    let script : Script :=
      ⟨[.noStroke], [[.ellipse 2.0 2.0 1.0 1.0],
        [.beginShape, .vertex (0.0, 0.0), .vertex (2.0, 0.0), .vertex (0.0, 2.0), .endShape true],
        [.ellipse 1.0 1.0 1.0 1.0]]⟩
    let s : Scene Script.Seen (Probe Recorder) :=
      ⟨{}, Context.onCanvas { inner := Recorder.empty } 4.0 4.0⟩
    (∀ commands ∈ script.frames, Command.selfContained false commands = true) ∧
      (∀ s₁, script.sketch.setup s = .ok () s₁ → s₁.context.muted = false) ∧
      ∃ reports s', a.run script.sketch s = .ok reports s' ∧
        s'.context.cache.surface.calls.length = 7 ∧
        ∃ reports' t', a.shownOnly.run (script.sketch.every (a.skipFrames + 1)) s = .ok reports' t' ∧
          t'.context.cache.surface.calls = s'.context.cache.surface.calls ∧
          reports'.map FrameReport.counts = reports.map FrameReport.counts := by
  intro a script s
  have hscript : ∀ commands ∈ script.frames, Command.selfContained false commands = true := by decide
  have hheard : ∀ s₁, script.sketch.setup s = .ok () s₁ → s₁.context.muted = false := by
    intro s₁ hsetup
    cases hsetup
    rfl
  have hpasses : passes (a.run script.sketch) s
      (fun _ s' => s'.context.cache.surface.calls.length == 7) = true := by decide +kernel
  obtain ⟨reports, hrun, hlength⟩ := ok_of_passes hpasses
  obtain ⟨reports', t', hrun', hcalls, -, hcounts⟩ := skipping_unseen a script hscript s hheard hrun
  exact ⟨hscript, hheard, reports, _, hrun, beq_iff_eq.mp hlength, reports', t', hrun', hcalls, hcounts⟩

/-- A setup that mutes the context: it is heard again once a frame was skipped, and never otherwise. -/
theorem skipping_seen_mutedSetup :
    let a : Animation := ⟨4, 30, 1, false⟩
    let script : Script := ⟨[.setMuted true], [[.ellipse 2.0 2.0 1.0 1.0]]⟩
    let s : Scene Script.Seen (Probe Recorder) :=
      ⟨{}, Context.onCanvas { inner := Recorder.empty } 4.0 4.0⟩
    (∀ commands ∈ script.frames, Command.selfContained false commands = true) ∧
      s.context.muted = false ∧
      ∃ reports s' reports' t', a.run script.sketch s = .ok reports s' ∧
        a.shownOnly.run (script.sketch.every (a.skipFrames + 1)) s = .ok reports' t' ∧
        s'.context.cache.surface.calls = [.remove ⟨0⟩, .create .ellipse] ∧
        t'.context.cache.surface.calls = [] ∧
        reports.map FrameReport.counts = [(0, 0), (1, 1)] ∧
        reports'.map FrameReport.counts = [(0, 0), (0, 0)] := by
  intro a script s
  have hskipping : passes (a.run script.sketch) s (fun reports s' =>
      s'.context.cache.surface.calls == [.remove ⟨0⟩, .create .ellipse] &&
        reports.map FrameReport.counts == [(0, 0), (1, 1)]) = true := by decide +kernel
  have hshown : passes (a.shownOnly.run (script.sketch.every (a.skipFrames + 1))) s
      (fun reports' t' => t'.context.cache.surface.calls == [] &&
        reports'.map FrameReport.counts == [(0, 0), (0, 0)]) = true := by decide +kernel
  obtain ⟨reports, hrun, hcheck⟩ := ok_of_passes hskipping
  obtain ⟨reports', hrun', hcheck'⟩ := ok_of_passes hshown
  simp only [Bool.and_eq_true, beq_iff_eq] at hcheck hcheck'
  exact ⟨by decide, rfl, reports, _, reports', _, hrun, hrun', hcheck.1, hcheck'.1, hcheck.2, hcheck'.2⟩

end Animation

end Redraw
