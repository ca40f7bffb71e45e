import Redraw.Proofs.Animation.Skipping
import Redraw.Proofs.Cache.Standing
import Redraw.Proofs.Context.Direct

/-!
# Runs of one scene

A sketch whose frames all ask for the same shapes makes them in the first frame that is shown and never
again.
-/

namespace Redraw

open Cache

variable {τ σ : Type}

/-! ### Sketches with a scene -/

/-- As long as the sketch is ready, a frame that is heard serves the requests of some picture of the
scene at once, a muted one leaves the cache alone, and the sketch stays ready. -/
structure Sketch.Stages [Surface σ] (sketch : Sketch τ σ) (ready : Scene τ σ → Prop)
    (scene : List Request → Prop) : Prop where
  apart : ∀ {s : Scene τ σ} (cache : Cache σ) (muted : Bool), ready s →
    ready { s with context := { s.context with cache := cache, muted := muted } }
  unheld : ∀ {s : Scene τ σ}, ready s → s.context.batchStyle = none
  heard : ∀ {frame : Nat} {s : Scene τ σ}, ready s → s.context.muted = false →
    s.context.cache.isDrawing = true →
    Ends (sketch.draw frame) s
      (fun _ s' => ready s' ∧ s'.context.muted = false ∧
        ∃ requests, scene requests ∧ Serves requests s.context.cache s'.context.cache)
      fun _ _ => True
  unheard : ∀ {frame : Nat} {s : Scene τ σ}, ready s → s.context.muted = true →
    Ends (sketch.draw frame) s
      (fun _ s' => ready s' ∧ s'.context.muted = true ∧ s'.context.cache = s.context.cache)
      fun _ _ => True

namespace SceneM

variable {ready : Scene τ σ → Prop} {part rest : SceneM τ σ Unit}

/-- A part of a frame that is heard serves the requests of a part of the picture. -/
def Stages [Surface σ] (ready : Scene τ σ → Prop) (scene : List Request → Prop)
    (part : SceneM τ σ Unit) : Prop :=
  ∀ {s : Scene τ σ}, ready s → s.context.muted = false → s.context.cache.isDrawing = true →
    Ends part s
      (fun _ s' => ready s' ∧ s'.context.muted = false ∧
        ∃ requests, scene requests ∧ Serves requests s.context.cache s'.context.cache)
      fun _ _ => True

theorem Stages.seq [Surface σ] {first later scene : List Request → Prop}
    (hpart : Stages ready first part) (hrest : Stages ready later rest)
    (hscene : ∀ {requests requests' : List Request}, first requests → later requests' →
      scene (requests ++ requests')) :
    Stages ready scene (part >>= fun _ => rest) := by
  intro s hready hheard hdrawing
  refine Ends.seq (hpart hready hheard hdrawing) ?_
  intro _ s₁ ⟨hready₁, hheard₁, requests, hfirst, hserves⟩
  refine (hrest hready₁ hheard₁ (hserves.isDrawing hdrawing)).imp_ok ?_
  intro _ s₂ ⟨hready₂, hheard₂, requests', hlater, hserves'⟩
  exact ⟨hready₂, hheard₂, _, hscene hfirst hlater, hserves.append hserves'⟩

/-- A part of a frame that is muted leaves the cache alone. -/
def Idles (ready : Scene τ σ → Prop) (part : SceneM τ σ Unit) : Prop :=
  ∀ {s : Scene τ σ}, ready s → s.context.muted = true →
    Ends part s
      (fun _ s' => ready s' ∧ s'.context.muted = true ∧ s'.context.cache = s.context.cache)
      fun _ _ => True

theorem Idles.seq (hpart : Idles ready part) (hrest : Idles ready rest) :
    Idles ready (part >>= fun _ => rest) := by
  intro s hready hmuted
  refine Ends.seq (hpart hready hmuted) ?_
  intro _ s₁ ⟨hready₁, hmuted₁, hcache₁⟩
  refine (hrest hready₁ hmuted₁).imp_ok ?_
  intro _ s₂ ⟨hready₂, hmuted₂, hcache₂⟩
  exact ⟨hready₂, hmuted₂, hcache₂.trans hcache₁⟩

end SceneM

/-- Any two pictures of the scene follow each other. They have so many shapes, and so many of these
move. -/
structure FixedScene (scene : List Request → Prop) (total moving : Nat) : Prop where
  follows : ∀ {earlier later : List Request}, scene earlier → scene later →
    List.Forall₂ Request.Follows earlier later
  total : ∀ {requests : List Request}, scene requests → requests.length = total
  moving : ∀ {requests : List Request}, scene requests → requests.countP Request.moves = moving

namespace Animation

/-- Of each frame shown how many shapes are touched and alive: all of them in the first one, the moving
ones later. -/
def sceneCounts (total moving : Nat) : Nat → List (Nat × Nat)
  | 0 => []
  | later + 1 => (total, total) :: List.replicate later (moving, total)

variable {a : Animation} {sketch : Sketch τ σ} {ready : Scene τ σ → Prop} {s : Scene τ σ}
  {scene : List Request → Prop} [Surface σ]

/-! ### One frame -/

theorem drawSkipped_stages (hstages : sketch.Stages ready scene) (count frame : Nat) (hready : ready s)
    (hmuted : s.context.muted = true) :
    Ends (drawSkipped sketch frame count) s
      (fun _ s' => ready s' ∧ s'.context.muted = true ∧ s'.context.cache = s.context.cache)
      fun _ _ => True := by
  induction count generalizing frame s with
  | zero => exact Ends.pure ⟨hready, hmuted, rfl⟩
  | succ count ih =>
    unfold drawSkipped
    refine Ends.bind (during_ends ((hstages.unheard hready hmuted).imp_ok ?_))
    intro _ s₁ hafter
    obtain ⟨hready₁, hmuted₁, hcache₁⟩ := hafter
    have hrest := ih (frame + 1) hready₁ hmuted₁
    rwa [hcache₁] at hrest

theorem skipped_stages (hstages : sketch.Stages ready scene) (count frame : Nat) (hready : ready s) :
    Ends (muted (drawSkipped sketch frame count)) s
      (fun _ s' => ready s' ∧ s'.context.muted = false ∧ s'.context.cache = s.context.cache)
      fun _ _ => True := by
  apply muted_ends
  refine (drawSkipped_stages hstages count frame (hstages.apart s.context.cache true hready) rfl).imp_ok
    ?_
  intro _ s₁ ⟨hready₁, _, hcache₁⟩
  exact ⟨hstages.apart s₁.context.cache false hready₁, rfl, hcache₁⟩

/-- A frame that is shown does to the cache what drawing a picture of the scene does. -/
theorem showFrame_stages (hstages : sketch.Stages ready scene) (frame : Nat) (hready : ready s)
    (hheard : s.context.muted = false) :
    Ends (showFrame a sketch frame) s
      (fun report s' => ready s' ∧ s'.context.muted = false ∧
        ∃ requests now cache event, scene requests ∧
          drawFrame requests s.context.cache = .ok now cache ∧
          s'.context.cache = { cache with journal := event :: cache.journal } ∧
          report.counts = (cache.touched.size, cache.active.size))
      fun _ _ => True := by
  unfold showFrame
  refine Ends.bind (during_ends (SceneM.onContext_ends
    (Ends.of_eq (Context.whenHeard_of_heard hheard _) (Ends.bind (Context.onCache_ends
      (Ends.modify (Context.onCache_ends (Ends.intro ?_ fun _ _ _ => trivial))))))))
  intro _ opened hclear
  have hdrawing : opened.isDrawing = true := by
    rw [((clear_ends _).of_ok hclear).2]
    rfl
  have hopened := hstages.apart opened s.context.muted hready
  refine Ends.bind (during_ends ((hstages.heard hopened hheard hdrawing).imp_ok ?_))
  intro _ s₁ ⟨hready₁, hheard₁, requests, hscene, hserves⟩
  refine Ends.bind (during_ends (SceneM.onContext_ends
    (Ends.of_eq (Context.whenHeard_of_heard hheard₁ _)
      (Ends.of_eq (bind_of_ok (Context.flushBatch_of_none (hstages.unheld hready₁)))
        (Context.onCache_ends (Ends.intro ?_ fun _ _ _ => trivial))))))
  intro _ cache hflush
  obtain ⟨now, hrun⟩ := drawFrame_of_serves hclear hserves hflush
  refine Ends.bind (Ends.get (Ends.bind (Ends.modify (Ends.pure ⟨?_, hheard₁, ?_⟩))))
  · exact hstages.apart _ s₁.context.muted (hstages.apart cache s₁.context.muted hready₁)
  · exact ⟨requests, now, cache, _, hscene, hrun, rfl, rfl⟩

end Animation

/-! ### All frames -/

namespace Animation

variable {a : Animation} {sketch : Sketch τ Recorder} {ready : Scene τ Recorder → Prop}
  {s : Scene τ Recorder} {scene : List Request → Prop} {total moving : Nat} {before : List Claim}

/-- Between two frames: the sketch is ready, and the cache shows the claims and has made nothing else. -/
structure Posed (ready : Scene τ Recorder → Prop) (s : Scene τ Recorder) (now : List Claim) : Prop where
  ready : ready s
  heard : s.context.muted = false
  standing : s.context.cache.Standing now

/-- To be redrawn are all shapes, or only those that move. -/
def Marked (first : Bool) (s : Scene τ Recorder) (now : List Claim) : Prop :=
  s.context.cache.touched.toList =
    (now.filter fun claim => first || claim.request.moves).map Claim.handle

theorem showFrame_first (hstages : sketch.Stages ready scene) (hfixed : FixedScene scene total moving)
    (frame : Nat) (h : Posed ready s []) :
    Ends (showFrame a sketch frame) s
      (fun report s' => ∃ now, Posed ready s' now ∧ scene (now.map Claim.request) ∧
        report.counts = (total, total) ∧ Marked true s' now)
      fun _ _ => True := by
  refine (showFrame_stages hstages frame h.ready h.heard).imp_ok ?_
  intro report s₁ ⟨hready, hheard, requests, now, cache, event, hscene, hrun, hcache, hcounts⟩
  obtain ⟨hstanding, hrequests, htouched⟩ := h.standing.first.of_ok hrun
  have hlength : now.length = total := by
    rw [← hfixed.total hscene, ← hrequests, List.length_map]
  refine ⟨now, ⟨hready, hheard, ?_⟩, hrequests ▸ hscene, ?_, ?_⟩
  · rw [hcache]
    exact hstanding.note event
  · rw [hcounts, hstanding.size, ← Array.length_toList, htouched, List.length_map, hlength]
  · have hall : (now.filter fun claim => true || claim.request.moves) = now :=
      List.filter_eq_self.mpr fun _ _ => rfl
    unfold Marked
    rw [hcache, hall]
    exact htouched

theorem showFrame_next (hstages : sketch.Stages ready scene) (hfixed : FixedScene scene total moving)
    (frame : Nat) (h : Posed ready s before) (hbefore : scene (before.map Claim.request)) :
    Ends (showFrame a sketch frame) s
      (fun report s' => ∃ now, Posed ready s' now ∧ scene (now.map Claim.request) ∧
        report.counts = (moving, total) ∧ Marked false s' now)
      fun _ _ => True := by
  refine (showFrame_stages hstages frame h.ready h.heard).imp_ok ?_
  intro report s₁ ⟨hready, hheard, requests, now, cache, event, hscene, hrun, hcache, hcounts⟩
  have hfollows := List.forall₂_map_left_iff.mp (hfixed.follows hbefore hscene)
  obtain ⟨hstanding, hrequests, htouched⟩ := (h.standing.next hfollows).of_ok hrun
  have hlength : now.length = total := by
    rw [← hfixed.total hscene, ← hrequests, List.length_map]
  have hmoving : (now.filter fun claim => claim.request.moves).length = moving := by
    rw [← hfixed.moving hscene, ← hrequests, List.countP_map, List.countP_eq_length_filter]
    rfl
  refine ⟨now, ⟨hready, hheard, ?_⟩, hrequests ▸ hscene, ?_, ?_⟩
  · rw [hcache]
    exact hstanding.note event
  · rw [hcounts, hstanding.size, ← Array.length_toList, htouched, List.length_map, hmoving, hlength]
  · unfold Marked
    rw [hcache]
    exact htouched

theorem showFrames_skip (hstages : sketch.Stages ready scene) (h : Posed ready s before)
    {left frame : Nat} {reports : Array FrameReport}
    {ok : Nat × Array FrameReport → Scene τ Recorder → Prop}
    (hshow : ∀ {s₁ : Scene τ Recorder} {shown : Nat}, Posed ready s₁ before →
      Ends (showFrame a sketch shown) s₁
        (fun report s₂ => ∀ next, Ends (showFrames a sketch left next (reports.push report)) s₂ ok
          fun _ _ => True)
        fun _ _ => True) :
    Ends (showFrames a sketch (left + 1) frame reports) s ok fun _ _ => True := by
  unfold showFrames
  dsimp only
  generalize (if frame = 0 then 0 else a.skipFrames) = skipped
  split
  · refine Ends.bind ((skipped_stages hstages skipped frame h.ready).imp_ok ?_)
    intro _ s₁ hafter
    obtain ⟨hready₁, hheard₁, hcache₁⟩ := hafter
    have hstanding₁ : s₁.context.cache.Standing before := by
      rw [hcache₁]
      exact h.standing
    exact Ends.bind ((hshow ⟨hready₁, hheard₁, hstanding₁⟩).imp_ok fun _ _ hrest => hrest _)
  · exact Ends.bind ((hshow h).imp_ok fun _ _ hrest => hrest _)

theorem showFrames_next (hstages : sketch.Stages ready scene) (hfixed : FixedScene scene total moving)
    (left frame : Nat) (reports : Array FrameReport) {first : Bool} (h : Posed ready s before)
    (hbefore : scene (before.map Claim.request)) (hmarked : Marked first s before) :
    Ends (showFrames a sketch left frame reports) s
      (fun result s' => ∃ now, Posed ready s' now ∧ scene (now.map Claim.request) ∧
        result.2.toList.map FrameReport.counts =
          reports.toList.map FrameReport.counts ++ List.replicate left (moving, total) ∧
        Marked (first && left == 0) s' now)
      fun _ _ => True := by
  -- on the frames left after the first one; each of them comes upon the scene of the one before
  induction left generalizing s before frame reports first with
  | zero =>
    refine Ends.pure ⟨before, h, hbefore, (List.append_nil _).symm, ?_⟩
    rwa [beq_self_eq_true, Bool.and_true]
  | succ left ih =>
    apply showFrames_skip hstages h
    intro s₁ shown h₁
    refine (showFrame_next hstages hfixed shown h₁ hbefore).imp_ok ?_
    intro report s₂ ⟨mid, h₂, hmid, hcounts, hmoving⟩ next
    refine (ih next (reports.push report) h₂ hmid hmoving).imp_ok ?_
    intro result s' ⟨now, h', hnow, hresult, hlater⟩
    refine ⟨now, h', hnow, ?_, ?_⟩
    · rw [hresult, Array.toList_push, List.map_append, List.append_assoc, List.map_singleton,
        hcounts]
      rfl
    · rwa [show (left + 1 == 0) = false from rfl, Bool.and_false]

/-! ### Scenes that are kept -/

/-- So many frames have been shown. Each shape was made once, with the first of them, and none was
removed. All of them were to be redrawn with that frame, later only those that move. -/
structure Kept (total shown : Nat) (s : Scene τ Recorder) : Prop where
  created : s.context.cache.surface.stats.created = if shown = 0 then 0 else total
  removals : s.context.cache.surface.removals = []
  touched : 0 < shown → ∀ k, k ∈ s.context.cache.touched ↔
    ∃ shape, s.context.cache.surface.shape? k = some shape ∧
      (shown = 1 ∨ shape.geometry.family ≠ .rect)

theorem Kept.note {shown : Nat} {event : Event} {s' : Scene τ Recorder} (h : Kept total shown s)
    (hrun : note event s = .ok () s') : Kept total shown s' := by
  cases hrun
  exact ⟨h.created, h.removals, h.touched⟩

theorem Posed.kept {shown : Nat} {now : List Claim} (h : Posed ready s now)
    (hlength : now.length = if shown = 0 then 0 else total)
    (hmarked : 0 < shown → Marked (shown == 1) s now) : Kept total shown s where
  created := by rw [h.standing.counted, h.standing.made, hlength]
  removals := by
    unfold Recorder.removals
    rw [h.standing.kept]
    rfl
  touched := by
    intro hshown k
    rw [← Array.mem_toList_iff, hmarked hshown, h.standing.mem_redrawn_iff, beq_iff_eq]

theorem showFrames_settles (hstages : sketch.Stages ready scene)
    (hfixed : FixedScene scene total moving) (h : Posed ready s []) {shown frame : Nat} :
    Ends (showFrames a sketch shown frame #[]) s
      (fun result s' => Kept total shown s' ∧
        result.2.toList.map FrameReport.counts = sceneCounts total moving shown)
      fun _ _ => True := by
  cases shown with
  | zero => exact Ends.pure ⟨h.kept rfl nofun, rfl⟩
  | succ later =>
    apply showFrames_skip hstages h
    intro s₁ shown h₁
    refine (showFrame_first hstages hfixed shown h₁).imp_ok ?_
    intro report s₂ ⟨first, h₂, hfirst, hcounts, hmarked⟩ next
    refine (showFrames_next hstages hfixed later next _ h₂ hfirst hmarked).imp_ok ?_
    intro result s' ⟨now, h', hnow, hresult, hlater⟩
    refine ⟨h'.kept ?_ fun _ => ?_, ?_⟩
    · rw [if_neg (Nat.succ_ne_zero later), ← hfixed.total hnow, List.length_map]
    · have hfirst : (later + 1 == 1) = (true && later == 0) := by cases later <;> rfl
      rwa [hfirst]
    · rw [hresult, Array.toList_push, List.map_append, List.map_singleton, hcounts]
      rfl

theorem showFirst_settles (hstages : sketch.Stages ready scene)
    (hfixed : FixedScene scene total moving)
    (hsetup : Ends sketch.setup s (fun _ s' => Posed ready s' []) fun _ _ => True) (shown : Nat) :
    Ends (showFirst a sketch shown) s
      (fun result s' => Kept total shown s' ∧
        result.2.toList.map FrameReport.counts = sceneCounts total moving shown)
      fun _ _ => True := by
  unfold showFirst
  refine Ends.bind (during_ends (hsetup.imp_ok ?_))
  intro _ s₁ h₁
  have h₂ : ∀ event, Posed ready { s₁ with context := { s₁.context with
      cache := { s₁.context.cache with journal := event :: s₁.context.cache.journal } } } [] :=
    fun event => ⟨hstages.apart _ s₁.context.muted h₁.ready, h₁.heard, h₁.standing.note event⟩
  exact Ends.bind (Ends.modify (showFrames_settles hstages hfixed (h₂ _)))

/-! ### Whole runs -/

/-- The scene is kept after each of the frames shown, and so it is when the surface is cleared. -/
structure KeepsScene (a : Animation) (sketch : Sketch τ Recorder) (s : Scene τ Recorder)
    (total moving : Nat) (reports : List FrameReport) (s' : Scene τ Recorder) : Prop where
  counts : reports.map FrameReport.counts = sceneCounts total moving a.displayedFrames
  created : s'.context.cache.surface.stats.created = if a.displayedFrames = 0 then 0 else total
  shown : ∀ shown, shown ≤ a.displayedFrames →
    ∃ result s₁, showFirst a sketch shown s = .ok result s₁ ∧ Kept total shown s₁
  frames : ∃ s₁, runFrames a sketch s = .ok reports s₁ ∧ cleanUp s₁ = .ok () s' ∧
    Kept total a.displayedFrames s₁

theorem cleanUp_keepsCreated (s : Scene τ Recorder) :
    Ends cleanUp s
      (fun _ s' => s'.context.cache.surface.stats.created = s.context.cache.surface.stats.created)
      fun _ _ => True := by
  refine during_ends (SceneM.onContext_ends (Ends.bind (Ends.modify (Context.onCache_ends ?_))))
  exact (teardown_keepsCreated _ s.context.cache rfl).imp (fun _ _ h => h) fun _ _ _ => trivial

theorem run_settles {s' : Scene τ Recorder} {reports : List FrameReport}
    (hstages : sketch.Stages ready scene) (hfixed : FixedScene scene total moving)
    (hsetup : Ends sketch.setup s (fun _ s' => Posed ready s' []) fun _ _ => True)
    (hrun : a.run sketch s = .ok reports s') : a.KeepsScene sketch s total moving reports s' := by
  obtain ⟨s₁, hframes, hclear⟩ := ok_of_run hrun
  obtain ⟨result, s₂, hshown, hnote, rfl⟩ := ok_of_runFrames hframes
  have hsettles := showFirst_settles (a := a) hstages hfixed hsetup
  obtain ⟨hkept, hcounts⟩ := (hsettles a.displayedFrames).of_ok hshown
  have hkept₁ := hkept.note hnote
  refine ⟨hcounts, ?_, ?_, s₁, hframes, hclear, hkept₁⟩
  · rw [(cleanUp_keepsCreated s₁).of_ok hclear, hkept₁.created]
  · intro shown hle
    obtain ⟨earlier, s₃, hearlier⟩ := ok_of_showFirst hle hshown
    exact ⟨earlier, s₃, hearlier, ((hsettles shown).of_ok hearlier).1⟩

end Animation

end Redraw
