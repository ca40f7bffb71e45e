import Mathlib.Data.List.Induction
import Redraw.Proofs.Batch.Painting
import Redraw.Proofs.Context.Batching
import Redraw.Surface.Recorder

/-!
# Units of rectangles that are held back

A rectangle goes onto the grid when it is held back and comes off it when it is drawn. The grid is read
both times.
-/

namespace Redraw

variable {τ σ : Type}

/-- A rectangle with the grid on which it was held back. -/
structure HeldRect where
  grid : Nat
  rect : Rect

def HeldRect.corners (h : HeldRect) : Outline.Corners := Batch.cornersOf h.grid h.rect

/-- A scene with a list of the rectangles that its context holds back. -/
structure Tracked (τ σ : Type) where
  scene : Scene τ σ
  held : List HeldRect := []

namespace Tracked

open Context

def context (t : Tracked τ σ) : Context σ := t.scene.context

/-- The list after a command that led to the context `c'`. It is empty if nothing is held back then; a
rectangle that was held back stands at its end, after the others if they have its style. -/
def heldAfter (t : Tracked τ σ) (command : Command) (c' : Context σ) : List HeldRect :=
  if c'.batch.isEmpty then []
  else
    match command with
    | .rect r =>
      match t.context.queues r with
      | some grid =>
        (if t.context.batchStyle == some t.context.shapeStyle then t.held else []) ++ [⟨grid, r⟩]
      | none => t.held
    | _ => t.held

/-- The list says what is held back. -/
structure Faithful (t : Tracked τ σ) : Prop where
  tidy : t.context.Tidy
  batch : t.context.batch.toList = t.held.map HeldRect.corners

/-- What is held back would be drawn in the units in which it was held back. -/
def InUnits (t : Tracked τ σ) : Prop := ∀ h ∈ t.held, h.grid = t.context.divisor

/-- Setting this grid would change the units of something that is held back. -/
def Rescales (t : Tracked τ σ) (grid : Option Nat) : Prop :=
  t.held ≠ [] ∧ (t.context.setBatching grid).divisor ≠ t.context.divisor

variable {t : Tracked τ σ} {command : Command} {c' : Context σ} {s' : Scene τ σ}

theorem Faithful.held_eq_nil (h : t.Faithful) (hempty : t.context.batch.isEmpty = true) :
    t.held = [] := by
  have hbatch := h.batch
  rw [Array.isEmpty_iff.mp hempty] at hbatch
  exact List.map_eq_nil_iff.mp hbatch.symm

theorem heldAfter_of_same (h : t.Faithful) (hbatch : c'.batch = t.context.batch)
    (hrect : ∀ r, command = .rect r → t.context.queues r = none) :
    t.heldAfter command c' = t.held := by
  unfold heldAfter
  split
  · next hempty =>
    rw [hbatch] at hempty
    exact (h.held_eq_nil hempty).symm
  · split
    · next r => rw [hrect r rfl]
    · rfl

theorem heldAfter_of_empty (hbatch : c'.batch = #[]) : t.heldAfter command c' = [] := by
  unfold heldAfter
  rw [hbatch]
  exact if_pos rfl

theorem batch_of_enqueued {c : Context σ} {style : Style} {grid : Nat} {r : Rect}
    (h : Enqueued c style grid r c') :
    c'.batch = (if c.batchStyle == some style then c.batch else #[]).push (Batch.cornersOf grid r) := by
  unfold Enqueued at h
  split at h
  · next hsame =>
    rw [if_pos hsame, h]
    rfl
  · next hother =>
    obtain ⟨_, ⟨cache, _, rfl⟩, rfl⟩ := h
    rw [if_neg hother]
    rfl

theorem heldAfter_of_enqueued {grid : Nat} {r : Rect} (hqueues : t.context.queues r = some grid)
    (h : Enqueued t.context t.context.shapeStyle grid r c') :
    t.heldAfter (.rect r) c' =
      (if t.context.batchStyle == some t.context.shapeStyle then t.held else []) ++ [⟨grid, r⟩] := by
  have hsome : ¬c'.batch.isEmpty = true := by
    rw [batch_of_enqueued h]
    simp
  rw [heldAfter, if_neg hsome, hqueues]

theorem Faithful.handled (h : t.Faithful) (hhandled : Handled t.context command s'.context) :
    Faithful ⟨s', t.heldAfter command s'.context⟩ := by
  refine ⟨hhandled.tidy h.tidy, ?_⟩
  show s'.context.batch.toList = (t.heldAfter command s'.context).map HeldRect.corners
  cases hhandled with
  | left hbatch _ _ _ hrect =>
    rw [heldAfter_of_same h hbatch hrect, hbatch]
    exact h.batch
  | regridded hset =>
    have hbatch : s'.context.batch = t.context.batch := by rw [hset]; rfl
    rw [heldAfter_of_same h hbatch (fun _ heq => by cases heq), hbatch]
    exact h.batch
  | emptied hbatch =>
    rw [heldAfter_of_empty hbatch, hbatch]
    rfl
  | queued hqueues henqueued =>
    rw [heldAfter_of_enqueued hqueues henqueued, batch_of_enqueued henqueued, Array.toList_push,
      List.map_append]
    split
    · rw [h.batch]
      rfl
    · rfl

/-- What is held back keeps its units, unless setting the grid changes them. -/
theorem InUnits.handled_iff (h : t.Faithful) (hunits : t.InUnits)
    (hhandled : Handled t.context command s'.context) :
    InUnits ⟨s', t.heldAfter command s'.context⟩ ↔
      ∀ grid, command = .setBatching grid → ¬t.Rescales grid := by
  have hsame : (∀ grid, command ≠ .setBatching grid) →
      InUnits ⟨s', t.heldAfter command s'.context⟩ →
      (InUnits ⟨s', t.heldAfter command s'.context⟩ ↔
        ∀ grid, command = .setBatching grid → ¬t.Rescales grid) :=
    fun hset hunits' => iff_of_true hunits' fun grid heq => absurd heq (hset grid)
  have hdivisor : s'.context.grid = t.context.grid → s'.context.divisor = t.context.divisor :=
    fun hgrid => congrArg (fun grid => grid.getD 1) hgrid
  cases hhandled with
  | left hbatch _ hgrid _ hrect hset =>
    apply hsame hset
    intro held hheld
    rw [heldAfter_of_same h hbatch hrect] at hheld
    exact (hunits held hheld).trans (hdivisor hgrid).symm
  | emptied hbatch _ _ hset =>
    apply hsame hset
    intro held hheld
    rw [heldAfter_of_empty hbatch] at hheld
    cases hheld
  | @queued r grid _ hqueues henqueued =>
    apply hsame nofun
    obtain ⟨_, _, hgrid⟩ := henqueued.isSome (queues_eq_some_iff.mp hqueues).2.1
    intro held hheld
    rw [heldAfter_of_enqueued hqueues henqueued] at hheld
    show held.grid = s'.context.divisor
    rw [hdivisor hgrid]
    rcases List.mem_append.mp hheld with hold | hnew
    · split at hold
      · exact hunits held hold
      · cases hold
    · rw [List.mem_singleton.mp hnew]
      exact (divisor_of_queues hqueues).symm
  | @regridded grid _ hset =>
    have hbatch : s'.context.batch = t.context.batch := by rw [hset]; rfl
    have hdivided : s'.context.divisor = (t.context.setBatching grid).divisor := by rw [hset]
    have hheld : t.heldAfter (.setBatching grid) s'.context = t.held :=
      heldAfter_of_same h hbatch fun _ heq => by cases heq
    constructor
    · rintro hunits' _ ⟨⟩ ⟨hsome, hne⟩
      obtain ⟨held, hmem⟩ := List.exists_mem_of_ne_nil _ hsome
      apply hne
      rw [← hdivided, ← hunits held hmem]
      refine (hunits' held ?_).symm
      rw [hheld]
      exact hmem
    · intro hnot held hmem
      rw [hheld] at hmem
      show held.grid = s'.context.divisor
      rw [hdivided, hunits held hmem]
      refine Decidable.byContradiction fun hne => ?_
      exact hnot grid rfl ⟨List.ne_nil_of_mem hmem, Ne.symm hne⟩

/-! ### Runs -/

variable [Surface σ]

def step (t : Tracked τ σ) (command : Command) : Tracked τ σ :=
  let scene := stateAfter command.run t.scene
  ⟨scene, t.heldAfter command scene.context⟩

def run (t : Tracked τ σ) (commands : List Command) : Tracked τ σ := commands.foldl step t

theorem run_concat (t : Tracked τ σ) (commands : List Command) (command : Command) :
    t.run (commands ++ [command]) = (t.run commands).step command := by
  unfold run
  rw [List.foldl_append]
  rfl

theorem Faithful.after (h : t.Faithful) (command : Command) :
    Handled t.context command (stateAfter command.run t.scene).context :=
  Ends.stateAfter (p := fun s' : Scene τ σ => Handled t.context command s'.context)
    (run_handled command t.scene h.tidy)

theorem Faithful.step (h : t.Faithful) (command : Command) : (t.step command).Faithful :=
  h.handled (h.after command)

theorem Faithful.run (h : t.Faithful) (commands : List Command) : (t.run commands).Faithful := by
  induction commands generalizing t with
  | nil => exact h
  | cons command rest ih => exact ih (h.step command)

/-- Units are kept all along exactly if no setting of the grid changes them. -/
theorem inUnits_iff (h : t.Faithful) (hunits : t.InUnits) (commands : List Command) :
    (∀ done, done <+: commands → (t.run done).InUnits) ↔
      ∀ done grid, done ++ [.setBatching grid] <+: commands → ¬(t.run done).Rescales grid := by
  -- From the last command back: what comes before it is in its units, so the last step decides.
  induction commands using List.reverseRecOn with
  | nil =>
    refine iff_of_true ?_ ?_
    · intro done hsome
      rw [List.prefix_nil.mp hsome]
      exact hunits
    · intro done grid hsome
      have hnil := List.prefix_nil.mp hsome
      simp at hnil
  | append_singleton commands command ih =>
    have hstep := fun hall : (t.run commands).InUnits =>
      hall.handled_iff (h.run commands) ((h.run commands).after command)
    constructor
    · intro hall done grid hsome
      rcases List.prefix_concat_iff.mp hsome with heq | hbefore
      · obtain ⟨rfl, hset⟩ := List.append_inj' heq rfl
        have hlast := hall (done ++ [command]) (List.prefix_refl _)
        rw [run_concat] at hlast
        refine (hstep (hall done (List.prefix_append _ _))).mp hlast grid ?_
        exact (List.cons.inj hset).1.symm
      · refine ih.mp (fun done hsome => hall done ?_) done grid hbefore
        exact hsome.trans (List.prefix_append _ _)
    · intro hnot
      have hall := ih.mpr fun done grid hsome =>
        hnot done grid (hsome.trans (List.prefix_append _ _))
      intro done hsome
      rcases List.prefix_concat_iff.mp hsome with rfl | hbefore
      · rw [run_concat]
        refine (hstep (hall commands (List.prefix_refl _))).mpr ?_
        rintro grid rfl
        exact hnot commands grid (List.prefix_refl _)
      · exact hall done hbefore

end Tracked

namespace Context

open Tracked

variable [Surface σ]

/-- What is drawn when rectangles are no longer held back is the outlines of their corners, divided by
the grid lines per unit of that moment. These are the units in which each was held back, all along a
run, exactly if the run sets no grid of another unit while something is held back. -/
theorem units_kept_iff (surface : σ) (width height : Float) (state : τ) (commands : List Command) :
    let t : Tracked τ σ := ⟨⟨state, onCanvas surface width height⟩, []⟩
    ((t.run commands).context.batch.toList = (t.run commands).held.map HeldRect.corners ∧
      ∀ style, (t.run commands).context.batchStyle = some style →
        flushBatch (t.run commands).context =
          onCache (addAll style (Batch.shapes (t.run commands).context.divisor
            ((t.run commands).held.map HeldRect.corners))) (t.run commands).context.dropBatch) ∧
      ((∀ done, done <+: commands → (t.run done).InUnits) ↔
        ∀ done grid, done ++ [.setBatching grid] <+: commands → ¬(t.run done).Rescales grid) := by
  intro t
  have hstart : t.Faithful := ⟨tidy_onCanvas surface width height, rfl⟩
  have hbatch := (hstart.run commands).batch
  refine ⟨⟨hbatch, ?_⟩, inUnits_iff hstart (fun _ hmem => nomatch hmem) commands⟩
  intro style hstyle
  rw [flushBatch_of_some hstyle, hbatch]

/-- A square of two units is held back on whole units, and then the grid is set to half units. -/
def regridded : Scene Unit Recorder :=
  stateAfter (Command.runAll
    [.beginFrame, .noStroke, .rect ⟨0.0, 0.0, 2.0, 2.0⟩, .setBatching (some 2)])
    ⟨(), onCanvas Recorder.empty 4.0 4.0⟩

/-- The square is drawn with sides of one unit. -/
theorem regridded_square_shrinks :
    regridded.context.batch.toList = [HeldRect.corners ⟨1, ⟨0.0, 0.0, 2.0, 2.0⟩⟩] ∧
      ∃ c, endFrame regridded.context = .ok () c ∧
        (c.cache.surface.liveShapes.map (fun entry => entry.2.geometry) ==
          [.rect ⟨0.0, 0.0, 1.0, 1.0⟩]) = true := by
  have hbatch : regridded.context.batch.toList = [⟨⟨0, 0⟩, ⟨2, 2⟩⟩] := by decide +kernel
  have hdivisor : regridded.context.divisor = 2 := by decide +kernel
  have hgeometries : Batch.shapes regridded.context.divisor regridded.context.batch.toList =
      [Batch.shapeOf 2 (Batch.around 0 0 2 2)] := by
    have houtlines : Outline.outlines [⟨⟨0, 0⟩, ⟨2, 2⟩⟩] = [Batch.around 0 0 2 2] := by cbv
    rw [hdivisor, hbatch, Batch.shapes, houtlines]
    rfl
  have hpasses : passes endFrame regridded.context
      (fun _ c => c.cache.surface.liveShapes.map (fun entry => entry.2.geometry) ==
        [.rect ⟨0.0, 0.0, 1.0, 1.0⟩]) = true :=
    endFrame_passes (by decide +kernel) (by decide +kernel) hgeometries (by decide +kernel)
  obtain ⟨_, hrun, hcheck⟩ := ok_of_passes hpasses
  exact ⟨by decide +kernel, _, hrun, hcheck⟩

end Context

end Redraw
