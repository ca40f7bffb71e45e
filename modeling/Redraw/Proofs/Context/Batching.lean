import Redraw.Proofs.Cache.Phase
import Redraw.Proofs.Context.Lasting
import Redraw.Proofs.Context.Muting

/-!
# Rectangles that are held back

Every command does one of four things to the rectangles that a context holds back: it leaves them as
they are, sets the grid, draws them, or holds back one more.
-/

namespace Redraw

variable {τ σ : Type}

namespace Context

variable {c c' : Context σ} {r : Rect} {grid : Nat} {style : Style}

/-! ### What is held back -/

/-- The grid on which a rectangle would be held back; `none` if it would not. -/
def queues (c : Context σ) (r : Rect) : Option Nat :=
  if !c.muted && c.cache.isDrawing then c.grid.filter fun grid => mergeable c.shapeStyle grid r
  else none

/-- The number of grid lines per unit by which corners are divided when they are drawn. -/
def divisor (c : Context σ) : Nat := c.grid.getD 1

def dropBatch (c : Context σ) : Context σ := { c with batch := #[], batchStyle := none }

def hold (c : Context σ) (grid : Nat) (r : Rect) : Context σ :=
  { c with batch := c.batch.push (Batch.cornersOf grid r) }

/-- There is a style exactly for what is held back, and none between frames. -/
structure Tidy (c : Context σ) : Prop where
  unstyled : c.batchStyle = none → c.batch = #[]
  idle : c.cache.isDrawing = false → c.batchStyle = none

theorem queues_eq_some_iff : c.queues r = some grid ↔ c.muted = false ∧ c.cache.isDrawing = true ∧
    c.grid = some grid ∧ mergeable c.shapeStyle grid r = true := by
  unfold queues
  cases c.muted <;> cases c.cache.isDrawing <;> simp [Option.filter_eq_some_iff]

theorem divisor_of_queues (h : c.queues r = some grid) : c.divisor = grid := by
  unfold divisor
  rw [(queues_eq_some_iff.mp h).2.2.1]
  rfl

/-! ### Steps -/

section Steps

variable [Surface σ]

theorem flushBatch_of_none (h : c.batchStyle = none) : flushBatch c = .ok () c := by
  unfold flushBatch
  rw [bind_of_ok (show (get : ContextM σ _) c = .ok c c from rfl), h]
  rfl

theorem flushBatch_of_some (h : c.batchStyle = some style) : flushBatch c =
    onCache (addAll style (Batch.shapes c.divisor c.batch.toList)) c.dropBatch := by
  unfold flushBatch
  rw [bind_of_ok (show (get : ContextM σ _) c = .ok c c from rfl), h]
  rfl

theorem rect_inside (hmuted : c.muted = false) (hdrawing : c.cache.isDrawing = true) :
    rect r c = match c.queues r with
      | some grid => enqueue c.shapeStyle grid r c
      | none => drawNow (.rect r) c.shapeStyle c := by
  unfold rect queues
  rw [whenHeard_of_heard hmuted]
  show (if (!c.cache.isDrawing) = true then _ else _ : ContextM σ Unit) c = _
  rw [hmuted, hdrawing]
  cases c.grid with
  | none => rfl
  | some grid =>
    show (if mergeable c.shapeStyle grid r = true then _ else _ : ContextM σ Unit) c =
      match (if mergeable c.shapeStyle grid r = true then some grid else none) with
      | some grid => enqueue c.shapeStyle grid r c
      | none => drawNow (.rect r) c.shapeStyle c
    cases mergeable c.shapeStyle grid r <;> rfl

theorem rect_outside (hmuted : c.muted = false) (hidle : c.cache.isDrawing = false) :
    rect r c = .error (.protocol .rectOutsideFrame) c := by
  unfold rect
  rw [whenHeard_of_heard hmuted]
  show (if (!c.cache.isDrawing) = true then _ else _ : ContextM σ Unit) c = _
  rw [hidle]
  rfl

theorem enqueue_of_same (h : (c.batchStyle == some style) = true) :
    enqueue style grid r c = .ok () (c.hold grid r) := by
  show (if (!(c.batchStyle == some style)) = true then _ else _ : ContextM σ Unit) c = _
  rw [h]
  rfl

theorem enqueue_of_other (h : (c.batchStyle == some style) = false) : enqueue style grid r c =
    (flushBatch >>= fun _ => modify fun c => { c with batchStyle := some style }.hold grid r) c := by
  show (if (!(c.batchStyle == some style)) = true then _ else _ : ContextM σ Unit) c = _
  rw [h]
  rfl

/-! ### What steps do to what is held back -/

/-- Nothing is held back any more; shapes may have been drawn or refused. -/
def Emptied (c c' : Context σ) : Prop :=
  ∃ cache, cache.phase = c.cache.phase ∧ c' = { c.dropBatch with cache := cache }

theorem addAll_keepsPhase {phase : Phase} (style : Style) (geometries : List Geometry) :
    Keeps (Cache.InPhase phase) (addAll style geometries : CacheM σ Unit) := by
  induction geometries with
  | nil => exact .pure ()
  | cons g rest ih => exact (Cache.add_keepsPhase g style).bind fun _ => ih

theorem flushBatch_ends (h : c.Tidy) :
    Ends flushBatch c (fun _ c' => Emptied c c') fun _ c' => Emptied c c' := by
  cases hstyle : c.batchStyle with
  | none =>
    refine Ends.of_eq (flushBatch_of_none hstyle) (Ends.pure ⟨c.cache, rfl, ?_⟩)
    have hbatch := h.unstyled hstyle
    cases c
    cases hstyle
    cases hbatch
    rfl
  | some style =>
    refine Ends.of_eq (flushBatch_of_some hstyle) (onCache_ends ?_)
    exact (addAll_keepsPhase style _ c.cache rfl).both fun cache hphase => ⟨cache, hphase, rfl⟩

theorem drawNow_ends (h : c.Tidy) (g : Geometry) (style : Style) :
    Ends (drawNow g style) c (fun _ c' => Emptied c c') fun _ c' => Emptied c c' := by
  refine Ends.seq (flushBatch_ends h) ?_
  intro _ c₁ ⟨cache, hphase, hc₁⟩
  subst hc₁
  refine Ends.bind (onCache_ends ((Cache.add_keepsPhase g style cache hphase).imp ?_ ?_))
  · intro _ cache' hphase'
    exact Ends.pure ⟨cache', hphase', rfl⟩
  · intro _ cache' hphase'
    exact ⟨cache', hphase', rfl⟩

/-- A rectangle is held back, after those of another style were drawn. -/
def Enqueued (c : Context σ) (style : Style) (grid : Nat) (r : Rect) (c' : Context σ) : Prop :=
  if c.batchStyle == some style then c' = c.hold grid r
  else ∃ c₁, Emptied c c₁ ∧ c' = { c₁ with batchStyle := some style }.hold grid r

theorem enqueue_ends (h : c.Tidy) (style : Style) (grid : Nat) (r : Rect) :
    Ends (enqueue style grid r) c (fun _ c' => Enqueued c style grid r c') fun _ c' => Emptied c c' := by
  unfold Enqueued
  cases hstyle : c.batchStyle == some style with
  | true => exact Ends.of_eq (enqueue_of_same hstyle) (Ends.pure rfl)
  | false =>
    refine Ends.of_eq (enqueue_of_other hstyle) (Ends.seq (flushBatch_ends h) ?_)
    intro _ c₁ hempty
    exact Ends.modify ⟨c₁, hempty, rfl⟩

end Steps

/-! ### What commands do to what is held back -/

/-- What a command can have done: the rectangles are held back as before, or the grid alone was set, or
none is held back any more, or one more is. -/
inductive Handled (c : Context σ) : Command → Context σ → Prop
  | left {command : Command} {c' : Context σ} (hbatch : c'.batch = c.batch)
      (hstyle : c'.batchStyle = c.batchStyle) (hgrid : c'.grid = c.grid)
      (hdrawing : c.cache.isDrawing = true → c'.cache.isDrawing = true)
      (hrect : ∀ r, command = .rect r → c.queues r = none)
      (hset : ∀ grid, command ≠ .setBatching grid) : Handled c command c'
  | regridded {grid : Option Nat} {c' : Context σ} (hset : c' = c.setBatching grid) :
      Handled c (.setBatching grid) c'
  | emptied {command : Command} {c' : Context σ} (hbatch : c'.batch = #[])
      (hstyle : c'.batchStyle = none) (hgrid : c'.grid = c.grid)
      (hset : ∀ grid, command ≠ .setBatching grid) : Handled c command c'
  | queued {r : Rect} {grid : Nat} {c' : Context σ} (hqueues : c.queues r = some grid)
      (henqueued : Enqueued c c.shapeStyle grid r c') : Handled c (.rect r) c'

variable {command : Command} {s : Scene τ σ}

theorem Emptied.handled (h : Emptied c c') (hset : ∀ grid, command ≠ .setBatching grid) :
    Handled c command c' := by
  obtain ⟨cache, _, rfl⟩ := h
  exact .emptied rfl rfl rfl hset

theorem Handled.same (hset : ∀ grid, command ≠ .setBatching grid)
    (hrect : ∀ r, command = .rect r → c.queues r = none) : Handled c command c :=
  .left rfl rfl rfl id hrect hset

theorem Enqueued.isSome (hdrawing : c.cache.isDrawing = true)
    (henqueued : Enqueued c style grid r c') :
    c'.batchStyle.isSome = true ∧ c'.cache.isDrawing = true ∧ c'.grid = c.grid := by
  unfold Enqueued at henqueued
  split at henqueued
  · next hsame =>
    subst henqueued
    refine ⟨?_, hdrawing, rfl⟩
    cases hstyle : c.batchStyle with
    | none =>
      rw [hstyle] at hsame
      cases hsame
    | some held =>
      show c.batchStyle.isSome = true
      rw [hstyle]
      rfl
  · obtain ⟨_, ⟨cache, hphase, rfl⟩, rfl⟩ := henqueued
    refine ⟨rfl, ?_, rfl⟩
    show (cache.phase == .drawing) = true
    rw [hphase]
    exact hdrawing

theorem Handled.tidy (h : c.Tidy) (hhandled : Handled c command c') : c'.Tidy := by
  cases hhandled with
  | left hbatch hstyle hgrid hdrawing =>
    refine ⟨?_, ?_⟩
    · rw [hbatch, hstyle]
      exact h.unstyled
    · intro hidle
      rw [hstyle]
      apply h.idle
      rw [Bool.eq_false_iff] at hidle ⊢
      exact fun hopen => hidle (hdrawing hopen)
  | regridded hset =>
    rw [hset]
    exact ⟨h.unstyled, h.idle⟩
  | emptied hbatch hstyle => exact ⟨fun _ => hbatch, fun _ => hstyle⟩
  | queued hqueues henqueued =>
    obtain ⟨hstyle, hdrawing, _⟩ := henqueued.isSome (queues_eq_some_iff.mp hqueues).2.1
    refine ⟨?_, ?_⟩
    · intro hnone
      rw [hnone] at hstyle
      cases hstyle
    · intro hidle
      rw [hidle] at hdrawing
      cases hdrawing

theorem tidy_onCanvas (surface : σ) (width height : Float) :
    (onCanvas surface width height).Tidy := ⟨fun _ => rfl, fun _ => rfl⟩

theorem Handled.unlessMuted {change : Context σ → Context σ}
    (hchange : ∀ c, change c = { change c with
      cache := c.cache
      grid := c.grid
      batch := c.batch
      batchStyle := c.batchStyle })
    (hset : ∀ grid, command ≠ .setBatching grid) (hrect : ∀ r, command ≠ .rect r) :
    Handled c command (Context.unlessMuted change c) := by
  unfold Context.unlessMuted
  split
  · exact .same hset fun r heq => absurd heq (hrect r)
  · rw [hchange]
    exact .left rfl rfl rfl id (fun r heq => absurd heq (hrect r)) hset

theorem beginFrame_ends (c : Context σ) :
    Ends beginFrame c
      (fun _ c' => ∃ cache, c' = { c with cache := cache } ∧
        (c.cache.isDrawing = true → cache.isDrawing = true))
      fun _ c' => ∃ cache, c' = { c with cache := cache } ∧
        (c.cache.isDrawing = true → cache.isDrawing = true) := by
  refine whenHeard_ends (fun _ => ⟨c.cache, rfl, id⟩) fun _ => ?_
  refine Ends.bind (onCache_ends (Ends.modify (onCache_ends ?_)))
  refine (Cache.clear_endsPhase _).imp ?_ ?_
  · intro _ cache hphase
    refine ⟨cache, rfl, fun _ => ?_⟩
    show (cache.phase == .drawing) = true
    rw [hphase]
    rfl
  · intro _ cache hphase
    refine ⟨cache, rfl, fun hdrawing => ?_⟩
    show (cache.phase == .drawing) = true
    rw [hphase]
    exact hdrawing

variable [Surface σ]

theorem rect_handled (h : c.Tidy) (r : Rect) :
    Ends (rect r) c (fun _ c' => Handled c (.rect r) c') fun _ c' => Handled c (.rect r) c' := by
  have hsame : c.queues r = none → Handled c (.rect r) c := by
    intro hnone
    refine .same nofun ?_
    rintro _ ⟨⟩
    exact hnone
  cases hmuted : c.muted with
  | true =>
    refine Ends.of_eq (whenHeard_of_muted hmuted _) (Ends.pure (hsame ?_))
    rw [queues, hmuted]
    rfl
  | false =>
    cases hdrawing : c.cache.isDrawing with
    | false =>
      refine Ends.of_eq ((rect_outside hmuted hdrawing).trans rfl) (Ends.throw (hsame ?_))
      rw [queues, hmuted, hdrawing]
      rfl
    | true =>
      have hrun := rect_inside (r := r) hmuted hdrawing
      cases hqueues : c.queues r with
      | none =>
        rw [hqueues] at hrun
        exact Ends.of_eq hrun ((drawNow_ends h _ _).both fun _ hempty => hempty.handled nofun)
      | some grid =>
        rw [hqueues] at hrun
        refine Ends.of_eq hrun ((enqueue_ends h _ _ _).imp ?_ ?_)
        · exact fun _ _ henqueued => .queued hqueues henqueued
        · exact fun _ _ hempty => hempty.handled nofun

theorem draw_handled (h : c.Tidy) (g : Context σ → Geometry) (style : Context σ → Style)
    (hset : ∀ grid, command ≠ .setBatching grid) (hrect : ∀ r, command ≠ .rect r) :
    Ends (whenHeard do
        let c ← get
        drawNow (g c) (style c)) c
      (fun _ c' => Handled c command c') fun _ c' => Handled c command c' := by
  refine whenHeard_ends (fun _ => .same hset fun r heq => absurd heq (hrect r)) fun _ => ?_
  exact Ends.bind (Ends.get ((drawNow_ends h _ _).both fun _ hempty => hempty.handled hset))

theorem endShape_handled (h : c.Tidy) (close : Bool) :
    Ends (endShape close) c (fun _ c' => Handled c (.endShape close) c')
      fun _ c' => Handled c (.endShape close) c' := by
  have hdropped : ∀ {c'}, Handled c.dropVertices (.endShape close) c' →
      Handled c (.endShape close) c' := by
    intro c' hhandled
    cases hhandled with
    | left hbatch hstyle hgrid hdrawing => exact .left hbatch hstyle hgrid hdrawing nofun nofun
    | emptied hbatch hstyle hgrid => exact .emptied hbatch hstyle hgrid nofun
  have htidy : c.dropVertices.Tidy := ⟨h.unstyled, h.idle⟩
  have hdrawn : Ends _ c.dropVertices (fun _ c' => Handled c.dropVertices (.endShape close) c')
      fun _ c' => Handled c.dropVertices (.endShape close) c' :=
    draw_handled htidy (fun _ => .polygon c.vertices.toList close) shapeStyle nofun nofun
  exact Ends.bind (Ends.get (Ends.bind (Ends.modify (hdrawn.both fun _ => hdropped))))

/-- Every command does one of the things that can be done to what is held back, answered or not. -/
theorem run_handled (command : Command) (s : Scene τ σ) (h : s.context.Tidy) :
    Ends command.run s (fun _ s' => Handled s.context command s'.context)
      fun _ s' => Handled s.context command s'.context := by
  have hstyled : ∀ {command : Command} {change : Context σ → Context σ},
      (∀ c, change c = { change c with
        cache := c.cache
        grid := c.grid
        batch := c.batch
        batchStyle := c.batchStyle }) →
      (∀ grid, command ≠ .setBatching grid) → (∀ r, command ≠ .rect r) →
      Ends (SceneM.change (Context.unlessMuted change)) s
        (fun _ s' => Handled s.context command s'.context)
        fun _ s' => Handled s.context command s'.context :=
    fun hchange hset hrect => Ends.modify (.unlessMuted hchange hset hrect)
  cases command with
  | beginFrame =>
    apply SceneM.onContext_ends
    refine (beginFrame_ends s.context).both ?_
    rintro _ ⟨cache, rfl, hdrawing⟩
    exact .left rfl rfl rfl hdrawing nofun nofun
  | endFrame =>
    apply SceneM.onContext_ends
    refine whenHeard_ends (fun _ => .same nofun nofun) fun _ => Ends.bind ?_
    refine (flushBatch_ends h).imp ?_ fun _ _ hempty => hempty.handled nofun
    rintro _ _ ⟨cache, _, rfl⟩
    exact onCache_ends (Ends.trivial.both fun _ _ => .emptied rfl rfl rfl nofun)
  | teardown =>
    apply SceneM.onContext_ends
    refine Ends.bind (Ends.modify (onCache_ends ?_))
    exact Ends.trivial.both fun _ _ => .emptied rfl rfl rfl nofun
  | fill => exact hstyled (fun _ => rfl) nofun nofun
  | noFill => exact hstyled (fun _ => rfl) nofun nofun
  | stroke => exact hstyled (fun _ => rfl) nofun nofun
  | noStroke => exact hstyled (fun _ => rfl) nofun nofun
  | strokeWeight => exact hstyled (fun _ => rfl) nofun nofun
  | noSmooth => exact hstyled (fun _ => rfl) nofun nofun
  | beginShape => exact hstyled (fun _ => rfl) nofun nofun
  | vertex => exact hstyled (fun _ => rfl) nofun nofun
  | background color => exact SceneM.onContext_ends (draw_handled h _ _ nofun nofun)
  | rect r => exact SceneM.onContext_ends (rect_handled h r)
  | ellipse => exact SceneM.onContext_ends (draw_handled h (fun _ => _) shapeStyle nofun nofun)
  | endShape close => exact SceneM.onContext_ends (endShape_handled h close)
  | setBatching grid => exact Ends.modify (.regridded rfl)
  | setMuted => exact Ends.modify (.left rfl rfl rfl id nofun nofun)
  | fillComponents components =>
    show Ends (SceneM.colorOf components >>= fun color => SceneM.change (setFill color)) s _ _
    refine Ends.bind ?_
    unfold SceneM.colorOf
    split
    · exact Ends.pure (hstyled (fun _ => rfl) nofun nofun)
    · exact Ends.throw (.same nofun nofun)
  | fail => exact Ends.throw (.same nofun nofun)

theorem lasting_tidy : Lasting (Tidy (σ := σ)) where
  command command s h := (run_handled command s h).both fun _ hhandled => hhandled.tidy h
  note _ _ h := ⟨h.unstyled, h.idle⟩

/-! ### Frames that end with something held back -/

theorem endFrame_passes {c : Context σ} {geometries : List Geometry} {check : Unit → Context σ → Bool}
    (hmuted : c.muted = false) (hstyled : c.batchStyle.isSome = true)
    (hgeometries : Batch.shapes c.divisor c.batch.toList = geometries)
    (hpasses : passes (onCache (addAll (c.batchStyle.getD {}) geometries) >>= fun _ =>
      onCache Cache.flush) c.dropBatch check = true) : passes endFrame c check = true := by
  obtain ⟨style, hstyle⟩ := Option.isSome_iff_exists.mp hstyled
  have hend : endFrame c =
      (onCache (addAll style geometries) >>= fun _ => onCache Cache.flush) c.dropBatch := by
    have hflush := flushBatch_of_some hstyle
    rw [hgeometries] at hflush
    rw [endFrame, whenHeard_of_heard hmuted]
    exact bind_of_eq hflush
  rw [hstyle, Option.getD_some] at hpasses
  unfold passes at hpasses ⊢
  rwa [hend]

end Context

end Redraw
