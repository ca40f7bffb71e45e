import Mathlib.Data.List.SplitBy
import Redraw.Proofs.Animation.Run
import Redraw.Proofs.Batch.Painting
import Redraw.Proofs.Cache.Residue
import Redraw.Proofs.Context.Batching
import Redraw.Proofs.Equality

/-!
# The order of a frame

Rectangles that are held back are drawn late, but nothing is drawn before them that was asked for after
them.
-/

namespace Redraw

variable {τ σ : Type}

/-! ### What commands ask for -/

/-- What a command asks to be drawn: a rectangle to be merged with its neighbours, or a request of its
own. -/
inductive Mark where
  | merged (style : Style) (r : Rect)
  | single (request : Request)

namespace Mark

/-- Two rectangles that are drawn together if they are neighbours. -/
def joins : Mark → Mark → Bool
  | merged s _, merged t _ => s == t
  | _, _ => false

def corners? (grid : Nat) : Mark → Option Outline.Corners
  | merged _ r => some (Batch.cornersOf grid r)
  | single _ => none

/-- What is drawn for marks that belong together. -/
def requests (grid : Nat) : List Mark → List Request
  | [] => []
  | single request :: _ => [request]
  | merged style r :: rest =>
    (Batch.shapes grid ((merged style r :: rest).filterMap (corners? grid))).map (⟨·, style⟩)

/-- What is drawn for the marks of a frame, run by run. -/
def drawn (grid : Nat) (marks : List Mark) : List Request :=
  (marks.splitBy joins).flatMap (requests grid)

end Mark

namespace Context

/-- What a command does to the state that shapes are drawn with. -/
def redress (c : Context σ) : Command → Context σ
  | .fill color => { c with fill := some color }
  | .noFill => { c with fill := none }
  | .stroke color => { c with stroke := some color }
  | .noStroke => { c with stroke := none }
  | .strokeWeight weight => { c with strokeWeight := weight }
  | .noSmooth => { c with antialiased := false }
  | .beginShape => { c with vertices := #[] }
  | .vertex v => { c with vertices := c.vertices.push v }
  | .endShape _ => { c with vertices := #[] }
  | _ => c

/-- What a command asks for, with the style in force. The background has a style of its own. -/
def mark? (c : Context σ) : Command → Option Mark
  | .background color =>
    some (.single ⟨.rect ⟨0.0, 0.0, c.width, c.height⟩, { faceColor := some (.color color) }⟩)
  | .rect r =>
    some (if c.grid.any fun grid => mergeable c.shapeStyle grid r then .merged c.shapeStyle r
      else .single ⟨.rect r, c.shapeStyle⟩)
  | .ellipse x y w h => some (.single ⟨.ellipse x y w h, c.shapeStyle⟩)
  | .endShape close => some (.single ⟨.polygon c.vertices.toList close, c.shapeStyle⟩)
  | _ => none

/-- What commands ask for, each in the state that those before it lead to. -/
def marks (c : Context σ) : List Command → List Mark
  | [] => []
  | command :: rest => (c.mark? command).toList ++ (c.redress command).marks rest

end Context

/-! ### Runs of rectangles -/

namespace Mark

variable {a b m : Mark} {held later : List Mark} {grid : Nat}

theorem joins_right (h : a.joins b = true) (h' : a.joins m = true) : b.joins m = true := by
  cases a with
  | single => cases h
  | merged s r =>
    cases b with
    | single => cases h
    | merged t q =>
      cases m with
      | single => cases h'
      | merged u p => exact BEq.trans (α := Style) (BEq.symm h) h'

theorem joins_trans (h : a.joins b = true) (h' : b.joins m = true) : a.joins m = true := by
  cases a with
  | single => cases h
  | merged s r =>
    cases b with
    | single => cases h
    | merged t q =>
      cases m with
      | single => cases h'
      | merged u p => exact BEq.trans (α := Style) h h'

/-- A run of marks that are held back: all of them join the first. -/
def Run : List Mark → Prop
  | [] => True
  | first :: rest => ∀ m ∈ rest, first.joins m = true

theorem Run.isChain (h : Run held) : held.IsChain fun a b => joins a b = true := by
  cases held with
  | nil => exact List.isChain_nil
  | cons first rest =>
    apply List.Pairwise.isChain
    refine List.pairwise_cons.mpr ⟨h, ?_⟩
    exact List.pairwise_of_forall_mem_list fun a ha b hb => joins_right (h a ha) (h b hb)

theorem drawn_run (h : Run held) : drawn grid held = requests grid held := by
  cases held with
  | nil => rfl
  | cons first rest =>
    rw [drawn, List.splitBy_of_isChain (List.cons_ne_nil _ _) h.isChain]
    simp

theorem drawn_append (h : Run held) (hapart : ∀ a ∈ held.getLast?, a.joins m = false) :
    drawn grid (held ++ m :: later) = requests grid held ++ drawn grid (m :: later) := by
  rw [← drawn_run h, drawn, List.splitBy_append_cons later hapart, List.flatMap_append]
  rfl

theorem drawn_single (request : Request) :
    drawn grid (single request :: later) = request :: drawn grid later := by
  have happart : ∀ a ∈ [single request].getLast?, ∀ b ∈ later.head?, a.joins b = false := by
    rintro _ ⟨⟩ b _
    rfl
  show drawn grid ([single request] ++ later) = _
  rw [drawn, List.splitBy_append happart, List.flatMap_append]
  rfl

end Mark

/-! ### Requests that were served -/

namespace Cache

variable [Surface σ] {requests requests' : List Request} {c c₁ c₂ : Cache σ}

/-- The requests were added one after the other, and all of them were answered. -/
def Serves (requests : List Request) (c c' : Cache σ) : Prop :=
  ∃ claims, addEach requests c = .ok claims c'

theorem Serves.nil (c : Cache σ) : Serves [] c c := ⟨[], rfl⟩

theorem Serves.cons {g : Geometry} {s : Style} {handle : Handle} (h : add g s c = .ok handle c₁)
    (h' : Serves requests c₁ c₂) : Serves (⟨g, s⟩ :: requests) c c₂ := by
  obtain ⟨claims, hrun⟩ := h'
  refine ⟨⟨handle, g, s⟩ :: claims, ?_⟩
  rw [addEach, bind_of_ok h, bind_of_ok hrun]
  rfl

theorem Serves.append (h : Serves requests c c₁) (h' : Serves requests' c₁ c₂) :
    Serves (requests ++ requests') c c₂ := by
  induction requests generalizing c with
  | nil =>
    obtain ⟨_, hrun⟩ := h
    cases hrun
    exact h'
  | cons request rest ih =>
    obtain ⟨claims, hrun⟩ := h
    obtain ⟨handle, c₀, hadd, hrun⟩ := ok_of_bind hrun
    obtain ⟨claims', c₁', heach, hrun⟩ := ok_of_bind hrun
    cases hrun
    exact .cons hadd (ih ⟨claims', heach⟩)

theorem Serves.phase (h : Serves requests c c₁) : c₁.phase = c.phase := by
  have hkeeps : ∀ requests : List Request,
      Keeps (InPhase c.phase) (addEach requests : CacheM σ (List Claim)) := by
    intro requests
    induction requests with
    | nil => exact .pure []
    | cons request rest ih =>
      exact (add_keepsPhase _ _).bind fun _ => ih.bind fun _ => .pure _
  obtain ⟨claims, hrun⟩ := h
  exact (hkeeps requests c rfl).of_ok hrun

end Cache

open Cache

theorem Context.addAll_serves [Surface σ] (style : Style) (geometries : List Geometry) (c : Cache σ) :
    Ends (Context.addAll style geometries) c
      (fun _ c' => Serves (geometries.map (⟨·, style⟩)) c c') fun _ _ => True := by
  induction geometries generalizing c with
  | nil => exact Ends.pure (.nil c)
  | cons g rest ih =>
    refine Ends.bind (Ends.intro ?_ fun _ _ _ => trivial)
    intro handle c₁ hadd
    exact (ih c₁).imp (fun _ _ hserves => .cons hadd hserves) fun _ _ h => h

namespace Context

open Mark

/-! ### A frame at work -/

/-- The marks are what the context holds back. -/
inductive Holding (c : Context σ) : List Mark → Prop
  | nothing (hstyle : c.batchStyle = none) (hbatch : c.batch = #[]) : Holding c []
  | run {style : Style} {r : Rect} {rest : List Mark} (hstyle : c.batchStyle = some style)
      (hbatch : c.batch.toList = (merged style r :: rest).filterMap (corners? c.divisor))
      (hrun : Run (merged style r :: rest)) : Holding c (merged style r :: rest)

/-- The contexts draw alike: they differ in what was drawn and what is held back only. -/
def Alike (c d : Context σ) : Prop :=
  c = { d with cache := c.cache, batch := c.batch, batchStyle := c.batchStyle }

variable {c c' d : Context σ} {held : List Mark}

theorem Holding.isRun (h : Holding c held) : Run held := by
  cases h with
  | nothing => exact trivial
  | run _ _ hrun => exact hrun

theorem Holding.congr (h : Holding c held) (hstyle : c'.batchStyle = c.batchStyle)
    (hbatch : c'.batch = c.batch) (hgrid : c'.grid = c.grid) : Holding c' held := by
  have hdivisor : c'.divisor = c.divisor := congrArg (fun grid => grid.getD 1) hgrid
  cases h with
  | nothing hstyle' hbatch' => exact .nothing (hstyle.trans hstyle') (hbatch.trans hbatch')
  | run hstyle' hbatch' hrun =>
    refine .run (hstyle.trans hstyle') ?_ hrun
    rw [hbatch, hdivisor]
    exact hbatch'

theorem Alike.mark?_eq (h : Alike c d) (command : Command) : c.mark? command = d.mark? command := by
  rw [h]
  cases command <;> rfl

theorem Alike.redress (h : Alike c d) (command : Command) :
    Alike (c.redress command) (d.redress command) := by
  rw [h]
  cases command <;> rfl

theorem Alike.marks_eq (h : Alike c d) (commands : List Command) :
    c.marks commands = d.marks commands := by
  induction commands generalizing c d with
  | nil => rfl
  | cons command rest ih =>
    unfold marks
    rw [h.mark?_eq, ih (h.redress command)]

theorem redress_kept (c : Context σ) (command : Command) :
    (c.redress command).muted = c.muted ∧ (c.redress command).divisor = c.divisor := by
  cases command <;> exact ⟨rfl, rfl⟩

theorem mark?_rect (r : Rect) (hmuted : c.muted = false) (hdrawing : c.cache.isDrawing = true) :
    c.mark? (.rect r) = some (match c.queues r with
      | some _ => .merged c.shapeStyle r
      | none => .single ⟨.rect r, c.shapeStyle⟩) := by
  unfold mark? queues
  rw [hmuted, hdrawing]
  cases c.grid with
  | none => rfl
  | some grid =>
    show some (if mergeable c.shapeStyle grid r = true then _ else _) =
      some (match (if mergeable c.shapeStyle grid r = true then some grid else none) with
        | some _ => _
        | none => _)
    cases mergeable c.shapeStyle grid r <;> rfl

theorem Holding.joins_last {r : Rect} (h : Holding c held)
    (hother : (c.batchStyle == some c.shapeStyle) = false) :
    ∀ a ∈ held.getLast?, a.joins (merged c.shapeStyle r) = false := by
  intro a ha
  cases h with
  | nothing => cases ha
  | @run style first rest hstyle _ hrun =>
    rw [hstyle] at hother
    rw [Bool.eq_false_iff]
    intro hjoins
    have hfirst : (merged style first).joins (merged c.shapeStyle r) = true := by
      rcases List.mem_cons.mp (List.mem_of_getLast? ha) with rfl | hmem
      · exact hjoins
      · exact joins_trans (hrun a hmem) hjoins
    exact Bool.false_ne_true (hother.symm.trans hfirst)

/-- Some requests were served and some marks are held back still, which together draw what was held back
before and the new marks. -/
def Advances [Surface σ] (c : Context σ) (held marks : List Mark) (c' : Context σ) : Prop :=
  ∃ served left, Serves served c.cache c'.cache ∧ Holding c' left ∧
    ∀ later, drawn c.divisor (held ++ (marks ++ later)) = served ++ drawn c.divisor (left ++ later)

section Steps

variable [Surface σ]

theorem flushBatch_serves (h : Holding c held) :
    Ends flushBatch c
      (fun _ c' => c' = { c.dropBatch with cache := c'.cache } ∧
        Serves (requests c.divisor held) c.cache c'.cache)
      fun _ _ => True := by
  cases h with
  | nothing hstyle hbatch =>
    refine Ends.of_eq (flushBatch_of_none hstyle) (Ends.pure ⟨?_, .nil _⟩)
    cases c
    cases hstyle
    cases hbatch
    rfl
  | run hstyle hbatch =>
    refine Ends.of_eq (flushBatch_of_some hstyle) (onCache_ends ?_)
    rw [hbatch]
    exact (addAll_serves _ _ _).imp (fun _ _ hserves => ⟨rfl, hserves⟩) fun _ _ h => h

theorem drawNow_advances (h : Holding c held) (g : Geometry) (style : Style) :
    Ends (drawNow g style) c
      (fun _ c' => Advances c held [single ⟨g, style⟩] c' ∧ Alike c' c) fun _ _ => True := by
  have hapart : ∀ a ∈ held.getLast?, a.joins (single ⟨g, style⟩) = false := by
    intro a _
    cases a <;> rfl
  refine Ends.seq (flushBatch_serves h) ?_
  intro _ c₁ ⟨hc₁, hserves⟩
  refine Ends.bind (onCache_ends (Ends.intro ?_ fun _ _ _ => trivial))
  intro handle cache hadd
  rw [hc₁]
  refine Ends.pure ⟨⟨requests c.divisor held ++ [⟨g, style⟩], [], ?_, .nothing rfl rfl, ?_⟩, rfl⟩
  · exact hserves.append (.cons hadd (.nil _))
  · intro later
    show drawn c.divisor (held ++ single ⟨g, style⟩ :: later) = _
    rw [drawn_append h.isRun hapart, drawn_single, List.append_assoc]
    rfl

theorem enqueue_advances {r : Rect} {grid : Nat} (h : Holding c held)
    (hqueues : c.queues r = some grid) :
    Ends (enqueue c.shapeStyle grid r) c
      (fun _ c' => Advances c held [merged c.shapeStyle r] c' ∧ Alike c' c) fun _ _ => True := by
  have hdivisor := divisor_of_queues hqueues
  cases hsame : c.batchStyle == some c.shapeStyle with
  | true =>
    refine Ends.of_eq (enqueue_of_same hsame) (Ends.pure ⟨⟨[], held ++ [merged c.shapeStyle r],
      .nil _, ?_, fun later => ?_⟩, rfl⟩)
    · cases h with
      | nothing hstyle =>
        rw [hstyle] at hsame
        cases hsame
      | @run style first rest hstyle hbatch hrun =>
        rw [hstyle] at hsame
        refine .run hstyle ?_ ?_
        · show (c.batch.push (Batch.cornersOf grid r)).toList =
            (merged style first :: rest ++ [merged c.shapeStyle r]).filterMap (corners? c.divisor)
          rw [Array.toList_push, hbatch, hdivisor, List.filterMap_append]
          rfl
        · intro m hm
          rcases List.mem_append.mp hm with hold | hnew
          · exact hrun m hold
          · rw [List.mem_singleton.mp hnew]
            exact hsame
    · rw [List.append_assoc]
      rfl
  | false =>
    refine Ends.of_eq (enqueue_of_other hsame) (Ends.seq (flushBatch_serves h) ?_)
    intro _ c₁ ⟨hc₁, hserves⟩
    rw [hc₁]
    refine Ends.modify ⟨⟨requests c.divisor held, [merged c.shapeStyle r], hserves, ?_,
      fun later => drawn_append h.isRun (h.joins_last hsame)⟩, rfl⟩
    refine .run rfl ?_ fun _ hm => nomatch hm
    show [Batch.cornersOf grid r] = [Batch.cornersOf c.divisor r]
    rw [hdivisor]

/-! ### Commands of a frame -/

theorem Advances.still {c' : Context σ} (h : Holding c held) (hcache : c'.cache = c.cache)
    (hstyle : c'.batchStyle = c.batchStyle) (hbatch : c'.batch = c.batch)
    (hgrid : c'.grid = c.grid) : Advances c held [] c' := by
  refine ⟨[], held, ?_, h.congr hstyle hbatch hgrid, fun _ => rfl⟩
  rw [hcache]
  exact .nil _

theorem draw_advances (h : Holding c held) (hmuted : c.muted = false) (g : Context σ → Geometry)
    (style : Context σ → Style) :
    Ends (whenHeard do
        let c ← get
        drawNow (g c) (style c)) c
      (fun _ c' => Advances c held [single ⟨g c, style c⟩] c' ∧ Alike c' c) fun _ _ => True :=
  Ends.of_eq (whenHeard_of_heard hmuted _) (Ends.bind (Ends.get (drawNow_advances h _ _)))

theorem rect_advances (h : Holding c held) (hmuted : c.muted = false)
    (hdrawing : c.cache.isDrawing = true) (r : Rect) :
    Ends (rect r) c
      (fun _ c' => Advances c held (c.mark? (.rect r)).toList c' ∧ Alike c' c) fun _ _ => True := by
  have hrun := rect_inside (r := r) hmuted hdrawing
  rw [mark?_rect r hmuted hdrawing]
  cases hqueues : c.queues r with
  | none =>
    rw [hqueues] at hrun
    exact Ends.of_eq hrun (drawNow_advances h _ _)
  | some grid =>
    rw [hqueues] at hrun
    exact Ends.of_eq hrun (enqueue_advances h hqueues)

theorem endShape_advances (h : Holding c held) (hmuted : c.muted = false) (close : Bool) :
    Ends (endShape close) c
      (fun _ c' => Advances c held (c.mark? (.endShape close)).toList c' ∧ Alike c' c.dropVertices)
      fun _ _ => True := by
  have hdropped : Holding c.dropVertices held := h.congr rfl rfl rfl
  exact Ends.bind (Ends.get (Ends.bind (Ends.modify
    (draw_advances hdropped hmuted (fun _ => .polygon c.vertices.toList close) shapeStyle))))

/-- A command of a frame draws what is asked for, now or later. -/
theorem run_advances (command : Command) (hdraws : command.draws = true) {s : Scene τ σ}
    (h : Holding s.context held) (hmuted : s.context.muted = false)
    (hdrawing : s.context.cache.isDrawing = true) :
    Ends command.run s
      (fun _ s' => Advances s.context held (s.context.mark? command).toList s'.context ∧
        Alike s'.context (s.context.redress command)) fun _ _ => True := by
  have hstyled : ∀ {change : Context σ → Context σ},
      (∀ c, change c = { change c with
        cache := c.cache
        grid := c.grid
        batch := c.batch
        batchStyle := c.batchStyle }) →
      Ends (SceneM.change (unlessMuted change)) s
        (fun _ s' => Advances s.context held [] s'.context ∧ Alike s'.context (change s.context))
        fun _ _ => True := by
    intro change hchange
    refine Ends.modify ?_
    show Advances s.context held [] (unlessMuted change s.context) ∧ Alike (unlessMuted change _) _
    rw [unlessMuted_of_heard hmuted, hchange]
    exact ⟨.still h rfl rfl rfl rfl, rfl⟩
  cases command with
  | fill => exact hstyled fun _ => rfl
  | noFill => exact hstyled fun _ => rfl
  | stroke => exact hstyled fun _ => rfl
  | noStroke => exact hstyled fun _ => rfl
  | strokeWeight => exact hstyled fun _ => rfl
  | noSmooth => exact hstyled fun _ => rfl
  | beginShape => exact hstyled fun _ => rfl
  | vertex => exact hstyled fun _ => rfl
  | background color => exact SceneM.onContext_ends (draw_advances h hmuted _ _)
  | rect r => exact SceneM.onContext_ends (rect_advances h hmuted hdrawing r)
  | ellipse => exact SceneM.onContext_ends (draw_advances h hmuted (fun _ => _) shapeStyle)
  | endShape close => exact SceneM.onContext_ends (endShape_advances h hmuted close)
  | beginFrame | endFrame | teardown | setBatching | setMuted | fillComponents | fail => cases hdraws

/-! ### Whole frames -/

/-- From any point of a frame on, what is held back and what the commands ask for is drawn. -/
theorem runAll_serves (commands : List Command)
    (hdraws : ∀ command ∈ commands, command.draws = true) {s : Scene τ σ}
    (h : Holding s.context held) (hmuted : s.context.muted = false)
    (hdrawing : s.context.cache.isDrawing = true) :
    Ends (Command.runAll (commands ++ [.endFrame])) s
      (fun _ s' => ∃ cache,
        Serves (drawn s.context.divisor (held ++ s.context.marks commands)) s.context.cache cache ∧
        Cache.flush cache = .ok () s'.context.cache)
      fun _ _ => True := by
  -- on the commands left, with what is held back and the state of the context free
  induction commands generalizing s held with
  | nil =>
    refine Ends.bind (SceneM.onContext_ends (Ends.of_eq (whenHeard_of_heard hmuted _) (Ends.bind ?_)))
    refine (flushBatch_serves h).imp_ok ?_
    intro _ c₁ ⟨_, hserves⟩
    refine onCache_ends (Ends.intro ?_ fun _ _ _ => trivial)
    intro _ cache hflush
    refine Ends.pure ⟨c₁.cache, ?_, hflush⟩
    show Serves (drawn _ (held ++ [])) _ _
    rw [List.append_nil, drawn_run h.isRun]
    exact hserves
  | cons command rest ih =>
    obtain ⟨hcommand, hrest⟩ := List.forall_mem_cons.mp hdraws
    refine Ends.seq (run_advances command hcommand h hmuted hdrawing) ?_
    intro _ s₁ ⟨⟨served, left, hserves, hleft, hsplit⟩, halike⟩
    obtain ⟨hmuted₁, hdivisor₁⟩ := s.context.redress_kept command
    have hmuted' : s₁.context.muted = (s.context.redress command).muted := by rw [halike]
    have hdivisor' : s₁.context.divisor = (s.context.redress command).divisor := by rw [halike]; rfl
    have hdrawing' : s₁.context.cache.isDrawing = true := by
      unfold isDrawing at hdrawing ⊢
      rw [hserves.phase]
      exact hdrawing
    refine (ih hrest hleft (hmuted'.trans (hmuted₁.trans hmuted)) hdrawing').imp_ok ?_
    intro _ s' ⟨cache, hserves', hflush⟩
    refine ⟨cache, ?_, hflush⟩
    rw [hdivisor', hdivisor₁, halike.marks_eq] at hserves'
    unfold marks
    rw [hsplit]
    exact hserves.append hserves'

end Steps

end Context

theorem Cache.drawFrame_of_serves [Surface σ] {requests : List Request} {c c₁ c₂ c₃ : Cache σ}
    (hclear : clear { c with touched := #[] } = .ok () c₁) (hserves : Serves requests c₁ c₂)
    (hflush : flush c₂ = .ok () c₃) : ∃ claims, drawFrame requests c = .ok claims c₃ := by
  obtain ⟨claims, hadds⟩ := hserves
  have hbegin : beginFrame c = .ok () { c with touched := #[] } := rfl
  refine ⟨claims, ?_⟩
  rw [drawFrame, bind_of_ok hbegin, bind_of_ok hclear, bind_of_ok hadds, bind_of_ok hflush]
  rfl

namespace Context

open Mark

variable [Surface σ]

/-- On a canvas that was left in any state but is heard, a frame whose commands all succeed does to the
cache what drawing its requests in their order does: for each run of rectangles that are held back in
one style the outlines of their union, in the style of the first, and for any other shape a request of
its own. -/
theorem drawn_in_order (surface : σ) (width height : Float) (past : List Deed) (c : Context σ)
    (hpast : (onCanvas surface width height).afterAll past = c) (hheard : c.muted = false)
    (commands : List Command) (hdraws : ∀ command ∈ commands, command.draws = true) (state : τ)
    (s' : Scene τ σ)
    (hrun : Command.runAll (.beginFrame :: commands ++ [.endFrame]) ⟨state, c⟩ = .ok () s') :
    ∃ claims, Cache.drawFrame (drawn c.divisor (c.marks commands)) c.cache =
      .ok claims s'.context.cache := by
  have htidy : c.Tidy := by
    rw [← hpast]
    exact lasting_tidy.afterAll past (tidy_onCanvas surface width height)
  have hframe : Ends (Command.runAll (.beginFrame :: (commands ++ [.endFrame])))
      (⟨state, c⟩ : Scene τ σ)
      (fun _ s' => ∃ claims, Cache.drawFrame (drawn c.divisor (c.marks commands)) c.cache =
        .ok claims s'.context.cache) fun _ _ => True := by
    refine Ends.bind (SceneM.onContext_ends (Ends.of_eq (whenHeard_of_heard hheard _) (Ends.bind
      (onCache_ends (Ends.modify (onCache_ends (Ends.intro ?_ fun _ _ _ => trivial)))))))
    intro _ cache hclear
    obtain ⟨hidle, hopened⟩ := (Cache.clear_ends _).of_ok hclear
    have hstyle : c.batchStyle = none := htidy.idle hidle
    have hholding : Holding { c with cache := cache } [] :=
      .nothing hstyle (htidy.unstyled hstyle)
    have hdrawing : cache.isDrawing = true := by
      rw [hopened]
      rfl
    refine (runAll_serves commands hdraws (s := ⟨state, { c with cache := cache }⟩) hholding hheard
      hdrawing).imp_ok ?_
    intro _ s' ⟨cache', hserves, hflush⟩
    have halike : Alike { c with cache := cache } c := rfl
    rw [halike.marks_eq] at hserves
    exact Cache.drawFrame_of_serves hclear hserves hflush
  exact hframe.of_ok hrun

/-- Tiles without outlines on a background. The fill is taken away and given back between them. -/
def tiles : List Command :=
  [.background .white, .noStroke, .rect ⟨0.0, 0.0, 1.0, 1.0⟩, .noFill, .fill .white,
    .rect ⟨1.0, 0.0, 1.0, 1.0⟩]

def tiled : Scene Unit Recorder :=
  stateAfter (Command.runAll (.beginFrame :: tiles)) ⟨(), onCanvas Recorder.empty 4.0 4.0⟩

theorem runAll_tiles : ∃ s' : Scene Unit Recorder,
    Command.runAll (.beginFrame :: tiles ++ [.endFrame]) ⟨(), onCanvas Recorder.empty 4.0 4.0⟩ =
      .ok () s' ∧
    s'.context.cache.surface.liveCount = 2 := by
  have hbatch : tiled.context.batch.toList = [⟨⟨0, 0⟩, ⟨1, 1⟩⟩, ⟨⟨1, 0⟩, ⟨2, 1⟩⟩] := by
    decide +kernel
  have hdivisor : tiled.context.divisor = 1 := by decide +kernel
  have hgeometries : Batch.shapes tiled.context.divisor tiled.context.batch.toList =
      [Batch.shapeOf 1 (Batch.around 0 0 2 1)] := by
    have houtlines : Outline.outlines [⟨⟨0, 0⟩, ⟨1, 1⟩⟩, ⟨⟨1, 0⟩, ⟨2, 1⟩⟩] =
        [Batch.around 0 0 2 1] := by cbv
    rw [hdivisor, hbatch, Batch.shapes, houtlines]
    rfl
  have hopen : passes (Command.runAll (.beginFrame :: tiles))
      (⟨(), onCanvas Recorder.empty 4.0 4.0⟩ : Scene Unit Recorder) (fun _ _ => true) = true := by
    decide +kernel
  have hclose : passes endFrame tiled.context
      (fun _ c => c.cache.surface.liveCount == 2) = true :=
    endFrame_passes (by decide +kernel) (by decide +kernel) hgeometries (by decide +kernel)
  obtain ⟨_, hrun, _⟩ := ok_of_passes hopen
  obtain ⟨_, hend, hcount⟩ := ok_of_passes hclose
  generalize stateAfter endFrame tiled.context = c at hend hcount
  have hrun' : Command.run .endFrame tiled = .ok () { tiled with context := c } := by
    show SceneM.onContext endFrame tiled = _
    unfold SceneM.onContext
    rw [hend]
  refine ⟨{ tiled with context := c }, ?_, eq_of_beq hcount⟩
  rw [Command.runAll_append hrun]
  exact Command.runAll_cons hrun'

theorem drawn_in_order_tiles :
    ∃ s' : Scene Unit Recorder,
      Command.runAll (.beginFrame :: tiles ++ [.endFrame]) ⟨(), onCanvas Recorder.empty 4.0 4.0⟩ =
        .ok () s' ∧
      s'.context.cache.surface.liveCount = 2 ∧
      ∃ claims, Cache.drawFrame
        (drawn 1 ((onCanvas Recorder.empty 4.0 4.0).marks tiles))
        (onCanvas Recorder.empty 4.0 4.0).cache = .ok claims s'.context.cache := by
  obtain ⟨s', hrun, hcount⟩ := runAll_tiles
  exact ⟨s', hrun, hcount, drawn_in_order Recorder.empty 4.0 4.0 [] _ rfl rfl tiles (by decide) ()
    s' hrun⟩

/-- The background is not drawn in the style in force: drawing it so would have set more attributes. -/
theorem background_unstyled : ∃ s' : Scene Unit Recorder,
    Command.runAll [.beginFrame, .background .white, .endFrame]
      ⟨(), onCanvas Recorder.empty 4.0 4.0⟩ = .ok () s' ∧
    ¬∃ claims, Cache.drawFrame
      [⟨.rect ⟨0.0, 0.0, 4.0, 4.0⟩, (onCanvas Recorder.empty 4.0 4.0).shapeStyle⟩]
      (onCanvas Recorder.empty 4.0 4.0).cache = .ok claims s'.context.cache := by
  have hdrawn : passes (Command.runAll [.beginFrame, .background .white, .endFrame])
      (⟨(), onCanvas Recorder.empty 4.0 4.0⟩ : Scene Unit Recorder)
      (fun _ s' => s'.context.cache.surface.liveShapes.map (fun entry => entry.2.style.keys) ==
        [[.faceColor]]) = true := by decide +kernel
  have hstyled : passes (Cache.drawFrame
        [⟨.rect ⟨0.0, 0.0, 4.0, 4.0⟩, (onCanvas Recorder.empty 4.0 4.0).shapeStyle⟩])
      (onCanvas Recorder.empty 4.0 4.0).cache
      (fun _ c => c.surface.liveShapes.map (fun entry => entry.2.style.keys) ==
        [StyleKey.all]) = true := by decide +kernel
  obtain ⟨_, hrun, hkeys⟩ := ok_of_passes hdrawn
  refine ⟨_, hrun, ?_⟩
  rintro ⟨claims, hrun'⟩
  unfold passes at hstyled
  rw [hrun'] at hstyled
  have hsame := (eq_of_beq hkeys).symm.trans (eq_of_beq hstyled)
  exact absurd hsame (by decide)

end Context

end Redraw
