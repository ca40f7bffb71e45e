import Redraw.Proofs.Animation.FixedScene
import Redraw.Sketch.Kind

namespace Redraw

open Cache Context

variable {σ : Type}

/-! ### Requests of both -/

theorem forall₂_of_length_eq {α : Type} {R : α → α → Prop} {p : α → Prop} {earlier later : List α}
    (hR : ∀ a b, p a → p b → R a b) (hlength : earlier.length = later.length)
    (hearlier : ∀ a, a ∈ earlier → p a) (hlater : ∀ b, b ∈ later → p b) :
    List.Forall₂ R earlier later := by
  refine List.forall₂_iff_zip.mpr ⟨hlength, ?_⟩
  intro a b hmem
  exact hR a b (hearlier a (List.of_mem_zip hmem).1) (hlater b (List.of_mem_zip hmem).2)

/-- The request that paints a whole canvas. -/
def backgroundRequest (width height : Float) (background : Color) : Request :=
  ⟨.rect ⟨0.0, 0.0, width, height⟩, { faceColor := some (.color background) }⟩

theorem Command.ofFrame_of_draws {command : Command} (h : command.draws = true) :
    command.ofFrame = true := by
  cases command <;> first | rfl | exact h

theorem mem_numbers_backgroundRequest {width height : Float} {background : Color} {x : Float} :
    x ∈ (backgroundRequest width height background).style.numbers ↔
      x ∈ (StyleValue.color background).numbers := by
  show x ∈ (StyleValue.color background).numbers ++ [] ↔ _
  rw [List.append_nil]

theorem Context.mergeable_of_outlined {style : Style} (h : style.isStrokeless = false) (grid : Nat)
    (r : Rect) : mergeable style grid r = false := by
  unfold mergeable
  rw [h]
  rfl

theorem Scene.unheard_cache {τ : Type} {s : Scene τ σ} (commands : List Command) :
    (s.unheard commands).context.cache = s.context.cache := by
  unfold Scene.unheard
  split <;> rfl

theorem SceneM.idles_runAll {τ : Type} [Surface σ] {ready : Scene τ σ → Prop}
    {commands : List Command} (hdraws : ∀ command ∈ commands, command.draws = true)
    (hready : ∀ {s : Scene τ σ}, ready s → ready (s.unheard commands)) :
    SceneM.Idles ready (Command.runAll commands) := by
  intro s h hmuted
  refine Ends.of_eq (Command.runAll_of_muted commands
    (fun command hmem => Command.ofFrame_of_draws (hdraws command hmem)) hmuted) (Ends.pure ?_)
  exact ⟨hready h, (Scene.unheard_muted commands).trans hmuted, Scene.unheard_cache commands⟩

/-! ### Bouncing balls -/

namespace Bounce

def lineColor : Color :=
  ⟨80.0 / Color.maxComponent, 80.0 / Color.maxComponent, 80.0 / Color.maxComponent, 1.0⟩

def boxCommands (width height : Float) (background : Color) : List Command :=
  [.background background, .noFill, .stroke lineColor, .strokeWeight 2.0,
    .rect (frameRect width height), .noStroke]

def ballCommands (ball : Ball) : List Command :=
  [.fill ball.color, .ellipse ball.x ball.y ballSize ballSize]

def boxStyle : Style where
  antialiased := some (.bool true)
  fill := some (.bool false)
  edgeColor := some (.color lineColor)
  lineWidth := some (.number 2.0)

def boxRequest (width height : Float) : Request := ⟨.rect (frameRect width height), boxStyle⟩

def IsBall (request : Request) : Prop :=
  ∃ x y, request.geometry = .ellipse x y ballSize ballSize

/-- The background, the box and three balls. -/
def Picture (width height : Float) (background : Color) (requests : List Request) : Prop :=
  ∃ balls, requests = backgroundRequest width height background :: boxRequest width height :: balls ∧
    balls.length = 3 ∧ ∀ ball, ball ∈ balls → IsBall ball

structure Ready (width height : Float) (s : Scene (List Ball) σ) : Prop where
  balls : s.state.length = 3
  width : s.context.width = width
  height : s.context.height = height
  antialiased : s.context.antialiased = true
  unheld : s.context.batchStyle = none

variable {width height : Float} {background : Color}

theorem draws_boxCommands : ∀ command ∈ boxCommands width height background, command.draws = true := by
  simp [boxCommands, Command.draws]

theorem fixedScene (hbackground : ∀ x, x ∈ (StyleValue.color background).numbers → x.isNaN = false) :
    FixedScene (Picture width height background) 5 3 where
  follows := by
    rintro _ _ ⟨earlier, rfl, hearlier, hballs⟩ ⟨later, rfl, hlater, hballs'⟩
    refine .cons (.same ?_) (.cons (.same ?_) ?_)
    · intro x hx
      exact hbackground x (mem_numbers_backgroundRequest.mp hx)
    · show ∀ x, x ∈ boxStyle.numbers → x.isNaN = false
      decide +kernel
    · refine forall₂_of_length_eq ?_ (hearlier.trans hlater.symm) hballs hballs'
      rintro ball ball' ⟨x, y, hball⟩ ⟨x', y', hball'⟩
      refine .moved ?_ ?_
      · rw [hball, hball']
        show (ShapeKind.ellipse ballSize ballSize == ShapeKind.ellipse ballSize ballSize) = true
        decide +kernel
      · rw [hball']
        exact nofun
  total := by
    rintro _ ⟨balls, rfl, hlength, _⟩
    simp [hlength]
  moving := by
    rintro _ ⟨balls, rfl, hlength, hballs⟩
    have hmoves : ∀ ball, ball ∈ balls → ball.moves = true := by
      intro ball hmem
      obtain ⟨x, y, hball⟩ := hballs ball hmem
      unfold Request.moves
      rw [hball]
      rfl
    rw [List.countP_cons_of_neg (by exact nofun), List.countP_cons_of_neg (by exact nofun),
      List.countP_eq_length.mpr hmoves, hlength]

/-! #### The commands -/

theorem marks_boxCommands {c : Context σ} (hantialiased : c.antialiased = true) :
    c.marks (boxCommands c.width c.height background) =
      [backgroundRequest c.width c.height background, boxRequest c.width c.height].map
        Mark.single := by
  have hstyle : { c with fill := none, stroke := some lineColor, strokeWeight := 2.0 }.shapeStyle =
      boxStyle := by
    unfold shapeStyle
    rw [hantialiased]
    rfl
  have hplain : (c.grid.any fun grid => mergeable boxStyle grid (frameRect c.width c.height)) =
      false := by
    cases c.grid with
    | none => rfl
    | some grid => exact mergeable_of_outlined (by decide +kernel) grid _
  have hbox : { c with fill := none, stroke := some lineColor, strokeWeight := 2.0 }.mark?
      (.rect (frameRect c.width c.height)) = some (.single (boxRequest c.width c.height)) := by
    unfold mark?
    dsimp only
    rw [hstyle, hplain]
    rfl
  show Mark.single _ :: (({ c with fill := none, stroke := some lineColor, strokeWeight := 2.0 }.mark?
    (.rect (frameRect c.width c.height))).toList ++ []) = _
  rw [hbox]
  rfl

theorem marks_ballCommands (c : Context σ) (balls : List Ball) :
    ∃ requests : List Request, c.marks (balls.flatMap ballCommands) = requests.map Mark.single ∧
      requests.length = balls.length ∧ ∀ request, request ∈ requests → IsBall request := by
  induction balls generalizing c with
  | nil => exact ⟨[], rfl, rfl, fun _ hmem => absurd hmem List.not_mem_nil⟩
  | cons ball rest ih =>
    obtain ⟨requests, hmarks, hlength, hballs⟩ := ih { c with fill := some ball.color }
    refine ⟨⟨.ellipse ball.x ball.y ballSize ballSize,
      { c with fill := some ball.color }.shapeStyle⟩ :: requests, ?_, ?_, ?_⟩
    · rw [List.map_cons, ← hmarks]
      rfl
    · rw [List.length_cons, List.length_cons, hlength]
    · exact List.forall_mem_cons.mpr ⟨⟨ball.x, ball.y, rfl⟩, hballs⟩

theorem redressAll_ballCommands (c : Context σ) (balls : List Ball) :
    ∃ fill, c.redressAll (balls.flatMap ballCommands) = { c with fill := fill } := by
  induction balls generalizing c with
  | nil => exact ⟨c.fill, rfl⟩
  | cons ball rest ih =>
    obtain ⟨fill, hfill⟩ := ih { c with fill := some ball.color }
    exact ⟨fill, hfill⟩

theorem draws_ballCommands (balls : List Ball) :
    ∀ command ∈ balls.flatMap ballCommands, command.draws = true := by
  intro command hmem
  obtain ⟨ball, _, hball⟩ := List.mem_flatMap.mp hmem
  rcases List.mem_pair.mp hball with rfl | rfl <;> rfl

/-! #### Frames -/

variable {s : Scene (List Ball) σ}

def stepped (s : Scene (List Ball) σ) : Scene (List Ball) σ :=
  { s with state := s.state.map (Ball.step s.context.width s.context.height) }

theorem Ready.stepped (h : Ready width height s) : Ready width height (stepped s) :=
  ⟨(List.length_map _).trans h.balls, h.width, h.height, h.antialiased, h.unheld⟩

theorem Ready.unheard (h : Ready width height s) (commands : List Command) :
    Ready width height (s.unheard commands) := by
  unfold Scene.unheard
  split
  · exact ⟨h.balls, h.width, h.height, h.antialiased, h.unheld⟩
  · exact h

variable [Surface σ]

theorem drawBalls_eq (balls : List Ball) :
    (drawBalls balls : SceneM (List Ball) σ Unit) = Command.runAll (balls.flatMap ballCommands) := by
  induction balls with
  | nil => rfl
  | cons ball rest ih =>
    unfold drawBalls
    rw [ih]
    rfl

def ballsPart : SceneM (List Ball) σ Unit := do
  let balls := (← get).state
  Command.runAll (balls.flatMap ballCommands)

theorem draw_eq (h : Ready width height s) (frame : Nat) : (sketch background).draw frame s =
    (Command.runAll (boxCommands width height background) >>= fun _ => ballsPart) (stepped s) := by
  rw [← h.width, ← h.height]
  simp only [ballsPart, ← drawBalls_eq, boxCommands, Command.runAll, bind_assoc, pure_bind]
  rfl

theorem box_stages : SceneM.Stages (σ := σ) (Ready width height)
    (fun requests => requests = [backgroundRequest width height background, boxRequest width height])
    (Command.runAll (boxCommands width height background)) := by
  intro s h hheard hdrawing
  have hmarks : s.context.marks (boxCommands s.context.width s.context.height background) = _ :=
    marks_boxCommands h.antialiased
  rw [h.width, h.height] at hmarks
  refine (Command.runAll_direct _ draws_boxCommands hmarks hheard hdrawing h.unheld).imp_ok ?_
  rintro _ _ ⟨cache, hserves, rfl⟩
  exact ⟨⟨h.balls, h.width, h.height, h.antialiased, h.unheld⟩, hheard, _, rfl, hserves⟩

theorem balls_stages : SceneM.Stages (σ := σ) (Ready width height)
    (fun balls => balls.length = 3 ∧ ∀ ball, ball ∈ balls → IsBall ball) ballsPart := by
  intro s h hheard hdrawing
  obtain ⟨balls, hmarks, hlength, hballs⟩ := marks_ballCommands s.context s.state
  obtain ⟨fill, hfill⟩ := redressAll_ballCommands s.context s.state
  refine Ends.bind (Ends.get ?_)
  refine (Command.runAll_direct _ (draws_ballCommands _) hmarks hheard hdrawing h.unheld).imp_ok ?_
  rintro _ _ ⟨cache, hserves, rfl⟩
  rw [hfill]
  exact ⟨⟨h.balls, h.width, h.height, h.antialiased, h.unheld⟩, hheard, balls,
    ⟨hlength.trans h.balls, hballs⟩, hserves⟩

theorem box_idles : SceneM.Idles (σ := σ) (Ready width height)
    (Command.runAll (boxCommands width height background)) :=
  SceneM.idles_runAll draws_boxCommands fun h => h.unheard _

theorem balls_idles : SceneM.Idles (σ := σ) (Ready width height) ballsPart := by
  intro s h hmuted
  exact Ends.bind (Ends.get
    (SceneM.idles_runAll (draws_ballCommands s.state) (fun h => h.unheard _) h hmuted))

theorem stages : (sketch (σ := σ) background).Stages (Ready width height)
    (Picture width height background) where
  apart _ _ h := ⟨h.balls, h.width, h.height, h.antialiased, h.unheld⟩
  unheld h := h.unheld
  heard := by
    intro frame s h hheard hdrawing
    refine Ends.of_eq (draw_eq h frame) (box_stages.seq balls_stages ?_ h.stepped hheard hdrawing)
    rintro _ balls rfl ⟨hlength, hballs⟩
    exact ⟨balls, rfl, hlength, hballs⟩
  unheard := by
    intro frame s h hmuted
    exact Ends.of_eq (draw_eq h frame) (box_idles.seq balls_idles h.stepped hmuted)

end Bounce

/-! ### The wave -/

namespace Wave

variable {width height : Float} {background : Color} {s : Scene Unit σ}

/-- The background and a line. -/
def Picture (width height : Float) (background : Color) (requests : List Request) : Prop :=
  ∃ points closed style, requests =
    [backgroundRequest width height background, ⟨.polygon points closed, style⟩]

structure Ready (width height : Float) (s : Scene Unit σ) : Prop where
  width : s.context.width = width
  height : s.context.height = height
  unheld : s.context.batchStyle = none

theorem fixedScene (hbackground : ∀ x, x ∈ (StyleValue.color background).numbers → x.isNaN = false) :
    FixedScene (Picture width height background) 2 1 where
  follows := by
    rintro _ _ ⟨_, _, _, rfl⟩ ⟨_, _, _, rfl⟩
    refine .cons (.same ?_) (.cons (.moved rfl nofun) .nil)
    intro x hx
    exact hbackground x (mem_numbers_backgroundRequest.mp hx)
  total := by
    rintro _ ⟨_, _, _, rfl⟩
    rfl
  moving := by
    rintro _ ⟨_, _, _, rfl⟩
    rfl

/-! #### The commands -/

def lineCommands (points : List Vertex) : List Command :=
  .beginShape :: (points.map .vertex ++ [.endShape false])

theorem marks_vertices (c : Context σ) (points : List Vertex) :
    c.marks (points.map .vertex ++ [.endShape false]) =
      [.single ⟨.polygon (c.vertices.toList ++ points) false, c.shapeStyle⟩] := by
  induction points generalizing c with
  | nil =>
    rw [List.append_nil]
    rfl
  | cons point rest ih =>
    refine (ih { c with vertices := c.vertices.push point }).trans ?_
    rw [Array.toList_push, List.append_assoc]
    rfl

theorem marks_lineCommands (c : Context σ) (points : List Vertex) :
    c.marks (lineCommands points) =
      [⟨.polygon points false, c.shapeStyle⟩].map Mark.single :=
  marks_vertices { c with vertices := #[] } points

theorem marks_background {c : Context σ} :
    c.mark? (.background background) =
      (some (backgroundRequest c.width c.height background)).map Mark.single := rfl

theorem draws_lineCommands (points : List Vertex) :
    ∀ command ∈ lineCommands points, command.draws = true := by
  intro command hmem
  rcases List.mem_cons.mp hmem with rfl | hmem
  · rfl
  · rcases List.mem_append.mp hmem with hvertex | hend
    · obtain ⟨point, _, rfl⟩ := List.mem_map.mp hvertex
      rfl
    · rw [List.mem_singleton.mp hend]
      rfl

theorem redressAll_lineCommands (c : Context σ) (points : List Vertex) :
    c.redressAll (lineCommands points) = c.dropVertices := by
  have hvertices : ∀ c : Context σ, c.redressAll (points.map .vertex ++ [.endShape false]) =
      c.dropVertices := by
    induction points with
    | nil => exact fun _ => rfl
    | cons point rest ih => exact fun c => ih { c with vertices := c.vertices.push point }
  exact hvertices { c with vertices := #[] }

/-! #### Frames -/

theorem Ready.unheard (h : Ready width height s) (commands : List Command) :
    Ready width height (s.unheard commands) := by
  unfold Scene.unheard
  split
  · exact ⟨h.width, h.height, h.unheld⟩
  · exact h

variable [Surface σ]

theorem addVertices_eq (points : List Vertex) :
    (addVertices points >>= fun _ => SceneM.onContext (Context.endShape false) :
      SceneM Unit σ Unit) = Command.runAll (points.map .vertex ++ [.endShape false]) := by
  induction points with
  | nil =>
    show (pure () >>= fun _ => SceneM.onContext (Context.endShape false)) =
      (SceneM.onContext (Context.endShape false) >>= pure : SceneM Unit σ Unit)
    rw [pure_bind, bind_pure]
  | cons point rest ih =>
    have hfirst : (addVertices (point :: rest) : SceneM Unit σ Unit) =
        (SceneM.change (Context.addVertex point) >>= fun _ => addVertices rest) := rfl
    rw [hfirst, bind_assoc, ih]
    rfl

def line (points : Float → Float → List Vertex) : SceneM Unit σ Unit := do
  let width := (← SceneM.context).width
  let height := (← SceneM.context).height
  SceneM.change Context.beginShape
  addVertices (points width height)
  SceneM.onContext (Context.endShape false)

theorem line_eq (points : Float → Float → List Vertex) : line points s =
    Command.runAll (lineCommands (points s.context.width s.context.height)) s := by
  unfold lineCommands
  rw [Command.runAll, ← addVertices_eq]
  rfl

theorem background_stages : SceneM.Stages (σ := σ) (τ := Unit) (Ready width height)
    (fun requests => requests = [backgroundRequest width height background])
    (Command.run (.background background)) := by
  intro s h hheard hdrawing
  refine (Command.run_direct (.background background) rfl marks_background hheard hdrawing
    h.unheld).imp_ok ?_
  rintro _ _ ⟨cache, hserves, rfl⟩
  refine ⟨⟨h.width, h.height, h.unheld⟩, hheard, _, ?_, hserves⟩
  rw [h.width, h.height]
  rfl

theorem line_stages (points : Float → Float → List Vertex) :
    SceneM.Stages (σ := σ) (Ready width height)
      (fun requests => ∃ points closed style, requests = [⟨.polygon points closed, style⟩])
      (line points) := by
  intro s h hheard hdrawing
  refine Ends.of_eq (line_eq points) ((Command.runAll_direct _ (draws_lineCommands _)
    (marks_lineCommands s.context _) hheard hdrawing h.unheld).imp_ok ?_)
  rintro _ _ ⟨cache, hserves, rfl⟩
  rw [redressAll_lineCommands]
  exact ⟨⟨h.width, h.height, h.unheld⟩, hheard, _, ⟨_, _, _, rfl⟩, hserves⟩

theorem line_idles (points : Float → Float → List Vertex) :
    SceneM.Idles (σ := σ) (Ready width height) (line points) := by
  intro s h hmuted
  exact Ends.of_eq (line_eq points)
    (SceneM.idles_runAll (draws_lineCommands _) (fun h => h.unheard _) h hmuted)

theorem background_idles : SceneM.Idles (σ := σ) (τ := Unit) (Ready width height)
    (Command.run (.background background)) := by
  intro s h hmuted
  refine Ends.of_eq (Command.run_of_muted (.background background) rfl hmuted) (Ends.pure ?_)
  exact ⟨h.unheard _, (Scene.unheard_muted _).trans hmuted, Scene.unheard_cache _⟩

/-- The points of a frame; which they are does not matter. -/
theorem draw_eq (background : Color) (frame : Nat) : ∃ points, (sketch (σ := σ) background).draw frame =
    (Command.run (.background background) >>= fun _ => line points) :=
  ⟨fun width height => (List.range (samples + 1)).map (vertexAt width height frame), rfl⟩

theorem stages : (sketch (σ := σ) background).Stages (Ready width height)
    (Picture width height background) where
  apart _ _ h := ⟨h.width, h.height, h.unheld⟩
  unheld h := h.unheld
  heard := by
    intro frame s h hheard hdrawing
    obtain ⟨points, hdraw⟩ := draw_eq (σ := σ) background frame
    rw [hdraw]
    refine background_stages.seq (line_stages points) ?_ h hheard hdrawing
    rintro _ _ rfl ⟨points, closed, style, rfl⟩
    exact ⟨points, closed, style, rfl⟩
  unheard := by
    intro frame s h hmuted
    obtain ⟨points, hdraw⟩ := draw_eq (σ := σ) background frame
    rw [hdraw]
    exact background_idles.seq (line_idles points) h hmuted

end Wave

/-! ### Runs of the sketches -/

namespace SketchKind

open Animation

/-- How many shapes a sketch with a fixed scene shows, and how many of them move. -/
def scene? : SketchKind → Option (Nat × Nat)
  | bounce => some (5, 3)
  | wave => some (2, 1)
  | tiles => none

def onCanvas (kind : SketchKind) (width height : Float) (grid : Option Nat) :
    Scene kind.State Recorder :=
  ⟨kind.start, (Context.onCanvas Recorder.empty width height).setBatching grid⟩

/-- On any canvas, with any grid and however many frames are shown and skipped, a run of the balls or of
the wave that succeeds has made each shape once. The numbers of the background color are numbers. -/
theorem run_keepsScene (kind : SketchKind) {total moving : Nat}
    (hscene : kind.scene? = some (total, moving)) (width height : Float) (grid : Option Nat)
    (background : Color)
    (hbackground : ∀ x, x ∈ (StyleValue.color background).numbers → x.isNaN = false)
    (a : Animation) {reports : List FrameReport} {s' : Scene kind.State Recorder}
    (hrun : a.run (kind.sketch background) (kind.onCanvas width height grid) = .ok reports s') :
    a.KeepsScene (kind.sketch background) (kind.onCanvas width height grid) total moving reports s' := by
  cases kind with
  | bounce =>
    cases hscene
    have hposed : Posed (Bounce.Ready width height) (onCanvas bounce width height grid) [] :=
      ⟨⟨rfl, rfl, rfl, rfl, rfl⟩, rfl, standing_onEmpty⟩
    exact run_settles Bounce.stages (Bounce.fixedScene hbackground) (Ends.pure hposed) hrun
  | wave =>
    cases hscene
    have hsetup : Ends (Wave.sketch background).setup (onCanvas wave width height grid)
        (fun _ s => Posed (Wave.Ready width height) s []) fun _ _ => True := by
      apply Ends.intro _ fun _ _ _ => trivial
      intro _ s hrun
      cases hrun
      exact ⟨⟨rfl, rfl, rfl⟩, rfl, standing_onEmpty⟩
    exact run_settles Wave.stages (Wave.fixedScene hbackground) hsetup hrun
  | tiles => cases hscene

/-- Three frames of the balls are shown, and one is skipped before each of the later two. -/
theorem run_keepsScene_bounce :
    let a : Animation := ⟨6, 30, 1, false⟩
    let s := bounce.onCanvas 200.0 120.0 (some 1)
    bounce.scene? = some (5, 3) ∧
      (∀ x, x ∈ (StyleValue.color .white).numbers → x.isNaN = false) ∧
      ∃ reports s', a.run (bounce.sketch .white) s = .ok reports s' ∧
        reports.map FrameReport.counts = [(5, 5), (3, 5), (3, 5)] ∧
        s'.context.cache.surface.stats.created = 5 ∧
        a.KeepsScene (bounce.sketch .white) s 5 3 reports s' := by
  intro a s
  have hnumbers : ∀ x, x ∈ (StyleValue.color .white).numbers → x.isNaN = false := by decide +kernel
  have hpasses : passes (a.run (bounce.sketch .white)) s (fun _ _ => true) = true := by decide +kernel
  obtain ⟨reports, hrun, -⟩ := ok_of_passes hpasses
  have hkeeps := run_keepsScene bounce rfl 200.0 120.0 (some 1) .white hnumbers a hrun
  have hshown : a.displayedFrames = 3 := by decide
  have hcounts := hkeeps.counts
  have hcreated := hkeeps.created
  rw [hshown] at hcounts hcreated
  exact ⟨rfl, hnumbers, reports, _, hrun, hcounts, hcreated, hkeeps⟩

end SketchKind

end Redraw
