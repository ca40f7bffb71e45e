import Redraw.Batch
import Redraw.Cache

/-!
# Drawing context

What a sketch draws with. It keeps the current fill, stroke and smoothing, gives every shape its style,
and holds back rectangles without an outline, to be drawn as merged outlines as soon as something else
is drawn or their style changes. While it is muted, it takes no notice of drawing.
-/

namespace Redraw

structure Context (σ : Type) where
  cache : Cache σ
  width : Float
  height : Float
  fill : Option Color := some .white
  stroke : Option Color := some .black
  strokeWeight : Float := 1.0
  antialiased : Bool := true
  vertices : Array Vertex := #[]
  /-- Grid lines per unit for merging rectangles; `none` merges nothing -/
  grid : Option Nat := some 1
  batch : Array Outline.Corners := #[]
  batchStyle : Option Style := none
  muted : Bool := false

abbrev ContextM (σ : Type) := EStateM CacheError (Context σ)

namespace Context

variable {σ : Type}

/-- A fresh canvas on a surface; rectangles are merged on whole units. -/
def onCanvas (surface : σ) (width height : Float) : Context σ where
  cache := { surface := surface }
  width := width
  height := height

/-! ### Settings -/

/-- Sets the grid for merging; no grid and a grid without lines both turn merging off. -/
def setBatching (grid : Option Nat) (c : Context σ) : Context σ :=
  { c with grid := grid.filter fun g => decide (0 < g) }

def setMuted (muted : Bool) (c : Context σ) : Context σ := { c with muted := muted }

/-- A change of the drawing state, which a muted context ignores. -/
def unlessMuted (change : Context σ → Context σ) (c : Context σ) : Context σ :=
  if c.muted then c else change c

def setFill (color : Color) : Context σ → Context σ :=
  unlessMuted fun c => { c with fill := some color }

def noFill : Context σ → Context σ := unlessMuted fun c => { c with fill := none }

def setStroke (color : Color) : Context σ → Context σ :=
  unlessMuted fun c => { c with stroke := some color }

def noStroke : Context σ → Context σ := unlessMuted fun c => { c with stroke := none }

def setStrokeWeight (weight : Float) : Context σ → Context σ :=
  unlessMuted fun c => { c with strokeWeight := weight }

def noSmooth : Context σ → Context σ := unlessMuted fun c => { c with antialiased := false }

def beginShape : Context σ → Context σ := unlessMuted fun c => { c with vertices := #[] }

def addVertex (v : Vertex) : Context σ → Context σ :=
  unlessMuted fun c => { c with vertices := c.vertices.push v }

def shapeStyle (c : Context σ) : Style where
  antialiased := some (.bool c.antialiased)
  fill := some (.bool c.fill.isSome)
  faceColor := c.fill.map .color
  edgeColor := c.stroke.map .color
  lineWidth := some (.number (if c.stroke.isSome then c.strokeWeight else 0.0))

/-! ### Small steps -/

def onCache {α : Type} (step : CacheM σ α) : ContextM σ α := fun c =>
  match step c.cache with
  | .ok a cache => .ok a { c with cache := cache }
  | .error e cache => .error e { c with cache := cache }

def addAll [Surface σ] (style : Style) : List Geometry → CacheM σ Unit
  | [] => pure ()
  | geometry :: rest => do
    let _ ← Cache.add geometry style
    addAll style rest

/-- Draws the rectangles held back as the outlines of their union. -/
def flushBatch [Surface σ] : ContextM σ Unit := do
  let c ← get
  match c.batchStyle with
  | none => return
  | some style =>
    modify fun c => { c with batch := #[], batchStyle := none }
    onCache (addAll style (Batch.shapes (c.grid.getD 1) c.batch.toList))

/-- Draws a shape behind everything that was held back. -/
def drawNow [Surface σ] (geometry : Geometry) (style : Style) : ContextM σ Unit := do
  flushBatch
  let _ ← onCache (Cache.add geometry style)

def whenHeard (step : ContextM σ Unit) : ContextM σ Unit := do
  if !(← get).muted then step

/-! ### Frames -/

def beginFrame : ContextM σ Unit := whenHeard do
  onCache Cache.beginFrame
  onCache Cache.clear

def endFrame [Surface σ] : ContextM σ Unit := whenHeard do
  flushBatch
  onCache Cache.flush

/-- Removes every shape from the surface and forgets what was held back. -/
def teardown [Surface σ] : ContextM σ Unit := do
  modify fun c => { c with batch := #[], batchStyle := none }
  onCache Cache.teardown

/-! ### Shapes -/

/-- Paints the whole canvas. -/
def background [Surface σ] (color : Color) : ContextM σ Unit := whenHeard do
  let c ← get
  drawNow (.rect ⟨0.0, 0.0, c.width, c.height⟩) { faceColor := some (.color color) }

/-- The rectangle can be held back: it has no outline, has an area and lies on the grid. -/
def mergeable (style : Style) (grid : Nat) (r : Rect) : Bool :=
  style.isStrokeless && 0.0 < r.width && 0.0 < r.height && Batch.aligned grid r

/-- Holds a rectangle back, after drawing those of another style. -/
def enqueue [Surface σ] (style : Style) (grid : Nat) (r : Rect) : ContextM σ Unit := do
  if !((← get).batchStyle == some style) then
    flushBatch
    modify fun c => { c with batchStyle := some style }
  modify fun c => { c with batch := c.batch.push (Batch.cornersOf grid r) }

def rect [Surface σ] (r : Rect) : ContextM σ Unit := whenHeard do
  let c ← get
  if !c.cache.isDrawing then throw (.protocol .rectOutsideFrame)
  let style := c.shapeStyle
  match c.grid with
  | some grid => if mergeable style grid r then enqueue style grid r else drawNow (.rect r) style
  | none => drawNow (.rect r) style

/-- Draws an ellipse by its center and full size. -/
def ellipse [Surface σ] (centerX centerY width height : Float) : ContextM σ Unit := whenHeard do
  drawNow (.ellipse centerX centerY width height) (← get).shapeStyle

/-- Draws the vertices collected so far. They are gone afterwards, on a muted context too. -/
def endShape [Surface σ] (close : Bool) : ContextM σ Unit := do
  let points := (← get).vertices.toList
  modify fun c => { c with vertices := #[] }
  whenHeard do
    drawNow (.polygon points close) (← get).shapeStyle

end Context

end Redraw
