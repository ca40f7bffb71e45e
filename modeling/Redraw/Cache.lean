import Redraw.Journal
import Redraw.Surface.Basic

/-!
# Frame cache

Every frame draws its whole scene again. The cache lines its requests up with the shapes of the frame
before and changes those in place as long as the kinds agree. The first request that does not agree
gives up the rest of the previous frame, and everything after it is made anew.

A frame is `begin`, `clear`, any number of requests, `flush`. A step that fails keeps what it has done
up to the failure.
-/

namespace Redraw

/-- A shape that the cache owns, with the kind it was last requested as. -/
structure CachedShape where
  kind : ShapeKind
  handle : Handle
  deriving Repr, Inhabited

inductive Phase where
  | idle
  | drawing
  deriving DecidableEq, Repr

inductive ProtocolFault where
  | clearedTwice
  | requestOutsideFrame
  | rectOutsideFrame
  deriving DecidableEq, Repr

def ProtocolFault.message : ProtocolFault → String
  | .clearedTwice => "clear() called twice without an intervening flush()"
  | .requestOutsideFrame => "add_* called before clear()"
  | .rectOutsideFrame => "rect() called outside a frame"

inductive CacheError where
  | protocol (fault : ProtocolFault)
  | surface (error : SurfaceError)
  deriving Repr

def CacheError.message : CacheError → String
  | .protocol fault => "frame protocol violated: " ++ fault.message
  | .surface error => error.message

structure Cache (σ : Type) where
  surface : σ
  /-- Shapes of this frame, in the order of the requests -/
  active : Array CachedShape := #[]
  /-- Shapes of the previous frame that no request has met yet; `none` once they are used up -/
  previous : Option (List CachedShape) := none
  touched : Array Handle := #[]
  phase : Phase := .idle
  /-- What was reported, the latest entry first -/
  journal : List Event := []

abbrev CacheM (σ : Type) := EStateM CacheError (Cache σ)

namespace Cache

variable {σ : Type}

/-! ### Looking at a cache -/

def activeHandles (c : Cache σ) : List Handle := c.active.toList.map CachedShape.handle

/-- The shapes of the previous frame that are still waiting. -/
def pending (c : Cache σ) : List CachedShape := c.previous.getD []

def isDrawing (c : Cache σ) : Bool := c.phase == .drawing

/-! ### Small steps -/

def onSurface {α : Type} (act : EStateM SurfaceError σ α) : CacheM σ α := fun c =>
  match act c.surface with
  | .ok a surface => .ok a { c with surface := surface }
  | .error e surface => .error (.surface e) { c with surface := surface }

def note (event : Event) : CacheM σ Unit := modify fun c => { c with journal := event :: c.journal }

def touch (handle : Handle) : CacheM σ Unit :=
  modify fun c => { c with touched := c.touched.push handle }

/-- Removes shapes one by one; the first refusal stops it. -/
def removeAll [Surface σ] : List CachedShape → CacheM σ Unit
  | [] => pure ()
  | entry :: rest => do
    onSurface (Surface.remove entry.handle)
    removeAll rest

def releasePrevious [Surface σ] : CacheM σ Unit := do
  let waiting := (← get).pending
  modify fun c => { c with previous := none }
  removeAll waiting.reverse

def ensureDrawing : CacheM σ Unit := do
  if !(← get).isDrawing then throw (.protocol .requestOutsideFrame)

/-! ### Frames -/

def beginFrame : CacheM σ Unit := modify fun c => { c with touched := #[] }

/-- Hands the shapes of the last frame over to the coming requests. -/
def clear : CacheM σ Unit := do
  if (← get).isDrawing then throw (.protocol .clearedTwice)
  modify fun c => { c with
    active := #[]
    previous := some c.active.toList
    touched := #[]
    phase := .drawing }

/-- Ends the frame and removes what no request has claimed. -/
def flush [Surface σ] : CacheM σ Unit := do
  if (← get).isDrawing then
    modify fun c => { c with phase := .idle }
    let leftover := (← get).pending.length
    if 0 < leftover then note (.unclaimed leftover)
    releasePrevious

/-- Removes every shape that the cache owns, newest first. -/
def teardown [Surface σ] : CacheM σ Unit := do
  releasePrevious
  let drawn := (← get).active.toList
  modify fun c => { c with active := #[] }
  removeAll drawn.reverse
  modify fun c => { c with touched := #[], phase := .idle }

/-! ### Requests -/

/-- Takes the next shape of the previous frame if it can serve a request of this kind. If it cannot,
all that is left of that frame is given up. -/
def takeCached [Surface σ] (kind : ShapeKind) : CacheM σ (Option Handle) := do
  match (← get).previous with
  | none => return none
  | some [] =>
    modify fun c => { c with previous := none }
    return none
  | some (entry :: rest) =>
    if entry.kind == kind then
      modify fun c => { c with previous := some rest }
      return some entry.handle
    else
      note (.cacheMiss (← get).active.size kind entry.kind (rest.length + 1))
      releasePrevious
      return none

/-- Runs a step; if it fails, puts the shape back to the head of the previous frame. -/
def keepingSlot {α : Type} (entry : CachedShape) (step : CacheM σ α) : CacheM σ α := fun c =>
  match step c with
  | .ok a c => .ok a c
  | .error e c => .error e { c with previous := some (entry :: c.pending) }

/-- Writes each attribute whose value differs, in the order of the keys; tells whether any did. -/
def applyEntries [Surface σ] (handle : Handle) :
    List (StyleKey × StyleValue) → CacheM σ Bool
  | [] => return false
  | (key, value) :: rest => do
    if (← onSurface (Surface.style handle key)) == some value then
      applyEntries handle rest
    else
      onSurface (Surface.setStyle handle key value)
      let _ ← applyEntries handle rest
      return true

def applyStyle [Surface σ] (handle : Handle) (style : Style) : CacheM σ Bool :=
  applyEntries handle style.entries

/-- Writes each number of a rectangle that differs; tells whether any did. -/
def applyFields [Surface σ] (handle : Handle) (current wanted : Rect) :
    List RectField → CacheM σ Bool
  | [] => return false
  | field :: rest => do
    if current.get field == wanted.get field then
      applyFields handle current wanted rest
    else
      onSurface (Surface.setField handle field (wanted.get field))
      let _ ← applyFields handle current wanted rest
      return true

/-- Brings a rectangle in line with a request; tells whether it had to be changed. -/
def updateRect [Surface σ] (handle : Handle) (wanted : Rect) (style : Style) : CacheM σ Bool := do
  match ← onSurface (Surface.geometry handle) with
  | .rect current =>
    let moved ← applyFields handle current wanted RectField.all
    let restyled ← applyStyle handle style
    return moved || restyled
  | held => throw (.surface (.invalidGeometry (.rectangleHolds handle held.kind)))

/-- Brings a shape in line with a request; tells whether it counts as changed. Rectangles are compared
number by number, everything else is written anew. -/
def update [Surface σ] (handle : Handle) (geometry : Geometry) (style : Style) : CacheM σ Bool :=
  match geometry with
  | .rect wanted => updateRect handle wanted style
  | geometry => do
    onSurface (Surface.setGeometry handle geometry)
    let _ ← applyStyle handle style
    return true

/-- Draws a shape: with the next shape of the previous frame if its kind agrees, else with a new one. -/
def add [Surface σ] (geometry : Geometry) (style : Style) : CacheM σ Handle := do
  ensureDrawing
  match ← takeCached geometry.kind with
  | some handle =>
    let entry : CachedShape := ⟨geometry.kind, handle⟩
    if ← keepingSlot entry (update handle geometry style) then touch handle
    modify fun c => { c with active := c.active.push entry }
    return handle
  | none =>
    let handle ← onSurface (Surface.create geometry style)
    touch handle
    modify fun c => { c with active := c.active.push ⟨geometry.kind, handle⟩ }
    return handle

/-! ### Operations as data -/

inductive Op where
  | beginFrame
  | clear
  | flush
  | teardown
  | add (geometry : Geometry) (style : Style)
  deriving Repr

/-- Does an operation; a request answers with the handle of its shape. -/
def Op.run [Surface σ] : Op → CacheM σ (Option Handle)
  | .beginFrame => do
    Cache.beginFrame
    return none
  | .clear => do
    Cache.clear
    return none
  | .flush => do
    Cache.flush
    return none
  | .teardown => do
    Cache.teardown
    return none
  | .add geometry style => some <$> Cache.add geometry style

end Cache

end Redraw
