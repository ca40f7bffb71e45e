import Redraw.Surface.Basic
import Std.Data.TreeMap

/-!
# A surface kept in memory

Holds its shapes in a table by handle and counts what was done to them. It checks every request before
it changes anything, so a refused call leaves it as it was.
-/

namespace Redraw

structure StoredShape where
  geometry : Geometry
  style : Style
  deriving BEq, Repr, Inhabited

/-- How often the surface was changed, by kind of change. -/
structure Stats where
  created : Nat := 0
  geometryWrites : Nat := 0
  styleWrites : Nat := 0
  removed : Nat := 0
  deriving DecidableEq, Repr, Inhabited

def Stats.mutations (s : Stats) : Nat := s.geometryWrites + s.styleWrites

structure Recorder where
  shapes : Std.TreeMap Handle StoredShape := ∅
  nextId : Nat := 0
  /-- The attributes that the surface takes; `none` stands for all of them -/
  supported : Option (List StyleKey) := none
  stats : Stats := {}
  /-- Removed handles, the latest first -/
  removed : List Handle := []

namespace Recorder

def empty : Recorder := {}

/-- A surface that refuses every attribute outside `keys`. -/
def supporting (keys : List StyleKey) : Recorder := { supported := some keys }

/-! ### Looking at the table -/

def shape? (r : Recorder) (handle : Handle) : Option StoredShape := r.shapes[handle]?

def liveShapes (r : Recorder) : List (Handle × StoredShape) := r.shapes.toList

def liveCount (r : Recorder) : Nat := r.shapes.size

def removals (r : Recorder) : List Handle := r.removed.reverse

def supports (r : Recorder) (key : StyleKey) : Bool :=
  match r.supported with
  | none => true
  | some keys => keys.contains key

/-! ### Checks -/

/-- What is wrong with a geometry by itself: a number that is not finite, else a size below zero. -/
def fault? (g : Geometry) : Option GeometryFault :=
  if g.isFinite then
    match g.size? with
    | some (width, height) =>
      if width < 0.0 || height < 0.0 then some (.negativeSize width height) else none
    | none => none
  else some .notFinite

/-- The first attribute of a style, in the order of the keys, that the surface does not take. -/
def unsupported? (r : Recorder) (s : Style) : Option StyleKey :=
  (s.entries.map Prod.fst).find? fun key => !r.supports key

/-! ### Calls -/

def create (g : Geometry) (s : Style) : EStateM SurfaceError Recorder Handle := fun r =>
  match fault? g, r.unsupported? s with
  | some fault, _ => .error (.invalidGeometry fault) r
  | none, some key => .error (.unsupportedStyle key) r
  | none, none =>
    let handle : Handle := ⟨r.nextId⟩
    .ok handle { r with
      shapes := r.shapes.insert handle ⟨g, s⟩
      nextId := r.nextId + 1
      stats := { r.stats with created := r.stats.created + 1 } }

def geometry (handle : Handle) : EStateM SurfaceError Recorder Geometry := fun r =>
  match r.shape? handle with
  | some shape => .ok shape.geometry r
  | none => .error (.unknownHandle handle) r

def setGeometry (handle : Handle) (g : Geometry) : EStateM SurfaceError Recorder Unit := fun r =>
  match fault? g, r.shape? handle with
  | some fault, _ => .error (.invalidGeometry fault) r
  | none, none => .error (.unknownHandle handle) r
  | none, some shape =>
    if shape.geometry.family = g.family then
      .ok () { r with
        shapes := r.shapes.insert handle { shape with geometry := g }
        stats := { r.stats with geometryWrites := r.stats.geometryWrites + 1 } }
    else .error (.invalidGeometry (.otherFamily shape.geometry.kind g.kind)) r

def style (handle : Handle) (key : StyleKey) :
    EStateM SurfaceError Recorder (Option StyleValue) := fun r =>
  match r.supports key, r.shape? handle with
  | false, _ => .error (.unsupportedStyle key) r
  | true, none => .error (.unknownHandle handle) r
  | true, some shape => .ok (shape.style.get? key) r

def setStyle (handle : Handle) (key : StyleKey) (value : StyleValue) :
    EStateM SurfaceError Recorder Unit := fun r =>
  match r.supports key, r.shape? handle with
  | false, _ => .error (.unsupportedStyle key) r
  | true, none => .error (.unknownHandle handle) r
  | true, some shape =>
    .ok () { r with
      shapes := r.shapes.insert handle { shape with style := shape.style.set key value }
      stats := { r.stats with styleWrites := r.stats.styleWrites + 1 } }

def remove (handle : Handle) : EStateM SurfaceError Recorder Unit := fun r =>
  match r.shape? handle with
  | none => .error (.unknownHandle handle) r
  | some _ =>
    .ok () { r with
      shapes := r.shapes.erase handle
      stats := { r.stats with removed := r.stats.removed + 1 }
      removed := handle :: r.removed }

instance : Surface Recorder where
  create := create
  geometry := geometry
  setGeometry := setGeometry
  style := style
  setStyle := setStyle
  remove := remove

/-! ### Refused calls change nothing -/

theorem create_error {g : Geometry} {s : Style} {r r' : Recorder} {e : SurfaceError}
    (h : create g s r = .error e r') : r' = r := by
  simp only [create] at h
  split at h <;> cases h <;> rfl

theorem setGeometry_error {handle : Handle} {g : Geometry} {r r' : Recorder} {e : SurfaceError}
    (h : setGeometry handle g r = .error e r') : r' = r := by
  simp only [setGeometry] at h
  split at h
  · cases h
    rfl
  · cases h
    rfl
  · split at h <;> cases h
    rfl

theorem setStyle_error {handle : Handle} {key : StyleKey} {value : StyleValue} {r r' : Recorder}
    {e : SurfaceError} (h : setStyle handle key value r = .error e r') : r' = r := by
  simp only [setStyle] at h
  split at h <;> cases h <;> rfl

theorem remove_error {handle : Handle} {r r' : Recorder} {e : SurfaceError}
    (h : remove handle r = .error e r') : r' = r := by
  simp only [remove] at h
  split at h <;> cases h
  rfl

end Recorder

end Redraw
