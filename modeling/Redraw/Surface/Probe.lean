import Redraw.Surface.Basic

/-!
# A surface under observation

Wraps a surface, notes every call that is made, and refuses chosen calls before they reach the surface
inside: of each operation the calls with certain numbers, counted from 0.
-/

namespace Redraw

inductive SurfaceOp where
  | create
  | geometry
  | setGeometry
  | style
  | setStyle
  | remove
  deriving DecidableEq, Repr

namespace SurfaceOp

def name : SurfaceOp → String
  | create => "create"
  | geometry => "geometry"
  | setGeometry => "set_geometry"
  | style => "style"
  | setStyle => "set_style"
  | remove => "remove"

end SurfaceOp

def Family.text : Family → String
  | .rect => "rect"
  | .ellipse => "ellipse"
  | .polygon => "polygon"

/-- One call, with what tells it from others of its kind. -/
inductive SurfaceCall where
  | create (family : Family)
  | geometry (handle : Handle)
  | setGeometry (handle : Handle)
  | style (handle : Handle) (key : StyleKey)
  | setStyle (handle : Handle) (key : StyleKey)
  | remove (handle : Handle)
  deriving DecidableEq, Repr

namespace SurfaceCall

def op : SurfaceCall → SurfaceOp
  | create _ => .create
  | geometry _ => .geometry
  | setGeometry _ => .setGeometry
  | style _ _ => .style
  | setStyle _ _ => .setStyle
  | remove _ => .remove

def text (call : SurfaceCall) : String :=
  call.op.name ++ " " ++
    match call with
    | create family => family.text
    | geometry handle => handle.text
    | setGeometry handle => handle.text
    | style handle key => handle.text ++ " " ++ key.name
    | setStyle handle key => handle.text ++ " " ++ key.name
    | remove handle => handle.text

end SurfaceCall

structure CallCounts where
  create : Nat := 0
  geometry : Nat := 0
  setGeometry : Nat := 0
  style : Nat := 0
  setStyle : Nat := 0
  remove : Nat := 0
  deriving DecidableEq, Repr

namespace CallCounts

def get (c : CallCounts) : SurfaceOp → Nat
  | .create => c.create
  | .geometry => c.geometry
  | .setGeometry => c.setGeometry
  | .style => c.style
  | .setStyle => c.setStyle
  | .remove => c.remove

def count (c : CallCounts) : SurfaceOp → CallCounts
  | .create => { c with create := c.create + 1 }
  | .geometry => { c with geometry := c.geometry + 1 }
  | .setGeometry => { c with setGeometry := c.setGeometry + 1 }
  | .style => { c with style := c.style + 1 }
  | .setStyle => { c with setStyle := c.setStyle + 1 }
  | .remove => { c with remove := c.remove + 1 }

end CallCounts

structure Probe (σ : Type) where
  inner : σ
  /-- Whether the call with this number of an operation is refused -/
  refuses : SurfaceOp → Nat → Bool := fun _ _ => false
  counts : CallCounts := {}
  /-- The calls made, the latest first -/
  calls : List SurfaceCall := []

namespace Probe

/-- Notes a call and passes it on unless it is to be refused. -/
def observe {σ α : Type} (call : SurfaceCall) (act : EStateM SurfaceError σ α) :
    EStateM SurfaceError (Probe σ) α := fun p =>
  let number := p.counts.get call.op
  let noted := { p with counts := p.counts.count call.op, calls := call :: p.calls }
  if p.refuses call.op number then
    .error (.invalidGeometry (.other ("injected " ++ call.op.name))) noted
  else
    match act p.inner with
    | .ok a inner => .ok a { noted with inner := inner }
    | .error e inner => .error e { noted with inner := inner }

instance {σ : Type} [Surface σ] : Surface (Probe σ) where
  create g s := observe (.create g.family) (Surface.create g s)
  geometry handle := observe (.geometry handle) (Surface.geometry handle)
  setGeometry handle g := observe (.setGeometry handle) (Surface.setGeometry handle g)
  style handle key := observe (.style handle key) (Surface.style handle key)
  setStyle handle key value := observe (.setStyle handle key) (Surface.setStyle handle key value)
  remove handle := observe (.remove handle) (Surface.remove handle)

end Probe

end Redraw
