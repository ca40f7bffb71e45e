import Redraw.Style
import Redraw.Geometry

/-!
# Drawing surfaces

What a surface offers to those that draw on it. Shapes live on the surface and are named by handles;
a handle names one shape from its creation to its removal. Every call may be refused, and a refused
call still leaves a surface behind.
-/

namespace Redraw

/-- Names a shape on a surface. -/
structure Handle where
  id : Nat
  deriving DecidableEq, Repr, Inhabited

instance : Ord Handle := ⟨compareOn Handle.id⟩

instance : Std.TransOrd Handle := inferInstanceAs (Std.TransCmp (compareOn Handle.id))

instance : Std.LawfulEqOrd Handle where
  eq_of_compare {h k} heq := by
    have heq' : compare h.id k.id = .eq := heq
    rw [Std.LawfulEqCmp.compare_eq_iff_eq] at heq'
    cases h
    cases k
    simp_all

def Handle.text (h : Handle) : String := "#" ++ toString h.id

/-! ### Refusals -/

inductive GeometryFault where
  | notFinite
  | negativeSize (width height : Float)
  /-- The shape belongs to another family -/
  | otherFamily (held wanted : ShapeKind)
  /-- A field of a rectangle was to be written on something else -/
  | notARectangle (handle : Handle)
  /-- A rectangle was expected at the handle -/
  | rectangleHolds (handle : Handle) (held : ShapeKind)
  /-- Any reason of the surface's own -/
  | other (reason : String)
  deriving Repr

def GeometryFault.message : GeometryFault → String
  | .notFinite => "non-finite coordinate"
  | .negativeSize width height => "negative size " ++ Number.plain width ++ "x" ++ Number.plain height
  | .otherFamily held wanted => "cannot turn " ++ held.text ++ " into " ++ wanted.text
  | .notARectangle handle => "shape " ++ handle.text ++ " is not a rectangle"
  | .rectangleHolds handle held => "cached rectangle " ++ handle.text ++ " holds " ++ held.text
  | .other reason => reason

inductive SurfaceError where
  | unknownHandle (handle : Handle)
  | unsupportedStyle (key : StyleKey)
  | invalidGeometry (fault : GeometryFault)
  deriving Repr

def SurfaceError.message : SurfaceError → String
  | .unknownHandle handle => "unknown shape handle " ++ handle.text
  | .unsupportedStyle key =>
    "style attribute \x27" ++ key.name ++ "\x27 is not supported by this surface"
  | .invalidGeometry fault => "invalid geometry: " ++ fault.message

/-! ### The contract -/

/-- A surface to draw on. Shapes are removed newest first. -/
class Surface (σ : Type) where
  /-- Makes a shape that has every attribute of the style -/
  create : Geometry → Style → EStateM SurfaceError σ Handle
  geometry : Handle → EStateM SurfaceError σ Geometry
  setGeometry : Handle → Geometry → EStateM SurfaceError σ Unit
  /-- The value of an attribute, `none` if it was never set -/
  style : Handle → StyleKey → EStateM SurfaceError σ (Option StyleValue)
  setStyle : Handle → StyleKey → StyleValue → EStateM SurfaceError σ Unit
  remove : Handle → EStateM SurfaceError σ Unit
  /-- Writes one number of a rectangle; a surface without such a call reads the rectangle and writes
  it back whole -/
  setField : Handle → RectField → Float → EStateM SurfaceError σ Unit := fun handle field value => do
    match ← geometry handle with
    | .rect r => setGeometry handle (.rect (r.set field value))
    | _ => throw (.invalidGeometry (.notARectangle handle))

end Redraw
