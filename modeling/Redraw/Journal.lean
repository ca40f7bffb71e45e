import Redraw.Geometry

/-!
# Journal

What the cache and the animation report of their work, as data. The text of an entry is made only when
it is shown.
-/

namespace Redraw

inductive Level where
  | debug
  | info
  deriving DecidableEq, Repr

def Level.text : Level → String
  | .debug => "DEBUG"
  | .info => "INFO"

inductive Event where
  /-- A request found no shape of its kind, and the rest of the previous frame is given up -/
  | cacheMiss (position : Nat) (wanted found : ShapeKind) (releasing : Nat)
  /-- A frame ended with shapes that no request had claimed -/
  | unclaimed (shapes : Nat)
  /-- An animation begins; the time between displayed frames is in nanoseconds -/
  | running (frames displayed interval : Nat)
  | frameShown (level : Level) (frame touched live : Nat)
  | finished (frames : Nat)
  deriving Repr

/-- Seconds as a double, of a time in nanoseconds: whole seconds and the rest are converted apart. -/
def secondsOfNanos (nanos : Nat) : Float :=
  Float.ofNat (nanos / 1000000000) + Float.ofNat (nanos % 1000000000) / 1000000000.0

namespace Event

def level : Event → Level
  | cacheMiss _ _ _ _ => .debug
  | unclaimed _ => .debug
  | running _ _ _ => .info
  | frameShown level _ _ _ => level
  | finished _ => .debug

def message : Event → String
  | cacheMiss position wanted found releasing =>
    "cache miss at position " ++ toString position ++ ": wanted " ++ wanted.text ++ ", found " ++
      found.text ++ "; releasing " ++ toString releasing ++ " shapes"
  | unclaimed shapes => "flush: removing " ++ toString shapes ++ " unclaimed shapes"
  | running frames displayed interval =>
    "Running " ++ toString frames ++ " frames (" ++ toString displayed ++ " displayed, " ++
      Number.oneDecimal (secondsOfNanos interval * 1000.0) ++ " ms apart)"
  | frameShown _ frame touched live =>
    "frame " ++ toString frame ++ ": " ++ toString touched ++ " touched, " ++ toString live ++ " live"
  | finished frames => "Animation finished after " ++ toString frames ++ " frames"

def text (e : Event) : String := e.level.text ++ " " ++ e.message

end Event

end Redraw
