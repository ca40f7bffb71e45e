import Redraw.Sketch.Basic

/-!
# Animations

Runs a sketch for a fixed number of frames and removes everything it drew. Before every displayed frame
but the first, some frames are drawn on a muted context, so that the sketch's own state goes on.
-/

namespace Redraw

/-- The greatest number of a 32-bit setting. -/
def maxSetting : Nat := 4294967295

structure Animation where
  frames : Nat
  /-- Frames per second, at least one -/
  framerate : Nat
  /-- Frames that are not shown between two that are -/
  skipFrames : Nat
  debug : Bool
  deriving DecidableEq, Repr

inductive RunStage where
  | setup
  | skippedFrame (number : Nat)
  | frame (number : Nat)
  | teardown
  deriving DecidableEq, Repr

def RunStage.message : RunStage → String
  | .setup => "Sketch setup failed"
  | .skippedFrame number => "Sketch failed on skipped frame " ++ toString number
  | .frame number => "Sketch failed on frame " ++ toString number
  | .teardown => "Failed to tear down the canvas"

/-- Why a run failed; opening and closing a frame have no stage of their own. -/
structure RunError where
  stage : Option RunStage
  cause : SketchError
  deriving Repr

def RunError.message (e : RunError) : String :=
  match e.stage with
  | some stage => stage.message ++ ": " ++ e.cause.message
  | none => e.cause.message

structure FrameReport where
  frame : Nat
  touched : Nat
  live : Nat
  deriving DecidableEq, Repr

namespace Animation

/-- How many frames are shown. The length of a cycle stops at the greatest setting. -/
def displayedFrames (a : Animation) : Nat := a.frames / min (a.skipFrames + 1) maxSetting

/-- The time from one displayed frame to the next in seconds. -/
def intervalSeconds (a : Animation) : Float :=
  1.0 / (Float.ofNat a.framerate / (Float.ofNat a.skipFrames + 1.0))

/-- A time in whole nanoseconds; an exact half goes to the even one. -/
def nanosOfSeconds (seconds : Float) : Nat :=
  match Number.Binary64.ofFloat seconds with
  | .finite false significand exponent =>
    Number.Binary64.roundScaled .even 1000000000 significand exponent
  | _ => 0

/-- The time from one displayed frame to the next in nanoseconds. -/
def interval (a : Animation) : Nat := nanosOfSeconds a.intervalSeconds

section Run

variable {τ σ : Type} [Surface σ]

abbrev RunM (τ σ : Type) := EStateM RunError (Scene τ σ)

/-- A step of the sketch during a stage of the run. -/
def during {α : Type} (stage : Option RunStage) (step : SceneM τ σ α) : RunM τ σ α := fun s =>
  match step s with
  | .ok a s => .ok a s
  | .error e s => .error ⟨stage, e⟩ s

def note (event : Event) : RunM τ σ Unit := modify fun s =>
  { s with context := { s.context with
      cache := { s.context.cache with journal := event :: s.context.cache.journal } } }

def drawSkipped (sketch : Sketch τ σ) (frame : Nat) : Nat → RunM τ σ Unit
  | 0 => pure ()
  | count + 1 => do
    during (some (.skippedFrame frame)) (sketch.draw frame)
    drawSkipped sketch (frame + 1) count

/-- Draws on a muted context; however it ends, the context is heard again. -/
def muted (step : RunM τ σ Unit) : RunM τ σ Unit := fun s =>
  match step { s with context := s.context.setMuted true } with
  | .ok a s => .ok a { s with context := s.context.setMuted false }
  | .error e s => .error e { s with context := s.context.setMuted false }

def showFrame (a : Animation) (sketch : Sketch τ σ) (frame : Nat) : RunM τ σ FrameReport := do
  during none (SceneM.onContext Context.beginFrame)
  during (some (.frame frame)) (sketch.draw frame)
  during none (SceneM.onContext Context.endFrame)
  let cache := (← get).context.cache
  let report : FrameReport := ⟨frame, cache.touched.size, cache.active.size⟩
  note (.frameShown (if a.debug then .info else .debug) frame report.touched report.live)
  return report

/-- Shows the frames that are left, each after its skipped ones; `frame` is the next frame to draw. -/
def showFrames (a : Animation) (sketch : Sketch τ σ) :
    (left frame : Nat) → Array FrameReport → RunM τ σ (Nat × Array FrameReport)
  | 0, frame, reports => pure (frame, reports)
  | left + 1, frame, reports => do
    let skipped := if frame = 0 then 0 else a.skipFrames
    if 0 < skipped then muted (drawSkipped sketch frame skipped)
    let report ← showFrame a sketch (frame + skipped)
    showFrames a sketch left (frame + skipped + 1) (reports.push report)

def runFrames (a : Animation) (sketch : Sketch τ σ) : RunM τ σ (List FrameReport) := do
  during (some .setup) sketch.setup
  note (.running a.frames a.displayedFrames a.interval)
  let (frame, reports) ← showFrames a sketch a.displayedFrames 0 #[]
  note (.finished frame)
  return reports.toList

/-- Runs the sketch and clears the surface, whether it succeeds or not. The first failure counts. -/
def run (a : Animation) (sketch : Sketch τ σ) : RunM τ σ (List FrameReport) := fun s =>
  let cleanUp : RunM τ σ Unit := during (some .teardown) (SceneM.onContext Context.teardown)
  match runFrames a sketch s with
  | .ok reports s =>
    match cleanUp s with
    | .ok _ s => .ok reports s
    | .error e s => .error e s
  | .error e s =>
    match cleanUp s with
    | .ok _ s => .error e s
    | .error _ s => .error e s

end Run

end Animation

end Redraw
