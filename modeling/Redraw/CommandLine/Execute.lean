import Redraw.CommandLine.Help
import Redraw.Config.Reading
import Redraw.Outline.Text
import Redraw.Surface.Recorder

/-!
# Carrying out requests

What the program answers to its arguments. Files are looked at through a function, so nothing here
depends on where they come from.
-/

namespace Redraw.CommandLine

inductive Outcome where
  | misused (error : UsageError)
  | failed (message : String)
  | printed (lines : List String)
  deriving Repr

def Outcome.exitCode : Outcome → Nat
  | misused _ => 2
  | failed _ => 1
  | printed _ => 0

/-- The part of a run's failure that is told first. -/
def headline (e : RunError) : String := e.stage.elim e.cause.message RunStage.message

/-- What is told of a run: how many frames were shown and what that cost the surface. -/
def summary (kind : SketchKind) (reports : List FrameReport) (stats : Stats) : List String :=
  ["sketch: " ++ kind.name,
    "frames displayed: " ++ toString reports.length,
    "shapes touched: " ++ toString (reports.foldl (fun n report => n + report.touched) 0),
    "shapes created: " ++ toString stats.created,
    "geometry writes: " ++ toString stats.geometryWrites,
    "style writes: " ++ toString stats.styleWrites,
    "shapes removed: " ++ toString stats.removed]

def runSketch (kind : SketchKind) (config : Config) : Outcome :=
  let canvas := config.canvas
  let context : Context Recorder :=
    (Context.onCanvas Recorder.empty (Float.ofNat canvas.width) (Float.ofNat canvas.height)).setBatching
      config.batching.grid
  let animation := config.animation.toAnimation
  match animation.run (kind.sketch canvas.background.color) ⟨kind.start, context⟩ with
  | .ok reports scene => .printed (summary kind reports scene.context.cache.surface.stats)
  | .error e _ => .failed (headline e)

def runWith (request : RunRequest) (path : String)
    (loaded : Except LoadError (Config × List ConfigWarning)) : Outcome :=
  match loaded with
  | .error e => .failed (e.message ++ " from " ++ path)
  | .ok (config, _) =>
    runSketch (request.sketch.getD .bounce) (config.applyOverrides request.overrides).1

def mergeFile (path : String) (file : FileContent) : Outcome :=
  match file.text? with
  | none => .failed ("Failed to read rectangles from " ++ path)
  | some text =>
    match Outline.cornersOfText? text with
    | none => .failed ("Failed to parse rectangles from " ++ path)
    | some rectangles => .printed [Outline.textOf (Outline.outlines rectangles)]

/-- Does what the arguments ask for. `read` looks at a file; `usual` is the path of the settings that
hold when no other file is named. -/
def execute {m : Type → Type} [Monad m] (read : String → m FileContent) (usual : Option String)
    (arguments : List String) : m Outcome :=
  match Request.ofArguments arguments with
  | .error e => pure (.misused e)
  | .ok (.help topic detailed) => pure (.printed (topic.lines detailed))
  | .ok .version => pure (.printed [versionLine])
  | .ok (.merge file) => mergeFile file <$> read file
  | .ok (.run request) =>
    match request.config, usual with
    | some path, _ => (fun file => runWith request path (Config.load file)) <$> read path
    | none, some path => (fun file => runWith request path (Config.loadUsual file)) <$> read path
    | none, none => pure (.failed "Could not find config directory")

end Redraw.CommandLine
