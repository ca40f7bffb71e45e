import Redraw.Config.Basic
import Redraw.Toml.Document

/-!
# Settings from a file

Settings are read from a TOML document with one table per section. A section may also be an array of its
settings in their order. What is missing keeps its default, and what is unknown is passed over.
-/

namespace Redraw

namespace Settings

abbrev Lookup := String → Option Toml.Value

/-- Given by name: numbers that cannot be represented are refused even where they are passed over. -/
def named? (names : List String) (entries : Toml.Entries) : Option Lookup :=
  if (entries.filter fun entry => !names.contains entry.1).all fun entry => entry.2.isRepresentable then
    some fun name => entries.lookup name
  else none

/-- The settings that a section gives. A date counts as a table without settings. -/
def given? (names : List String) : Toml.Value → Option Lookup
  | .table _ entries => named? names entries
  | .array _ items => some fun name => (names.zip items).lookup name
  | .datetime _ => some fun _ => none
  | _ => none

/-- Reads a setting that is given, and takes the default for one that is not. -/
def read? {α : Type} (decode : Toml.Value → Option α) (default : α) (given : Lookup) (name : String) :
    Option α :=
  match given name with
  | some v => decode v
  | none => some default

def nat? : Toml.Value → Option Nat
  | .integer n => if 0 ≤ n ∧ n ≤ maxSetting then some n.toNat else none
  | _ => none

def bool? : Toml.Value → Option Bool
  | .bool b => some b
  | _ => none

def integer? : Toml.Value → Option Int
  | .integer n => some n
  | _ => none

def color? : Toml.Value → Option ColorSpec
  | .text s => some (.name s)
  | .array _ items => do ColorSpec.ofComponents? (← items.mapM integer?)
  | _ => none

end Settings

open Settings

def CanvasConfig.ofToml? (v : Toml.Value) : Option CanvasConfig := do
  let usual : CanvasConfig := {}
  let given ← given? ["width", "height", "background"] v
  return {
    width := ← read? nat? usual.width given "width"
    height := ← read? nat? usual.height given "height"
    background := ← read? color? usual.background given "background" }

def AnimationConfig.ofToml? (v : Toml.Value) : Option AnimationConfig := do
  let usual : AnimationConfig := {}
  let given ← given? ["frames", "framerate", "skip_frames", "debug", "realtime"] v
  return {
    frames := ← read? nat? usual.frames given "frames"
    framerate := ← read? nat? usual.framerate given "framerate"
    skipFrames := ← read? nat? usual.skipFrames given "skip_frames"
    debug := ← read? bool? usual.debug given "debug"
    realtime := ← read? bool? usual.realtime given "realtime" }

def BatchingConfig.ofToml? (v : Toml.Value) : Option BatchingConfig := do
  let usual : BatchingConfig := {}
  let given ← given? ["enabled", "grid_subdivisions"] v
  return {
    enabled := ← read? bool? usual.enabled given "enabled"
    gridSubdivisions := ← read? nat? usual.gridSubdivisions given "grid_subdivisions" }

namespace Config

/-- The settings that a document gives, as they are written. -/
def ofToml? (entries : Toml.Entries) : Option Config := do
  let usual : Config := {}
  let given ← named? ["canvas", "animation", "batching"] entries
  return {
    canvas := ← read? CanvasConfig.ofToml? usual.canvas given "canvas"
    animation := ← read? AnimationConfig.ofToml? usual.animation given "animation"
    batching := ← read? BatchingConfig.ofToml? usual.batching given "batching" }

def parse? (document : String) : Option Config := do ofToml? (← Toml.parse? document)

end Config

/-! ### Files -/

inductive FileContent where
  | absent
  /-- Something that is no file to read -/
  | unreadable
  | bytes (content : ByteArray)

def FileContent.text? : FileContent → Option String
  | .bytes content => String.fromUTF8? content
  | _ => none

inductive LoadError where
  | unreadable
  | malformed
  deriving DecidableEq, Repr

def LoadError.message : LoadError → String
  | .unreadable => "Failed to read config"
  | .malformed => "Failed to parse config"

namespace Config

/-- Settings from a file that has been asked for, checked, with the warnings of the check. -/
def load (file : FileContent) : Except LoadError (Config × List ConfigWarning) :=
  match file.text? with
  | none => .error .unreadable
  | some document =>
    match parse? document with
    | none => .error .malformed
    | some c => .ok (c.clamped, c.warnings)

/-- Settings from the usual file. Where there is none, the defaults hold. -/
def loadUsual (file : FileContent) : Except LoadError (Config × List ConfigWarning) :=
  match file with
  | .absent => .ok ({}, [])
  | file => load file

end Config

end Redraw
