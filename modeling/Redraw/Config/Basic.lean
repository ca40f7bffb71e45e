import Redraw.Animation
import Redraw.Config.ColorSpec

/-!
# Settings

The settings of the canvas, of the animation and of batching, with their defaults, the ranges that they
are brought into, and the settings that a caller may override.
-/

namespace Redraw

/-! ### The three sections -/

structure CanvasConfig where
  width : Nat := 500
  height : Nat := 500
  background : ColorSpec := .name "white"
  deriving DecidableEq, Repr

structure AnimationConfig where
  frames : Nat := 100
  framerate : Nat := 60
  skipFrames : Nat := 0
  debug : Bool := false
  realtime : Bool := false
  deriving DecidableEq, Repr

structure BatchingConfig where
  enabled : Bool := true
  gridSubdivisions : Nat := 1
  deriving DecidableEq, Repr

structure Config where
  canvas : CanvasConfig := {}
  animation : AnimationConfig := {}
  batching : BatchingConfig := {}
  deriving DecidableEq, Repr

/-- The animation that the settings describe; it has at least one frame per second. -/
def AnimationConfig.toAnimation (c : AnimationConfig) : Animation :=
  ⟨c.frames, max c.framerate 1, c.skipFrames, c.debug⟩

def BatchingConfig.grid (c : BatchingConfig) : Option Nat :=
  if c.enabled then some c.gridSubdivisions else none

/-! ### Ranges -/

inductive RangedSetting where
  | canvasWidth
  | canvasHeight
  | framerate
  | skipFrames
  | gridSubdivisions
  deriving DecidableEq, Repr

namespace RangedSetting

def all : List RangedSetting :=
  [canvasWidth, canvasHeight, framerate, skipFrames, gridSubdivisions]

theorem mem_all (setting : RangedSetting) : setting ∈ all := by
  cases setting <;> decide

def name : RangedSetting → String
  | canvasWidth => "canvas width"
  | canvasHeight => "canvas height"
  | framerate => "framerate"
  | skipFrames => "skip_frames"
  | gridSubdivisions => "grid_subdivisions"

def least : RangedSetting → Nat
  | skipFrames => 0
  | _ => 1

def greatest : RangedSetting → Nat
  | canvasWidth => 10000
  | canvasHeight => 10000
  | framerate => 240
  | skipFrames => 10000
  | gridSubdivisions => 1000000

theorem least_le_greatest (setting : RangedSetting) : setting.least ≤ setting.greatest := by
  cases setting <;> decide

def inRange (setting : RangedSetting) (value : Nat) : Bool :=
  decide (setting.least ≤ value) && decide (value ≤ setting.greatest)

/-- The value of the range that is nearest to a value. -/
def clamp (setting : RangedSetting) (value : Nat) : Nat :=
  max setting.least (min setting.greatest value)

theorem inRange_iff (setting : RangedSetting) (value : Nat) :
    setting.inRange value = true ↔ setting.least ≤ value ∧ value ≤ setting.greatest := by
  simp [inRange]

theorem clamp_eq_self {setting : RangedSetting} {value : Nat} (h : setting.inRange value = true) :
    setting.clamp value = value := by
  rw [inRange_iff] at h
  simp only [clamp]
  omega

theorem inRange_clamp (setting : RangedSetting) (value : Nat) :
    setting.inRange (setting.clamp value) = true := by
  have h := setting.least_le_greatest
  rw [inRange_iff]
  simp only [clamp]
  omega

end RangedSetting

/-- What is worth telling about settings. -/
inductive ConfigWarning where
  | outOfRange (setting : RangedSetting) (value : Nat)
  | noFrames
  | unknownColor (name : String)
  deriving DecidableEq, Repr

def ConfigWarning.message : ConfigWarning → String
  | .outOfRange setting value =>
    "Invalid " ++ setting.name ++ " " ++ toString value ++ ", clamping to " ++
      toString setting.least ++ "-" ++ toString setting.greatest ++ " range"
  | .noFrames => "animation.frames is 0, nothing will be drawn"
  | .unknownColor name => "Unknown color \x27" ++ name ++ "\x27, using white"

def ColorSpec.warnings (spec : ColorSpec) : List ConfigWarning :=
  match spec with
  | .name text => if spec.color?.isSome then [] else [.unknownColor text]
  | .rgb _ _ _ => []

namespace Config

def get (c : Config) : RangedSetting → Nat
  | .canvasWidth => c.canvas.width
  | .canvasHeight => c.canvas.height
  | .framerate => c.animation.framerate
  | .skipFrames => c.animation.skipFrames
  | .gridSubdivisions => c.batching.gridSubdivisions

/-- Every setting with a range is brought into it. -/
def clamped (c : Config) : Config where
  canvas := { c.canvas with
    width := RangedSetting.canvasWidth.clamp c.canvas.width
    height := RangedSetting.canvasHeight.clamp c.canvas.height }
  animation := { c.animation with
    framerate := RangedSetting.framerate.clamp c.animation.framerate
    skipFrames := RangedSetting.skipFrames.clamp c.animation.skipFrames }
  batching := { c.batching with
    gridSubdivisions := RangedSetting.gridSubdivisions.clamp c.batching.gridSubdivisions }

def rangeWarnings (c : Config) : List ConfigWarning :=
  (RangedSetting.all.filter fun setting => !setting.inRange (c.get setting)).map fun setting =>
    .outOfRange setting (c.get setting)

/-- All that is worth telling when the settings are checked. -/
def warnings (c : Config) : List ConfigWarning :=
  c.rangeWarnings ++ if c.animation.frames = 0 then [.noFrames] else []

theorem get_clamped (c : Config) (setting : RangedSetting) :
    c.clamped.get setting = setting.clamp (c.get setting) := by
  cases setting <;> rfl

end Config

/-! ### Overrides -/

structure Overrides where
  frames : Option Nat := none
  skipFrames : Option Nat := none
  debug : Bool := false
  deriving DecidableEq, Repr

namespace Config

/-- Puts the overrides in place; debugging is only ever turned on. -/
def override (c : Config) (o : Overrides) : Config :=
  { c with animation := { c.animation with
      frames := o.frames.getD c.animation.frames
      skipFrames := o.skipFrames.getD c.animation.skipFrames
      debug := c.animation.debug || o.debug } }

/-- Puts the overrides in place and checks the settings again. -/
def applyOverrides (c : Config) (o : Overrides) : Config × List ConfigWarning :=
  ((c.override o).clamped, (c.override o).warnings)

end Config

end Redraw
