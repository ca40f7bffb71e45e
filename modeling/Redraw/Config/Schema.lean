import Redraw.Config.Basic

/-!
# Schema of the settings

A JSON schema that describes the file of settings: every setting with its default, its form and what it
is for.
-/

namespace Redraw

namespace Schema

abbrev Property := String × Json

/-- Lines of a description; every line but the first is set off by a blank unless it is empty. -/
def lines : List String → String
  | [] => ""
  | first :: rest =>
    rest.foldl (fun text line => text ++ if line.isEmpty then "\n" else "\n " ++ line) first

def described (description : List String) : Property := ("description", .text (lines description))

/-- A whole number that fits into some bits without a sign. -/
def whole (bits : Nat) : List Property :=
  [("format", .text ("uint" ++ toString bits)), ("minimum", .nat 0), ("type", .text "integer")]

def number (default : Nat) (description : List String) : Json :=
  .object (("default", .nat default) :: described description :: whole 32)

def switch (default : Bool) (description : List String) : Json :=
  .object [("default", .bool default), described description, ("type", .text "boolean")]

/-- A setting whose schema stands among the definitions. -/
def reference (name : String) (default : Json) (description : List String) : Json :=
  .object [("$ref", .text ("#/$defs/" ++ name)), ("default", default), described description]

def record (description : List String) (properties : List Property) : List Property :=
  [described description, ("properties", .object properties), ("type", .text "object")]

end Schema

open Schema

/-! ### The sections -/

def CanvasConfig.toJson (c : CanvasConfig) : Json :=
  .object [("width", .nat c.width), ("height", .nat c.height), ("background", c.background.toJson)]

def AnimationConfig.toJson (c : AnimationConfig) : Json :=
  .object [("frames", .nat c.frames), ("framerate", .nat c.framerate),
    ("skip_frames", .nat c.skipFrames), ("debug", .bool c.debug), ("realtime", .bool c.realtime)]

def BatchingConfig.toJson (c : BatchingConfig) : Json :=
  .object [("enabled", .bool c.enabled), ("grid_subdivisions", .nat c.gridSubdivisions)]

def CanvasConfig.schema (usual : CanvasConfig) : Json :=
  .object (record
    ["Canvas settings.",
      "",
      "Sketches see these dimensions through the drawing context; the background",
      "color is what the built-in sketches clear each frame with."]
    [("width", number usual.width ["Canvas width in surface units (valid range: 1 - 10000)"]),
      ("height", number usual.height ["Canvas height in surface units (valid range: 1 - 10000)"]),
      ("background", reference "ColorSpec" usual.background.toJson
        ["Background color - either a named color (red, green, blue, yellow, orange, pink, white, black)",
          "or an RGB array like `[255, 0, 0]` for red"])])

def AnimationConfig.schema (usual : AnimationConfig) : Json :=
  .object (record
    ["Frame driver settings."]
    [("frames", number usual.frames
        ["Total frames the sketch is advanced, skipped frames included"]),
      ("framerate", number usual.framerate ["Target frames per second (valid range: 1 - 240)"]),
      ("skip_frames", number usual.skipFrames
        ["Frames advanced without drawing between two displayed frames"]),
      ("debug", switch usual.debug ["Log every frame's draw duration at info level"]),
      ("realtime", switch usual.realtime
        ["Sleep between frames to hold the target frame rate",
          "Off by default so headless runs finish as fast as possible"])])

def BatchingConfig.schema (usual : BatchingConfig) : Json :=
  .object (record
    ["Rectangle batching settings.",
      "",
      "Consecutive outline-free rectangles with the same style are merged into as",
      "few shapes as possible before they reach the surface."]
    [("enabled", switch usual.enabled ["Merge runs of outline-free rectangles"]),
      ("grid_subdivisions", number usual.gridSubdivisions
        ["Grid subdivisions per unit that rectangle coordinates are snapped to before",
          "merging (valid range: 1 - 1000000). Use 1 for whole-unit sketches."])])

def ColorSpec.schema : Json :=
  .object [
    ("anyOf", .array [
      .object [described ["Named color: red, green, blue, yellow, orange, pink, white, black"],
        ("type", .text "string")],
      .object [described ["RGB color as [red, green, blue] where each component is 0-255"],
        ("items", .object (("maximum", .nat 255) :: whole 8)),
        ("maxItems", .nat 3), ("minItems", .nat 3), ("type", .text "array")]]),
    described
      ["Color specification - either a named color or RGB values.",
        "",
        "# Examples",
        "```toml",
        "# Named color",
        "background = \"black\"",
        "",
        "# Custom RGB color (0-255 per component)",
        "background = [255, 128, 0]  # Orange",
        "```"]]

namespace Config

/-- What the file of settings as a whole is for. -/
def description : List String :=
  ["Main configuration structure containing all user settings.",
    "",
    "This is the root configuration type that gets deserialized from the TOML file.",
    "All fields have sensible defaults and will use those if not specified in the config file.",
    "",
    "# Example TOML",
    "```toml",
    "[canvas]",
    "width = 800",
    "height = 600",
    "background = [30, 30, 30]",
    "",
    "[animation]",
    "frames = 300",
    "framerate = 30",
    "skip_frames = 1",
    "",
    "[batching]",
    "enabled = true",
    "grid_subdivisions = 10",
    "```"]

def schema : Json :=
  let usual : Config := {}
  .object (
    [("$schema", .text "https://json-schema.org/draft/2020-12/schema"), ("title", .text "Config")] ++
    record description
      [("canvas", reference "CanvasConfig" usual.canvas.toJson ["Canvas size and background"]),
        ("animation", reference "AnimationConfig" usual.animation.toJson
          ["Frame count, rate and skipping"]),
        ("batching", reference "BatchingConfig" usual.batching.toJson ["Rectangle batching"])] ++
    [("$defs", .object
      [("AnimationConfig", usual.animation.schema), ("BatchingConfig", usual.batching.schema),
        ("CanvasConfig", usual.canvas.schema), ("ColorSpec", ColorSpec.schema)])])

end Config

end Redraw
