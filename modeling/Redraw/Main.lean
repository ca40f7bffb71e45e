import Redraw.CommandLine.Execute

/-!
# The program

Looks at files and prints what comes out; everything else is decided elsewhere.
-/

namespace Redraw.CommandLine

def readFile (path : String) : IO FileContent := do
  try
    return .bytes (← IO.FS.readBinFile path)
  catch
    | .noFileOrDirectory .. => return .absent
    | _ => return .unreadable

def usualConfig : IO (Option String) := do
  let place := "/sketchframe/config.toml"
  match ← IO.getEnv "XDG_CONFIG_HOME" with
  | some folder => if folder.startsWith "/" then return some (folder ++ place)
  | none => pure ()
  return (← IO.getEnv "HOME").map fun home => home ++ "/.config" ++ place

def printLines (lines : List String) : IO Unit := lines.forM IO.println

def report : Outcome → IO Unit
  | .misused e => do
    IO.eprintln ("error: " ++ e.message)
    (HelpTopic.program.lines false).forM IO.eprintln
  | .failed message => IO.eprintln ("Error: " ++ message)
  | .printed lines => printLines lines

end Redraw.CommandLine

def main (arguments : List String) : IO UInt32 := do
  let usual ← Redraw.CommandLine.usualConfig
  let outcome ← Redraw.CommandLine.execute Redraw.CommandLine.readFile usual arguments
  Redraw.CommandLine.report outcome
  return outcome.exitCode.toUInt32
