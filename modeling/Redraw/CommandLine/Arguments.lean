import Redraw.Config.Basic
import Redraw.Sketch.Kind

/-!
# Command line arguments

What a user can ask for: to run a sketch, to merge rectangles, or to be told how. Arguments are read
from the left, and the first that is wrong decides; a request for help before it is granted.
-/

namespace Redraw.CommandLine

structure RunRequest where
  sketch : Option SketchKind := none
  frames : Option Nat := none
  skipFrames : Option Nat := none
  /-- The file of settings to use in place of the usual one -/
  config : Option String := none
  debug : Bool := false
  deriving DecidableEq, Repr

inductive HelpTopic where
  | program
  | run
  | merge
  | help
  deriving DecidableEq, Repr

def HelpTopic.named? : String → Option HelpTopic
  | "run" => some run
  | "merge" => some merge
  | "help" => some help
  | _ => none

inductive Request where
  | run (request : RunRequest)
  /-- Merge the rectangles of a file -/
  | merge (file : String)
  | help (topic : HelpTopic) (detailed : Bool)
  | version
  deriving DecidableEq, Repr

/-- Why arguments make no request. -/
inductive UsageError where
  | noCommand
  | unknownCommand (text : String)
  | unexpected (argument : String)
  | repeated (option : String)
  | missingValue (option : String)
  | invalidValue (option value : String)
  | missingFile
  deriving DecidableEq, Repr

def UsageError.message : UsageError → String
  | .noCommand => "a command is needed: run, merge or help"
  | .unknownCommand text => "unknown command \x27" ++ text ++ "\x27"
  | .unexpected argument => "unexpected argument \x27" ++ argument ++ "\x27"
  | .repeated option => "option " ++ option ++ " is given twice"
  | .missingValue option => "option " ++ option ++ " needs a value"
  | .invalidValue option value => "option " ++ option ++ " cannot be \x27" ++ value ++ "\x27"
  | .missingFile => "a file is needed"

/-! ### Arguments apart -/

/-- The form of one argument. -/
inductive Argument where
  /-- Two dashes: whatever comes after is no option -/
  | separator
  /-- An option by its name, with the value after an equals sign -/
  | long (name : String) (value : Option String)
  /-- An option by one letter, with the characters that follow it -/
  | short (letter : Char) (attached : List Char)
  | plain
  deriving DecidableEq, Repr

namespace Argument

def ofText (text : String) : Argument :=
  match text.toList with
  | ['-', '-'] => separator
  | '-' :: '-' :: rest =>
    let (name, tail) := rest.span fun c => c != '='
    long (String.ofList name) (tail.tail?.map String.ofList)
  | '-' :: letter :: rest => short letter rest
  | _ => plain

def attachedValue? : List Char → Option String
  | [] => none
  | '=' :: rest => some (String.ofList rest)
  | rest => some (String.ofList rest)

/-- The argument asks for help; the full name of the option asks for all details. -/
def helpAsked? (topic : HelpTopic) : Argument → Option Request
  | long "help" none => some (.help topic true)
  | short 'h' _ => some (.help topic false)
  | _ => none

def asksForVersion : Argument → Bool
  | long "version" none => true
  | short 'V' _ => true
  | _ => false

end Argument

/-! ### Options of a run -/

/-- An option that takes a value. -/
inductive ValueOption where
  | sketch
  | frames
  | skipFrames
  | config
  deriving DecidableEq, Repr

namespace ValueOption

def all : List ValueOption := [sketch, frames, skipFrames, config]

def name : ValueOption → String
  | sketch => "sketch"
  | frames => "frames"
  | skipFrames => "skip-frames"
  | config => "config"

def letter? : ValueOption → Option Char
  | sketch => some 's'
  | frames => some 'f'
  | skipFrames => none
  | config => some 'c'

def text (option : ValueOption) : String := "--" ++ option.name

def valueName : ValueOption → String
  | sketch => "SKETCH"
  | frames => "N"
  | skipFrames => "N"
  | config => "PATH"

def about : ValueOption → String
  | sketch => "Sketch to run"
  | frames => "Total frames to advance (overrides the config file)"
  | skipFrames => "Frames skipped between displayed ones (overrides the config file)"
  | config => "Read settings from this file instead of the default location"

def named? (name : String) : Option ValueOption := all.find? (·.name == name)

def lettered? (letter : Char) : Option ValueOption := all.find? (·.letter? == some letter)

end ValueOption

/-- A setting of 32 bits in decimal digits. A sign may stand in front, but nothing is below zero. -/
def setting? (text : String) : Option Nat :=
  let (negative, digits) := match text.toList with
    | '-' :: rest => (true, rest)
    | '+' :: rest => (false, rest)
    | cs => (false, cs)
  if digits.isEmpty || !digits.all Char.isDigit then none
  else
    let n := digits.foldl (fun n c => 10 * n + (c.toNat - 48)) 0
    if maxSetting < n || (negative && 0 < n) then none else some n

namespace RunRequest

def has (r : RunRequest) : ValueOption → Bool
  | .sketch => r.sketch.isSome
  | .frames => r.frames.isSome
  | .skipFrames => r.skipFrames.isSome
  | .config => r.config.isSome

def set? (r : RunRequest) (value : String) : ValueOption → Option RunRequest
  | .sketch => (SketchKind.named? value).map fun kind => { r with sketch := some kind }
  | .frames => (setting? value).map fun n => { r with frames := some n }
  | .skipFrames => (setting? value).map fun n => { r with skipFrames := some n }
  | .config => if value.isEmpty then none else some { r with config := some value }

def give (r : RunRequest) (option : ValueOption) (value : String) : Except UsageError RunRequest :=
  if r.has option then .error (.repeated option.text)
  else (r.set? value option).elim (.error (.invalidValue option.text value)) .ok

def giveDebug (r : RunRequest) : Except UsageError RunRequest :=
  if r.debug then .error (.repeated "--debug") else .ok { r with debug := true }

def overrides (r : RunRequest) : Overrides := ⟨r.frames, r.skipFrames, r.debug⟩

/-- Reads the arguments of a run; `waiting` is the option whose value comes next. -/
def ofArguments (r : RunRequest) (waiting : Option ValueOption) :
    List String → Except UsageError Request
  | [] =>
    match waiting with
    | some option => .error (.missingValue option.text)
    | none => .ok (.run r)
  | text :: rest =>
    let argument := Argument.ofText text
    match waiting with
    | some option =>
      if argument = .plain then do ofArguments (← r.give option text) none rest
      else .error (.missingValue option.text)
    | none =>
      match argument.helpAsked? .run, argument with
      | some request, _ => .ok request
      | none, .separator =>
        match rest with
        | [] => .ok (.run r)
        | next :: _ => .error (.unexpected next)
      | none, .long "debug" none => do ofArguments (← r.giveDebug) none rest
      | none, .long name value =>
        match ValueOption.named? name, value with
        | none, _ => .error (.unexpected text)
        | some option, some value => do ofArguments (← r.give option value) none rest
        | some option, none => ofArguments r (some option) rest
      | none, .short letter attached =>
        match ValueOption.lettered? letter, Argument.attachedValue? attached with
        | none, _ => .error (.unexpected text)
        | some option, some value => do ofArguments (← r.give option value) none rest
        | some option, none => ofArguments r (some option) rest
      | none, .plain => .error (.unexpected text)

end RunRequest

/-! ### Requests -/

def giveFile (file : Option String) (text : String) : Except UsageError String :=
  match file with
  | some _ => .error (.unexpected text)
  | none => if text.isEmpty then .error (.invalidValue "FILE" text) else .ok text

/-- Reads the arguments of a merge; `options` says that options may still come. -/
def mergeRequest (options : Bool) (file : Option String) : List String → Except UsageError Request
  | [] => file.elim (.error .missingFile) fun file => .ok (.merge file)
  | text :: rest =>
    let argument := Argument.ofText text
    if !options || argument = .plain then do
      mergeRequest options (some (← giveFile file text)) rest
    else match argument.helpAsked? .merge with
      | some request => .ok request
      | none =>
        if argument = .separator then mergeRequest false file rest
        else .error (.unexpected text)

/-- Help may be asked for one command by its name. -/
def helpRequest : List String → Except UsageError Request
  | [] => .ok (.help .program true)
  | command :: rest =>
    match HelpTopic.named? command, rest with
    | none, _ => .error (.unknownCommand command)
    | some topic, [] => .ok (.help topic true)
    | some _, next :: _ => .error (.unknownCommand next)

def Request.ofArguments : List String → Except UsageError Request
  | [] => .error .noCommand
  | "run" :: rest => RunRequest.ofArguments {} none rest
  | "merge" :: rest => mergeRequest true none rest
  | "help" :: rest => helpRequest rest
  | text :: _ =>
    let argument := Argument.ofText text
    match argument.helpAsked? .program with
    | some request => .ok request
    | none =>
      if argument.asksForVersion then .ok .version
      else if argument = .plain then .error (.unknownCommand text)
      else .error (.unexpected text)

end Redraw.CommandLine
