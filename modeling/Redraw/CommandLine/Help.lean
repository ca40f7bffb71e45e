import Redraw.CommandLine.Arguments

/-!
# Help pages

What the program tells about itself. A page says what a command is for and lists what can be written after
it: in the short form a line for each item, in the detailed form a paragraph.
-/

namespace Redraw.CommandLine

def programName : String := "sketchframe"

/-- The number of the release and what it was built from. -/
def version : String := "0.1.0 (unknown)"

/-! ### Pages -/

structure HelpItem where
  label : String
  about : String
  /-- The value that holds where none is given -/
  usual : Option String := none
  /-- The values that can be chosen and what each of them means -/
  choices : List (String × String) := []
  deriving DecidableEq, Repr

structure HelpSection where
  title : String
  items : List HelpItem
  deriving DecidableEq, Repr

structure HelpPage where
  about : String
  /-- What is added in the detailed form -/
  remark : Option String := none
  usage : String
  sections : List HelpSection
  deriving DecidableEq, Repr

inductive HelpForm where
  /-- All there is: the page has one form -/
  | whole
  | short
  | detailed
  deriving DecidableEq, Repr

/-! ### Layout -/

def indent (width : Nat) (text : String) : String :=
  String.ofList (List.replicate width ' ') ++ text

def padded (width : Nat) (text : String) : String :=
  text ++ String.ofList (List.replicate (width - text.length) ' ')

def widest (texts : List String) : Nat := texts.foldl (fun n text => max n text.length) 0

namespace HelpItem

def usualNote (item : HelpItem) : List String :=
  (item.usual.map fun value => "[default: " ++ value ++ "]").toList

def choicesNote (item : HelpItem) : List String :=
  if item.choices.isEmpty then []
  else ["[possible values: " ++ ", ".intercalate (item.choices.map (·.1)) ++ "]"]

def line (width : Nat) (item : HelpItem) : String :=
  indent 2 (padded width item.label) ++ "  " ++
    " ".intercalate (item.about :: (item.usualNote ++ item.choicesNote))

def choiceLines (item : HelpItem) : List String :=
  let width := widest (item.choices.map (·.1))
  item.choices.map fun choice => "- " ++ padded (width + 2) (choice.1 ++ ": ") ++ choice.2

def paragraph (item : HelpItem) : List String :=
  let choices := if item.choices.isEmpty then [] else
    "" :: ("Possible values:" :: item.choiceLines).map (indent 10)
  let usual := if item.usual.isNone then [] else ("" :: item.usualNote).map (indent 10)
  [indent 2 item.label, indent 10 item.about] ++ choices ++ usual

end HelpItem

def HelpSection.lines (form : HelpForm) (s : HelpSection) : List String :=
  let entries := match form with
    | .detailed => [""].intercalate (s.items.map HelpItem.paragraph)
    | _ => s.items.map (HelpItem.line (widest (s.items.map (·.label))))
  (s.title ++ ":") :: entries

def HelpPage.lines (form : HelpForm) (page : HelpPage) : List String :=
  let remark := match form, page.remark with
    | .detailed, some text => ["", text]
    | _, _ => []
  (page.about :: remark) ++ ["", "Usage: " ++ programName ++ " " ++ page.usage] ++
    page.sections.flatMap fun s => "" :: s.lines form

/-! ### What the pages say -/

def commandItem : HelpTopic → HelpItem
  | .program => ⟨programName, "Frame-incremental drawing for creative-coding sketches", none, []⟩
  | .run => ⟨"run", "Run a built-in sketch headless and print what reached the surface", none, []⟩
  | .merge =>
    ⟨"merge", "Merge rectangles read from a JSON file and print the outlines as JSON", none, []⟩
  | .help => ⟨"help", "Print this message or the help of the given subcommand(s)", none, []⟩

/-- The option that asks for the page itself, which names the other form if there is one. -/
def helpItem (form : HelpForm) : HelpItem where
  label := "-h, --help"
  about := match form with
    | .whole => "Print help"
    | .short => "Print help (see more with \x27--help\x27)"
    | .detailed => "Print help (see a summary with \x27-h\x27)"

def versionItem : HelpItem where
  label := "-V, --version"
  about := "Print version"

/-- An option of a run with the place for its value. -/
def ValueOption.item (option : ValueOption) : HelpItem where
  label := option.letter?.elim "    " (fun letter => "-" ++ letter.toString ++ ", ") ++ option.text ++
    " <" ++ option.valueName ++ ">"
  about := option.about
  usual := if option = .sketch then some SketchKind.bounce.name else none
  choices := if option = .sketch then SketchKind.all.map fun kind => (kind.name, kind.about) else []

def debugItem : HelpItem where
  label := "    --debug"
  about := "Log every frame\x27s draw duration at info level"

namespace HelpTopic

/-- The form of the page of a topic; some pages have one only. -/
def form (detailed : Bool) : HelpTopic → HelpForm
  | program => .whole
  | help => .whole
  | _ => if detailed then .detailed else .short

/-- The page of a topic; `form` is the form in which it is shown. -/
def page (form : HelpForm) (topic : HelpTopic) : HelpPage :=
  let about := (commandItem topic).about
  match topic with
  | program => {
      about := about
      usage := "<COMMAND>"
      sections := [⟨"Commands", [run, merge, help].map commandItem⟩,
        ⟨"Options", [helpItem form, versionItem]⟩] }
  | run => {
      about := about
      usage := "run [OPTIONS]"
      sections := [⟨"Options", ValueOption.all.map ValueOption.item ++ [debugItem, helpItem form]⟩] }
  | merge => {
      about := about
      remark := some "The file holds \x60[[[x1, y1], [x2, y2]], ...]\x60 with integer corners."
      usage := "merge <FILE>"
      sections := [⟨"Arguments", [⟨"<FILE>", "JSON file with the rectangles", none, []⟩]⟩,
        ⟨"Options", [helpItem form]⟩] }
  | help => {
      about := about
      usage := "help [COMMAND]..."
      sections := [⟨"Arguments", [⟨"[COMMAND]...", "Print help for the subcommand(s)", none, []⟩]⟩] }

/-- What is printed when help is asked for. -/
def lines (detailed : Bool) (topic : HelpTopic) : List String :=
  (topic.page (topic.form detailed)).lines (topic.form detailed)

end HelpTopic

def versionLine : String := programName ++ " " ++ version

end Redraw.CommandLine
