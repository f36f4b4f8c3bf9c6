import ScriptEngine.Engine
import ScriptEngine.Shell.Command
import ScriptEngine.Shell.Entry
import ScriptEngine.Shell.Files
import ScriptEngine.Shell.ValueText

/-!
# The console

A console is an engine together with what has been written to the two output
channels.  It evaluates entries and carries out commands; whatever a script
prints appears in the output, failures appear in the errors.
-/

namespace ScriptEngine.Shell

open Text (bold dimmed padRight paint)

/-- The version of the program. -/
def version : String := "0.1.0"

/-- An engine with the text written so far. -/
structure Console where
  engine : Engine
  /-- Where files are read. -/
  files : FileSource
  /-- Where imported modules are looked for. -/
  directory : Path
  output : String := ""
  errors : String := ""
  /-- Paths of the files that were asked for. -/
  consulted : List String := []

namespace Console

/-- Writes a line. -/
def printLine (console : Console) (line : String) : Console :=
  { console with output := console.output ++ line ++ "\n" }

/-- Writes lines. -/
def printLines (console : Console) (lines : List String) : Console :=
  lines.foldl printLine console

/-- Writes a line to the errors under a label. -/
def complain (console : Console) (label message : String) : Console :=
  { console with
    errors := console.errors ++ bold (paint .red label) ++ ": " ++ message ++ "\n" }

/-- The label of an error that is not reported by the engine. -/
def errorLabel : String := "Error"

/-- The label of a report. -/
def reportLabel : ReportKind → String
  | .compile => "Compile error"
  | .runtime => "Runtime error"
  | .other => errorLabel

/-- Writes a report to the errors. -/
def printReport (console : Console) (report : Report) : Console :=
  console.complain (reportLabel report.kind) report.message

/-- Lets an engine read files; modules are looked for in a directory. -/
def attachFiles (engine : Engine) (files : FileSource) (directory : Path) : Engine :=
  let load (name : String) : Option String :=
    (files (modulePath directory name).toText).toOption
  { engine with
    environment :=
      { engine.environment with
        settings := { engine.environment.settings with load := some load } } }

/-- The console with another source of files. -/
def withFiles (console : Console) (files : FileSource) : Console :=
  { console with files, engine := attachFiles console.engine files console.directory }

/-- Takes over an engine after a call, with all that the call has written. -/
def absorb (console : Console) (engine : Engine) : Console :=
  let (journal, reports, engine) := engine.takeRecords
  let consulted := journal.loads.toList.map fun name =>
    (modulePath console.directory name).toText
  let written : Console :=
    { console with
      engine
      output := console.output ++ journal.output
      errors := journal.steps.foldl (fun text step => text ++ step ++ "\n") console.errors
      consulted := console.consulted ++ consulted }
  reports.foldl printReport written

/-- Evaluates a text, leaving the failure or the value to the caller. -/
def evaluate (console : Console) (source : String) : Except EngineError Value × Console :=
  let (result, engine) := console.engine.evaluate source
  (result, console.absorb engine)

/-- Reads a file. -/
def readFile (console : Console) (path : String) : Except FileProblem String × Console :=
  (console.files path, { console with consulted := console.consulted ++ [path] })

/-- Evaluates a text and shows its value in colour, unless it is null. -/
def evaluateAndShow (console : Console) (source : String) : Console :=
  match console.evaluate source with
  | (.ok .null, console) => console
  | (.ok value, console) =>
    console.printLine (console.engine.state.heap.colouredText value)
  | (.error error, console) => console.complain errorLabel error.describe

/-! ## Commands -/

/-- The lines shown when the shell starts. -/
def bannerLines : List String :=
  ["",
    "  " ++ bold (paint .white "Corvid") ++ " " ++ dimmed "v" ++ " "
      ++ paint .brightYellow version,
    "  " ++ dimmed "Type" ++ " " ++ paint .cyan ".help" ++ " "
      ++ dimmed "for available commands",
    ""]

/-- A line of a table with a coloured first column. -/
def tableLine (colour : Text.Colour) (name description : String) : String :=
  "  " ++ paint colour (padRight 16 name) ++ " " ++ description

/-- The lines of the help text. -/
def helpLines : List String :=
  let heading (text : String) : List String := ["", bold (paint .white text), ""]
  heading "REPL Commands:"
    ++ Command.all.map (fun command =>
      tableLine .cyan command.usage (dimmed command.description))
    ++ heading "Keyboard Shortcuts:"
    ++ [tableLine .yellow "Ctrl+C" (dimmed "Cancel current input"),
      tableLine .yellow "Ctrl+D" (dimmed "Exit REPL"),
      tableLine .yellow "Tab" (dimmed "Autocomplete"),
      ""]

/-- The lines of the list of variables of the main module. -/
def variableLines (engine : Engine) : List String :=
  match engine.state.registry.module? mainModule with
  | none => []
  | some table =>
    (table.names.zip table.values).toList.filterMap fun (name, value) =>
      if value.isUndefined then none
      else some (tableLine .cyan name (engine.state.heap.colouredText value))

/-- Evaluates the content of a file. -/
def loadFile (console : Console) (path : String) : Console :=
  match console.readFile path with
  | (.ok source, console) => console.evaluateAndShow source
  | (.error problem, console) =>
    console.complain errorLabel (path ++ ": " ++ problem.message)

/-- Whether the shell goes on. -/
inductive Continuation where
  | goOn
  | stop
deriving Repr, DecidableEq

/-- Carries out a command. -/
def execute (console : Console) (command : Command) (argument : Option String) :
    Console × Continuation :=
  match command with
  | .help => (console.printLines helpLines, .goOn)
  | .exit => (console, .stop)
  | .clear =>
    ({ console with output := console.output ++ "\x1b[2J\x1b[H" }, .goOn)
  | .version =>
    (console.printLine (bold (paint .brightCyan "corvid") ++ " " ++ paint .yellow version), .goOn)
  | .load =>
    match argument with
    | some path => (console.loadFile path, .goOn)
    | none =>
      (console.complain errorLabel
        (paint .cyan ".load" ++ " " ++ dimmed "requires a file path"), .goOn)
  | .vars => (console.printLines (variableLines console.engine), .goOn)

/-- Carries out or evaluates a complete entry. -/
def submit (console : Console) (entry : String) : Console × Continuation :=
  let trimmed := Text.trim entry.toList
  if trimmed.isEmpty then
    (console, .goOn)
  else
    let text := String.ofList trimmed
    match Command.parse? text with
    | some (command, argument) => console.execute command argument
    | none => (console.evaluateAndShow text, .goOn)

end Console

end ScriptEngine.Shell
