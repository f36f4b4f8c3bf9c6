import ScriptEngine.Shell.Console
import ScriptEngine.Shell.Correction
import ScriptEngine.Shell.Invocation

/-!
# Sessions

A run of the program: the script or text of the command line first, then, if
asked for, entries from the input until it ends or the shell is left.
-/

namespace ScriptEngine.Shell

/-- A line of the input with the characters that end it. -/
structure InputLine where
  text : String
  ending : String
deriving Repr, DecidableEq

namespace InputLine

/-- Splits off the end of a line whose characters are given last first. -/
def ofReversed : List Char → InputLine
  | '\n' :: '\r' :: before => { text := String.ofList before.reverse, ending := "\r\n" }
  | '\n' :: before => { text := String.ofList before.reverse, ending := "\n" }
  | before => { text := String.ofList before.reverse, ending := "" }

/-- The lines of characters; `line` holds the characters before them, last first. -/
def splitFrom : List Char → List Char → List InputLine
  | [], [] => []
  | line, [] => [ofReversed line]
  | line, character :: rest =>
    if character = '\n' then
      ofReversed (character :: line) :: splitFrom [] rest
    else
      splitFrom (character :: line) rest

/-- The lines of a text. -/
def split (text : String) : List InputLine :=
  splitFrom [] text.toList

end InputLine

/-- A console that is in the middle of an entry. -/
structure Dialogue where
  console : Console
  /-- The lines of the entry so far. -/
  pending : String := ""

namespace Dialogue

/--
Reads a line; a complete entry is carried out.  A backspace at the beginning of
a line takes away the end of the line before.
-/
def feed (dialogue : Dialogue) (line : InputLine) : Dialogue × Console.Continuation :=
  let entry := correct (dialogue.pending ++ line.text)
  if isComplete entry then
    let (console, continuation) := dialogue.console.submit entry
    ({ console }, continuation)
  else
    ({ dialogue with pending := entry ++ line.ending }, .goOn)

/-- Marks the end of the input. -/
def endOfInput (dialogue : Dialogue) : Console :=
  dialogue.console.printLine (Text.dimmed "^D")

/-- Reads lines until they end or the shell is left. -/
def feedAll (dialogue : Dialogue) : List InputLine → Console
  | [] => dialogue.endOfInput
  | line :: rest =>
    match dialogue.feed line with
    | (next, .goOn) => next.feedAll rest
    | (next, .stop) => next.console

end Dialogue

/-- The status of a run without failures. -/
def successCode : Nat := 0

/-- The status of a run whose script could not be read. -/
def unreadableCode : Nat := 1

/-- The status of a run that failed with an error. -/
def failureCode : EngineError → Nat
  | .compile _ => 65
  | _ => 70

/-- The status of a run. -/
def exitCode : Except EngineError α → Nat
  | .ok _ => successCode
  | .error error => failureCode error

namespace Console

/-- A console for a command line. -/
def ofInvocation (invocation : Invocation) (files : FileSource) : Console :=
  let directory :=
    (invocation.script.bind fun path => (Path.ofText path).parent?).getD Path.current
  let environment : Environment :=
    { settings := { trace := invocation.trace }, host := Host.empty }
  { engine := attachFiles (Engine.create environment) files directory, files, directory }

/-- Evaluates a text and writes its value, unless it is null. -/
def evaluateOnce (console : Console) (source : String) : Console × Nat :=
  let (result, console) := console.evaluate source
  let code := exitCode result
  match result with
  | .ok .null => (console, code)
  | .ok value => (console.printLine (console.engine.state.heap.display value), code)
  | .error error => (console.complain errorLabel error.describe, code)

/-- Writes the listing of a text. -/
def list (console : Console) (source : String) : Console × Nat :=
  match console.engine.compile mainModule source with
  | (.ok body, engine) =>
    let console := console.absorb engine
    ({ console with output := console.output ++ engine.listing mainModule body }, successCode)
  | (.error error, engine) =>
    ((console.absorb engine).complain (reportLabel .compile) error.describe, failureCode error)

/-- Runs a text in the main module. -/
def run (console : Console) (source : String) : Console × Nat :=
  let (result, engine) := console.engine.run source
  (console.absorb engine, exitCode result)

/-- Complains about a script that cannot be read. -/
def complainUnreadable (console : Console) (path : String) (problem : FileProblem) : Console :=
  { console with
    errors := console.errors ++ "Error: failed to read " ++ path ++ "\n\nCaused by:\n    "
      ++ problem.message ++ "\n" }

/--
Does what the command line asks for before any input is read.  There is a
status if that is all, and none if the shell is to be started.
-/
def startUp (console : Console) (invocation : Invocation) : Console × Option Nat :=
  let finish (result : Console × Nat) : Console × Option Nat := (result.1, some result.2)
  match invocation.code, invocation.script with
  | some code, _ =>
    finish (if invocation.disassemble then console.list code else console.evaluateOnce code)
  | none, some path =>
    match console.readFile path with
    | (.error problem, console) =>
      (console.complainUnreadable path problem, some unreadableCode)
    | (.ok source, console) =>
      if invocation.disassemble then
        finish (console.list source)
      else
        let (console, code) := console.run source
        (console, if invocation.interactive then none else some code)
  | none, none => (console, none)

/-- Starts the shell. -/
def greet (console : Console) : Dialogue where
  console := console.printLines bannerLines

/-- Leaves the shell. -/
def farewell (console : Console) : Console :=
  console.printLine ""

end Console

/-- What a run of the program has done. -/
structure RunResult where
  exitCode : Nat
  output : String
  errors : String
deriving Repr, DecidableEq

/--
Runs the program on files and an input.  A script that is read from the input
leaves nothing of it to the shell.
-/
def run (invocation : Invocation) (system : FileSystem) (input : String) : RunResult :=
  let files := (system.withInput input).read
  match (Console.ofInvocation invocation files).startUp invocation with
  | (console, some exitCode) =>
    { exitCode, output := console.output, errors := console.errors }
  | (console, none) =>
    let remaining := if invocation.script.any system.isInput then "" else input
    let console := console.withFiles (system.withInput "").read
    let final := (console.greet.feedAll (InputLine.split remaining)).farewell
    { exitCode := successCode, output := final.output, errors := final.errors }

end ScriptEngine.Shell
