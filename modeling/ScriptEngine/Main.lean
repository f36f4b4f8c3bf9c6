import ScriptEngine.Shell.Session

/-!
# The program

Reads the command line, files and input, and writes what a session prints.  A
session runs on the files that are known; when it asks for a file that has not
been read yet, the file is read and the last step is made again.
-/

namespace ScriptEngine.Shell

/-- Contents of files that have been read. -/
abbrev KnownFiles := List (String × Except FileProblem String)

/-- The files that have been read as a source. -/
def KnownFiles.source (known : KnownFiles) : FileSource :=
  fun path => (known.lookup path).getD (.error .missing)

/-- The number of the error of reading a directory. -/
def directoryErrorCode : UInt32 := 21

/-- The problem that a failed attempt to read a file has met. -/
def problemOf : IO.Error → FileProblem
  | .inappropriateType _ code _ =>
    if code = directoryErrorCode then .isDirectory else .notDirectory
  | .invalidArgument .. => .tooLong
  | .userError _ => .notText
  | _ => .missing

/-- Reads a file from the disk. -/
def readFromDisk (path : String) : IO (Except FileProblem String) := do
  if path.toList.contains '\x00' then
    return .error .containsNull
  try
    return .ok (← IO.FS.readFile path)
  catch problem =>
    return .error (problemOf problem)

/-- Makes a step again until all files it asks for are known. -/
partial def withFiles (known : KnownFiles) (step : FileSource → Console × α) :
    IO (KnownFiles × Console × α) := do
  let (console, result) := step known.source
  let unknown := console.consulted.eraseDups.filter fun path => (known.lookup path).isNone
  if unknown.isEmpty then
    return (known, console, result)
  let read ← unknown.mapM fun path => return (path, ← readFromDisk path)
  withFiles (known ++ read) step

/-- Writes what a console has collected and empties it. -/
def flushConsole (console : Console) : IO Console := do
  let output ← IO.getStdout
  let errors ← IO.getStderr
  output.putStr console.output
  output.flush
  errors.putStr console.errors
  errors.flush
  return { console with output := "", errors := "", consulted := [] }

/-- Reads lines from the input until it ends or the shell is left. -/
partial def converse (input : IO.FS.Stream) (dialogue : Dialogue) : IO Unit := do
  let line ← input.getLine
  if line.isEmpty then
    let _ ← flushConsole dialogue.endOfInput.farewell
  else
    let inputLine := InputLine.ofReversed line.toList.reverse
    let (_, console, (next, continuation)) ← withFiles [] fun files =>
      let prepared := { dialogue with console := dialogue.console.withFiles files }
      let (next, continuation) := prepared.feed inputLine
      (next.console, (next, continuation))
    match continuation with
    | .stop =>
      let _ ← flushConsole console.farewell
    | .goOn => converse input { next with console := ← flushConsole console }

end ScriptEngine.Shell

open ScriptEngine.Shell in
/-- Runs the program. -/
def main (arguments : List String) : IO UInt32 := do
  match Invocation.parse? arguments with
  | none =>
    IO.eprintln "usage: corvid [script] [-e code] [-i] [--disassemble] [--trace] [--verbose]"
    return 2
  | some invocation =>
    let (_, console, exitCode?) ← withFiles [] fun files =>
      (Console.ofInvocation invocation files).startUp invocation
    let console ← flushConsole console
    match exitCode? with
    | some exitCode => return UInt32.ofNat exitCode
    | none =>
      let dialogue := console.greet
      converse (← IO.getStdin) { dialogue with console := ← flushConsole dialogue.console }
      return 0
