/-!
# Arguments of the command line

The program accepts the path of a script, a text to evaluate and a few
switches, in any order.  A switch has a long name, and some have a letter;
letters can be joined, and a value can follow its option after an equals sign.
-/

namespace ScriptEngine.Shell

/-- What the command line asks for. -/
structure Invocation where
  /-- Path of a script. -/
  script : Option String := none
  /-- A text to evaluate. -/
  code : Option String := none
  /-- Whether the shell is to be started after the script. -/
  interactive : Bool := false
  /-- Whether listings are printed instead of running code. -/
  disassemble : Bool := false
  /-- Whether every instruction is logged. -/
  trace : Bool := false
  verbose : Bool := false
deriving Repr, DecidableEq

namespace Invocation

/-- Sets the script, unless there is one. -/
def withScript (invocation : Invocation) (path : String) : Option Invocation :=
  if invocation.script.isSome then none else some { invocation with script := some path }

/-- Sets the text to evaluate, unless there is one. -/
def withCode (invocation : Invocation) (code : String) : Option Invocation :=
  if invocation.code.isSome then none else some { invocation with code := some code }

/-- Turns on the switch with a long name. -/
def withSwitch (invocation : Invocation) : String → Option Invocation
  | "--interactive" | "--repl" => some { invocation with interactive := true }
  | "--disassemble" => some { invocation with disassemble := true }
  | "--trace" => some { invocation with trace := true }
  | "--verbose" => some { invocation with verbose := true }
  | _ => none

/-- How the next argument is read. -/
inductive Reading where
  | option (invocation : Invocation)
  /-- The next argument is the text to evaluate. -/
  | code (invocation : Invocation)
  /-- All further arguments are paths. -/
  | path (invocation : Invocation)

/-- Reads the letters of an argument that begins with one hyphen. -/
def readLetters (invocation : Invocation) : List Char → Option Reading
  | [] => some (.option invocation)
  | 'i' :: rest => readLetters { invocation with interactive := true } rest
  | ['e'] => some (.code invocation)
  | 'e' :: '=' :: code => (invocation.withCode (String.ofList code)).map .option
  | 'e' :: code => (invocation.withCode (String.ofList code)).map .option
  | _ :: _ => none

/-- Reads an argument that may be an option. -/
def readOption (invocation : Invocation) (argument : String) : Option Reading :=
  match argument.toList with
  | ['-', '-'] => some (.path invocation)
  | ['-', '-', 'e', 'v', 'a', 'l'] => some (.code invocation)
  | '-' :: '-' :: 'e' :: 'v' :: 'a' :: 'l' :: '=' :: code =>
    (invocation.withCode (String.ofList code)).map .option
  | '-' :: '-' :: _ => (invocation.withSwitch argument).map .option
  | '-' :: letter :: letters => invocation.readLetters (letter :: letters)
  | _ => (invocation.withScript argument).map .option

/-- Reads an argument. -/
def Reading.step (reading : Reading) (argument : String) : Option Reading :=
  match reading with
  | option invocation => invocation.readOption argument
  | code invocation => (invocation.withCode argument).map .option
  | path invocation => (invocation.withScript argument).map .path

/-- What all arguments together ask for, unless a text to evaluate is missing. -/
def Reading.finish? : Reading → Option Invocation
  | option invocation | path invocation => some invocation
  | code _ => none

/-- What a list of arguments asks for, if they are valid. -/
def parse? (arguments : List String) : Option Invocation := do
  let reading ← arguments.foldlM Reading.step (.option {})
  reading.finish?

end Invocation

end ScriptEngine.Shell
