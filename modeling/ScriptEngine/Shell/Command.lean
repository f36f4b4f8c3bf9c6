import ScriptEngine.Text.Blank

/-!
# Commands of the shell

A line that begins with a full stop is a command if the word after it is known.
The rest of the line after the first blank is the argument.
-/

namespace ScriptEngine.Shell

/-- The commands of the shell. -/
inductive Command where
  | help
  | exit
  | clear
  | version
  | load
  | vars
deriving Repr, DecidableEq

namespace Command

/-- The words for a command. -/
def words : Command → List String
  | help => ["help", "h", "?"]
  | exit => ["exit", "quit", "q"]
  | clear => ["clear", "cls"]
  | version => ["version", "v"]
  | load => ["load", "l"]
  | vars => ["vars"]

/-- All commands in the order in which they are listed. -/
def all : List Command :=
  [help, exit, clear, version, load, vars]

/-- How a command is written, with a place for its argument. -/
def usage : Command → String
  | help => ".help"
  | exit => ".exit"
  | clear => ".clear"
  | version => ".version"
  | load => ".load <file>"
  | vars => ".vars"

/-- What is offered when a command is completed: its usage up to the first blank. -/
def completion (command : Command) : String :=
  String.ofList (command.usage.toList.takeWhile fun character => !Text.isBlank character)

/-- What a command does. -/
def description : Command → String
  | help => "Show this help message"
  | exit => "Exit the REPL"
  | clear => "Clear the screen"
  | version => "Show version information"
  | load => "Run a Corvid file in the session"
  | vars => "List the session's variables"

/-- The command for a word; capital letters count as small ones. -/
def ofWord? (word : String) : Option Command :=
  all.find? fun command => command.words.contains (word.map Char.toLower)

/-- The argument of a command, none if it is blank. -/
def argument? (characters : List Char) : Option String :=
  match Text.trim characters with
  | [] => none
  | trimmed => some (String.ofList trimmed)

/-- The command in a line and its argument. -/
def parse? (line : String) : Option (Command × Option String) :=
  match Text.trim line.toList with
  | '.' :: characters =>
    let word := characters.takeWhile fun character => !Text.isBlank character
    let rest := characters.drop (word.length + 1)
    (ofWord? (String.ofList word)).map fun command => (command, argument? rest)
  | _ => none

end Command

end ScriptEngine.Shell
