import ScriptEngine.Compilation.Statement

/-!
# Compiling a source text

`compile` turns a source text into the body of a module.  In evaluation mode
the body returns the value of an expression statement that ends the text, and
that statement needs no semicolon.

The result lists the functions of the text in the order in which they were
finished, the body last.  The table of the module is part of the result also
when compilation fails, because the names that were met stay declared.
-/

namespace ScriptEngine

/-- How a source text is compiled. -/
inductive CompileMode where
  | run
  | eval
deriving Repr, DecidableEq

/-- The outcome of a compilation. -/
structure Compiled where
  /-- The functions of the text, the body of the module last, or the first error. -/
  functions : Except CompileError (Array Function)
  /-- The table of the module afterwards. -/
  table : Module

namespace Compiler

/-- Greatest number of levels of code and operands inside one another. -/
def maxNesting : Nat := 256

/-- Whether the next token begins an expression statement. -/
def atExpressionStatement : Compiler Bool :=
  look fun state =>
    !state.current.kind.startsStatement && !state.current.kind.isMark .leftBrace

/-- Compiles an expression statement of a text in evaluation mode and gives its line. -/
def evaluatedStatement (levels : Nat) : Compiler Nat := do
  whole (expressionWithin levels)
  let line ← look (·.previous.line)
  unless (← matchMark .semicolon) || (← atEnd) do
    failAtCurrent (.expected "';' after expression")
  return line

/--
Compiles one statement or declaration of a text.  In evaluation mode the value
of an expression statement is popped only when something follows it; the line
of a value that is still on the stack is passed along.
-/
def topLevel (levels : Nat) (mode : CompileMode) (pending : Option Nat) :
    Compiler (Bool × Option Nat) := do
  if ← atEnd then
    return (false, pending)
  else
    match pending with
    | some line => emitOn line .pop
    | none => pure ()
    if mode = .eval ∧ (← atExpressionStatement) then
      return (true, some (← evaluatedStatement levels))
    else
      codeWithin levels .declaration
      return (true, none)

/-- Compiles a whole text with a given nesting limit. -/
def script (levels : Nat) (mode : CompileMode) : Compiler Unit := do
  let pending ← repeatWhile (topLevel levels mode) none
  if pending.isSome then
    emit .leave
  else
    emitReturn
  let _ ← finishFunction

/-- The state before the first token. -/
def start (tokens : Array Token) (table : Module) (home firstFunction : Nat) : Compilation :=
  { tokens
    position := 0
    table
    home
    draft := Draft.blank none .script
    enclosing := []
    firstFunction
    finished := #[] }

/-- Compiles tokens with a given nesting limit. -/
def compileTokens
    (levels : Nat)
    (mode : CompileMode)
    (tokens : Array Token)
    (table : Module)
    (home firstFunction : Nat) :
    Compiled :=
  match script levels mode (start tokens table home firstFunction) with
  | (.ok _, final) => { functions := .ok final.finished, table := final.table }
  | (.error error, final) => { functions := .error error, table := final.table }

end Compiler

/--
Compiles a source text as the body of the module at position `home`.  The
functions of the text will stand in the heap from position `firstFunction` on.
-/
def compile
    (mode : CompileMode)
    (source : String)
    (table : Module)
    (home firstFunction : Nat) :
    Compiled :=
  match Token.scan source with
  | .error error =>
    { functions := .error
        { moduleName := table.name, line := error.line, place := .nowhere,
          problem := .scan error.problem }
      table }
  | .ok tokens =>
    Compiler.compileTokens Compiler.maxNesting mode tokens table home firstFunction

end ScriptEngine
