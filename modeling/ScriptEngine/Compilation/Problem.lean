import ScriptEngine.Chunk
import ScriptEngine.Token.Scan

/-!
# Compile errors

Compilation stops at the first problem.  An error names the module, the line
and, where there is one, the token at which the problem was noticed.
-/

namespace ScriptEngine

/-- A problem with a local variable. -/
inductive ScopeProblem where
  | alreadyDeclared
  | tooManyLocals
  | readInInitializer
deriving Repr, DecidableEq

/-- The wording of a problem with a local variable. -/
def ScopeProblem.message : ScopeProblem → String
  | alreadyDeclared => "Already a variable with this name in this scope."
  | tooManyLocals => "Too many local variables in function."
  | readInInitializer => "Can't read local variable in its own initializer."

/-- Why a source text is refused. -/
inductive CompileProblem where
  | scan (problem : ScanProblem)
  /-- Something other than what stands here was needed. -/
  | expected (what : String)
  | expressionTooDeep
  | codeTooDeep
  | invalidAssignmentTarget
  | tooManyParameters
  | tooManyArguments
  | valueFromInitializer
  | tooManyModuleVariables
  | arrayRedefined
  | scope (problem : ScopeProblem)
  | capture (name : String)
  | thisOutsideClass
  | limit (reached : ChunkLimit)
deriving Repr, DecidableEq

/-- The wording of a problem. -/
def CompileProblem.message : CompileProblem → String
  | scan problem => problem.message
  | expected what => "Expect " ++ what ++ "."
  | expressionTooDeep => "Expression nested too deeply."
  | codeTooDeep => "Code nested too deeply."
  | invalidAssignmentTarget => "Invalid assignment target."
  | tooManyParameters => "Can't have more than 255 parameters."
  | tooManyArguments => "Can't have more than 255 arguments."
  | valueFromInitializer => "Can't return a value from an initializer."
  | tooManyModuleVariables => "Too many module variables."
  | arrayRedefined => "Can't redefine the builtin 'Array'."
  | scope problem => problem.message
  | capture name =>
    "Cannot capture local variable '" ++ name ++ "'; closures are not supported."
  | thisOutsideClass => "Can't use 'this' outside of a class."
  | .limit reached => reached.message

/-- The place in the text at which a problem was noticed. -/
inductive CompilePlace where
  /-- No token, the text could not be scanned. -/
  | nowhere
  /-- A token with the given characters. -/
  | token (lexeme : String)
  /-- The end of the input. -/
  | inputEnd
deriving Repr, DecidableEq

namespace CompilePlace

/-- The place of a token. -/
def ofToken (token : Token) : CompilePlace :=
  if token.kind.isEnd then inputEnd else CompilePlace.token token.lexeme

/-- The wording of a place. -/
def text : CompilePlace → String
  | nowhere => ""
  | token lexeme => " at '" ++ lexeme ++ "'"
  | inputEnd => " at end"

end CompilePlace

/-- A refusal of a source text. -/
structure CompileError where
  /-- The module that was being compiled. -/
  moduleName : String
  line : Nat
  place : CompilePlace
  problem : CompileProblem
deriving Repr, DecidableEq

/-- The error in one line. -/
def CompileError.report (error : CompileError) : String :=
  "[line " ++ Text.decimal error.line ++ "] Error" ++ error.place.text ++ ": "
    ++ error.problem.message

end ScriptEngine
