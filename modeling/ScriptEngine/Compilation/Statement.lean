import ScriptEngine.Compilation.Expression

/-!
# Compiling statements and declarations

Statements and declarations contain one another and expressions.  Each kind is
compiled by a function that receives the compilers for what may stand inside;
`codeWithin levels` closes the knot and refuses to go deeper than `levels`
levels.
-/

namespace ScriptEngine.Compiler

/-- The two forms of code that are not expressions. -/
inductive CodeForm where
  /-- A declaration or a statement. -/
  | declaration
  /-- A statement. -/
  | statement
deriving Repr, DecidableEq

/-- The compilers for what may stand inside a statement or declaration. -/
structure Inner where
  operand : OperandCompiler
  code : CodeForm → Compiler Unit

namespace Inner

/-- Compiles an expression. -/
def expression (inner : Inner) : Compiler Unit :=
  whole inner.operand

/-- Compiles a statement. -/
def statement (inner : Inner) : Compiler Unit :=
  inner.code .statement

/-- Compiles declarations up to a closing brace. -/
def block (inner : Inner) : Compiler Unit := do
  repeatWhile (fun _ => do
    if (← atMark .rightBrace) || (← atEnd) then
      return (false, ())
    else
      inner.code .declaration
      return (true, ())) ()
  consume .rightBrace "'\x7d' after block"

/-! ## Declarations -/

/-- Largest number of parameters of a function. -/
def maxParameters : Nat := 255

/-- Declares one parameter. -/
def parameter : Compiler Unit := do
  if (← look (·.draft.arity)) = maxParameters then
    failAtCurrent .tooManyParameters
  change fun state =>
    { state with draft := { state.draft with arity := state.draft.arity + 1 } }
  declareLocal (← consumeIdentifier "parameter name")
  changeScope Scope.markInitialized

/-- Compiles parameters and body of a function and pushes it as a constant. -/
def function (inner : Inner) (name : String) (role : Role) : Compiler Unit := do
  beginFunction name role
  enterBlock
  consume .leftParen "'(' after function name"
  unless ← atMark .rightParen do
    repeatWhile (fun _ => do
      parameter
      return (← matchMark .comma, ())) ()
  consume .rightParen "')' after parameters"
  consume .leftBrace "'\x7b' before function body"
  inner.block
  emitReturn
  emitConstant (.function (← finishFunction))

/-- The role of a method with a given name. -/
def methodRole (isStatic : Bool) (name : String) : Role :=
  if isStatic then .staticMethod
  else if name = "init" then .initializer
  else .method

/-- Compiles a method and attaches it to the class on top of the stack. -/
def method (inner : Inner) : Compiler Unit := do
  let isStatic ← matchWord .staticWord
  let name ← consumeIdentifier "method name"
  let index ← nameIndex name
  inner.function name (methodRole isStatic name)
  emit (if isStatic then .staticMethod index else .method index)

/-- Compiles a class declaration after its first word. -/
def classDeclaration (inner : Inner) : Compiler Unit := do
  let name ← consumeIdentifier "class name"
  let index ← nameIndex name
  let binding ← declareVariable name
  emit (.makeClass index)
  defineVariable binding
  namedVariable inner.operand name false
  consume .leftBrace "'\x7b' before class body"
  repeatWhile (fun _ => do
    if (← atMark .rightBrace) || (← atEnd) then
      return (false, ())
    else
      inner.method
      return (true, ())) ()
  consume .rightBrace "'\x7d' after class body"
  emit .pop

/-- Compiles a function declaration after its first word. -/
def functionDeclaration (inner : Inner) : Compiler Unit := do
  let name ← consumeIdentifier "function name"
  let binding ← declareVariable name
  inner.function name .function
  defineVariable binding

/-- Compiles a variable declaration after its first word. -/
def variableDeclaration (inner : Inner) : Compiler Unit := do
  let name ← consumeIdentifier "variable name"
  let binding ← declareVariable name
  if ← matchMark .equal then
    inner.expression
  else
    emit .pushNull
  consume .semicolon "';' after variable declaration"
  defineVariable binding

/-- Compiles the import of one variable of a module. -/
def importedVariable (moduleIndex : UInt16) : Compiler Unit := do
  let name ← consumeIdentifier "variable name to import"
  let index ← nameIndex name
  let binding ← declareVariable name
  emit (.importModule moduleIndex)
  emit (.getProperty index)
  defineVariable binding

/--
Compiles an import after its first word.  The first instruction loads the
module and its result is dropped; every further one gives the loaded module.
-/
def importDeclaration : Compiler Unit := do
  match ← look (·.current.kind) with
  | .string moduleName =>
    advance
    let moduleIndex ← nameIndex moduleName
    emit (.importModule moduleIndex)
    emit .pop
    if ← matchWord .asWord then
      let localName ← consumeIdentifier "name after 'as'"
      let binding ← declareVariable localName
      emit (.importModule moduleIndex)
      defineVariable binding
    if ← matchWord .forWord then
      repeatWhile (fun _ => do
        importedVariable moduleIndex
        return (← matchMark .comma, ())) ()
    consume .semicolon "';' after import"
  | _ => failAtCurrent (.expected "module name string after 'import'")

/-! ## Statements -/

/-- Compiles a print statement after its first word. -/
def printStatement (inner : Inner) : Compiler Unit := do
  inner.expression
  consume .semicolon "';' after value"
  emit .print

/-- Compiles an expression whose value is dropped. -/
def expressionStatement (inner : Inner) : Compiler Unit := do
  inner.expression
  consume .semicolon "';' after expression"
  emit .pop

/-- Compiles a conditional statement after its first word. -/
def ifStatement (inner : Inner) : Compiler Unit := do
  consume .leftParen "'(' after 'if'"
  inner.expression
  consume .rightParen "')' after condition"
  let otherwise ← emitJump .jumpIfFalse
  emit .pop
  inner.statement
  let finish ← emitJump .jump
  patchJump otherwise
  emit .pop
  if ← matchWord .elseWord then
    inner.statement
  patchJump finish

/-- Compiles a loop with a condition after its first word. -/
def whileStatement (inner : Inner) : Compiler Unit := do
  let start ← codeSize
  consume .leftParen "'(' after 'while'"
  inner.expression
  consume .rightParen "')' after condition"
  let leave ← emitJump .jumpIfFalse
  emit .pop
  inner.statement
  emitLoop start
  patchJump leave
  emit .pop

/-- Compiles the first clause of a counting loop. -/
def forInitializer (inner : Inner) : Compiler Unit := do
  if ← matchMark .semicolon then
    return ()
  else if ← matchWord .varWord then
    inner.variableDeclaration
  else
    inner.expressionStatement

/-- Compiles the condition of a counting loop and gives the jump out of the loop. -/
def forCondition (inner : Inner) : Compiler (Option PendingJump) := do
  if ← matchMark .semicolon then
    return none
  else
    inner.expression
    consume .semicolon "';' after loop condition"
    let leave ← emitJump .jumpIfFalse
    emit .pop
    return some leave

/--
Compiles the last clause of a counting loop and gives the offset at which a
round goes on after the body.
-/
def forIncrement (inner : Inner) (start : Nat) : Compiler Nat := do
  if ← matchMark .rightParen then
    return start
  else
    let body ← emitJump .jump
    let increment ← codeSize
    inner.expression
    emit .pop
    consume .rightParen "')' after for clauses"
    emitLoop start
    patchJump body
    return increment

/-- Compiles a counting loop after its first word. -/
def forStatement (inner : Inner) : Compiler Unit := do
  enterBlock
  consume .leftParen "'(' after 'for'"
  inner.forInitializer
  let start ← codeSize
  let leave? ← inner.forCondition
  let again ← inner.forIncrement start
  inner.statement
  emitLoop again
  match leave? with
  | none => pure ()
  | some leave => do
    patchJump leave
    emit .pop
  leaveBlock

/-- Compiles a return statement after its first word. -/
def returnStatement (inner : Inner) : Compiler Unit := do
  if ← matchMark .semicolon then
    emitReturn
  else if (← look (·.draft.role)) = .initializer then
    fail .valueFromInitializer
  else
    inner.expression
    consume .semicolon "';' after return value"
    emit .leave

/-- Compiles a statement. -/
def statementBody (inner : Inner) : Compiler Unit := do
  if ← matchWord .printWord then
    inner.printStatement
  else if ← matchWord .ifWord then
    inner.ifStatement
  else if ← matchWord .whileWord then
    inner.whileStatement
  else if ← matchWord .forWord then
    inner.forStatement
  else if ← matchWord .returnWord then
    inner.returnStatement
  else if ← matchMark .leftBrace then
    enterBlock
    inner.block
    leaveBlock
  else
    inner.expressionStatement

/-- Compiles a declaration or a statement. -/
def declarationBody (inner : Inner) : Compiler Unit := do
  if ← matchWord .classWord then
    inner.classDeclaration
  else if ← matchWord .funWord then
    inner.functionDeclaration
  else if ← matchWord .varWord then
    inner.variableDeclaration
  else if ← matchWord .importWord then
    importDeclaration
  else
    inner.statement

/-- Compiles code of a given form. -/
def body (inner : Inner) : CodeForm → Compiler Unit
  | .declaration => inner.declarationBody
  | .statement => inner.statementBody

end Inner

/-- Compiles code with at most `levels` levels of code and operands inside one another. -/
def codeWithin : Nat → CodeForm → Compiler Unit
  | 0, _ => failAtCurrent .codeTooDeep
  | levels + 1, form =>
    Inner.body { operand := expressionWithin levels, code := codeWithin levels } form

end ScriptEngine.Compiler
