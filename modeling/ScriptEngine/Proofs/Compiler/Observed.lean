import ScriptEngine.Proofs.Compiler.Effect

/-!
# A compilation that is observed

Every routine of the compiler once more, with a counter that is raised and lowered around
nested code and operands, with loops and recursion that nothing bounds, and with a journal
of the moments and of what happens to names.  A routine that does not end has no outcome:
`Observed` counts the rounds of loops and the calls of the recursion down, and a routine has
ended if it has an outcome for some number of them.

A step that does not concern names is observed as it is (`Observed.observe`).
-/

namespace ScriptEngine

open Compiler (Reference CodeForm maxArguments maxNesting arraySlot)
open Compiler.Inner (maxParameters methodRole)

/-- What is counted at a moment of a compilation. -/
structure Moment where
  /-- Number of tokens that have been read. -/
  position : Nat
  /-- Number of nested routines that have begun and not ended. -/
  depth : Nat
  /-- Number of slots that are taken in the present function. -/
  slots : Nat
deriving Repr, DecidableEq

/-- What happens to names. -/
inductive NameEvent where
  /-- A function begins, with the block of its parameters and its body. -/
  | functionBegins (role : Role)
  | functionEnds
  | blockBegins
  | blockEnds
  /-- A name is declared at the level of the module. -/
  | moduleDeclaration (name : String)
  /-- A name is declared anywhere else, or its declaration is refused. -/
  | localDeclaration (name : String) (problem : Option CompileProblem)
  /-- The initialiser of a local variable is complete. -/
  | initialization (name : String)
  /-- A name is used, and stands for a variable or is refused. -/
  | use (name : String) (meaning : Except CompileProblem Reference)

/-- Why a name is refused, if it is. -/
def NameEvent.refusal? : NameEvent → Option CompileProblem
  | localDeclaration _ problem => problem
  | use _ (.error problem) => some problem
  | _ => none

/-- A compilation, its counter and its journal, latest entries first. -/
structure Session where
  state : Compilation
  /-- Number of nested routines that have begun and not ended. -/
  depth : Nat
  moments : List Moment
  /-- The counter before and after every nested routine that has ended. -/
  returns : List (Nat × Nat)
  events : List NameEvent

namespace Session

/-- Counts at the present moment. -/
def mark (session : Session) : Session :=
  { session with
    moments :=
      { position := session.state.position
        depth := session.depth
        slots := session.state.draft.scope.locals.length } :: session.moments }

/-- A session before the first step. -/
def start (state : Compilation) : Session :=
  { state, depth := 0, moments := [], returns := [], events := [] : Session }.mark

/-- The state changes. -/
def reach (session : Session) (state : Compilation) : Session :=
  { session with state }.mark

/-- Something happens to a name, and the state changes. -/
def note (session : Session) (event : NameEvent) (state : Compilation) : Session :=
  { session with events := event :: session.events }.reach state

/-- A nested routine begins. -/
def deeper (session : Session) : Session :=
  { session with depth := session.depth + 1 }.mark

/-- A nested routine ends that began with a given counter. -/
def shallower (session : Session) (former : Nat) : Session :=
  { session with
    depth := session.depth - 1
    returns := (former, session.depth - 1) :: session.returns }.mark

end Session

/--
A routine that is observed.  The first argument bounds the rounds of each loop, and without
an outcome some loop needs more of them.
-/
def Observed (α : Type) : Type :=
  Nat → Session → Option (Except CompileError α × Session)

namespace Observed

instance : Monad Observed where
  pure value := fun _ session => some (.ok value, session)
  bind first next := fun rounds session =>
    match first rounds session with
    | none => none
    | some (.error error, after) => some (.error error, after)
    | some (.ok value, after) => next value rounds after

theorem bind_of_ok
    {first : Observed α}
    {next : α → Observed β}
    {rounds : Nat}
    {session between : Session}
    {value : α}
    (runs : first rounds session = some (.ok value, between)) :
    (first >>= next) rounds session = next value rounds between := by
  simp only [Bind.bind, runs]

theorem bind_of_error
    {first : Observed α}
    {next : α → Observed β}
    {rounds : Nat}
    {session between : Session}
    {error : CompileError}
    (runs : first rounds session = some (.error error, between)) :
    (first >>= next) rounds session = some (.error error, between) := by
  simp only [Bind.bind, runs]

/-- A routine that has not ended. -/
def endless : Observed α :=
  fun _ _ => none

/-- A step that does not concern names. -/
def observe (step : Compiler α) : Observed α :=
  fun _ session =>
    some ((step session.state).1, session.reach (step session.state).2)

/-- A step that concerns names, with what is noted about its outcome. -/
def record (event : Except CompileError α → NameEvent) (step : Compiler α) : Observed α :=
  fun _ session =>
    some ((step session.state).1,
      session.note (event (step session.state).1) (step session.state).2)

/-- At most `bound` rounds of a loop. -/
def loopAtMost (round : α → Observed (Bool × α)) : Nat → α → Observed α
  | 0, _ => endless
  | bound + 1, start => do
    let (goesOn, result) ← round start
    if goesOn then loopAtMost round bound result else return result

/-- Repeats a step for as long as it says that it goes on. -/
def loop (round : α → Observed (Bool × α)) (start : α) : Observed α :=
  fun rounds => loopAtMost round rounds start rounds

/-- Runs a routine one level deeper, unless that would be too deep. -/
def nested (tooDeep : CompileProblem) (routine : Observed Unit) : Observed Unit :=
  fun rounds session =>
    if maxNesting ≤ session.depth then
      observe (Compiler.failAtCurrent tooDeep) rounds session
    else
      (routine rounds session.deeper).map fun (outcome, after) =>
        (outcome, after.shallower session.depth)

/-! ## Tokens -/

/-- Reads a token; at the end of the input it stays where it is. -/
def advance : Observed Unit :=
  observe Compiler.advance

/-- Reads the next token if it satisfies a test. -/
def matchKind (test : TokenKind → Bool) : Observed Bool := do
  if ← observe (Compiler.look fun state => test state.current.kind) then
    advance
    return true
  else
    return false

/-- Reads the next token if it is a given mark. -/
def matchMark (mark : Punctuation) : Observed Bool :=
  matchKind (TokenKind.isMark mark)

/-- Reads the next token if it is a given word. -/
def matchWord (word : Keyword) : Observed Bool :=
  matchKind (TokenKind.isWord word)

/-- Whether the next token is a given mark. -/
def atMark (mark : Punctuation) : Observed Bool :=
  observe (Compiler.atMark mark)

/-- Whether the input has ended. -/
def atEnd : Observed Bool :=
  observe Compiler.atEnd

/-- Reads a mark that must stand here. -/
def consume (mark : Punctuation) (what : String) : Observed Unit := do
  unless ← matchMark mark do
    observe (Compiler.failAtCurrent (.expected what))

/-- Reads an identifier that must stand here. -/
def consumeIdentifier (what : String) : Observed String := do
  match ← observe (Compiler.look (·.current.kind)) with
  | .identifier name =>
    advance
    return name
  | _ => observe (Compiler.failAtCurrent (.expected what))

/-- Appends an instruction that comes from the token that was read last. -/
def emit (instruction : Instruction) : Observed Unit :=
  observe (Compiler.emit instruction)

/-! ## Blocks and functions -/

/-- Runs a routine inside a block. -/
def inBlock (routine : Observed Unit) : Observed Unit := do
  record (fun _ => .blockBegins) Compiler.enterBlock
  routine
  record (fun _ => .blockEnds) Compiler.leaveBlock

/-- Runs a routine inside the block of a new function. -/
def inFunction (name : String) (role : Role) (routine : Observed Unit) : Observed Nat := do
  record (fun _ => .functionBegins role) do
    Compiler.beginFunction name role
    Compiler.enterBlock
  routine
  record (fun _ => .functionEnds) Compiler.finishFunction

/-! ## Names -/

/-- Declares a name at the level of the module. -/
def declareInModule (name : String) : Observed Nat :=
  record (fun _ => .moduleDeclaration name) (Compiler.moduleSlot name)

/-- Finds out what a name means here. -/
def resolve (name : String) : Observed Reference :=
  record (fun outcome => .use name (outcome.mapError (·.problem))) (Compiler.resolve name)

/-- Declares a local variable and runs its initialiser. -/
def declaringLocal (name : String) (initializer : Observed Unit) : Observed Unit := do
  record (fun outcome => .localDeclaration name (Compiler.problem? outcome))
    (Compiler.declareLocal name)
  initializer
  record (fun _ => .initialization name) (Compiler.changeScope Scope.markInitialized)

/-- Declares a name, runs its initialiser and gives it the value on top of the stack. -/
def declaring (name : String) (initializer : Observed Unit) : Observed Unit := do
  if ← observe Compiler.atModuleLevel then
    let slot ← declareInModule name
    observe (Compiler.checkWritable slot)
    initializer
    emit (.defineModule (UInt16.ofNat slot))
  else
    declaringLocal name initializer

/-! ## Expressions -/

/-- An operand of at least a given binding power. -/
abbrev Operand := Precedence → Observed Unit

/-- Any expression. -/
def whole (operand : Operand) : Observed Unit :=
  operand .assignment

/-- Expressions that are separated by commas, and what follows each of them. -/
def commaSeparated (operand : Operand) (afterEach : Nat → Compiler Unit) : Observed Nat :=
  loop (fun count => do
    whole operand
    observe (afterEach count)
    return (← matchMark .comma, count + 1)) 0

/-- The arguments of a call. -/
def argumentList (operand : Operand) : Observed UInt8 := do
  let count ←
    if ← atMark .rightParen then
      pure 0
    else
      commaSeparated operand fun count => do
        if count = maxArguments then
          Compiler.fail .tooManyArguments
  consume .rightParen "')' after arguments"
  return UInt8.ofNat count

/-- A parenthesised expression after its opening mark. -/
def grouping (operand : Operand) : Observed Unit := do
  whole operand
  consume .rightParen "')' after expression"

/-- An array literal after its opening mark. -/
def arrayLiteral (operand : Operand) : Observed Unit := do
  let push ← observe (Compiler.nameIndex "push")
  emit (.getModule (UInt16.ofNat arraySlot))
  emit (.call 0)
  unless ← atMark .rightBracket do
    let _ ← commaSeparated operand fun _ => Compiler.emit (.invoke push 1)
  consume .rightBracket "']' after array elements"

/-- The use of a name, or an assignment to it. -/
def namedVariable (operand : Operand) (name : String) (canAssign : Bool) : Observed Unit := do
  let reference ← resolve name
  if ← (if canAssign then matchMark .equal else pure false) then
    observe reference.checkWritable
    whole operand
    emit reference.write
  else
    emit reference.read

/-- A form at the beginning of an expression. -/
def leadingForm (operand : Operand) (canAssign : Bool) : LeadingForm → Observed Unit
  | .grouping => grouping operand
  | .arrayLiteral => arrayLiteral operand
  | .unary operator => do
    operand .unary
    emit operator.instruction
  | .number value => observe (Compiler.emitConstant (.number value))
  | .string content => observe (Compiler.emitConstant (.string content))
  | .literal instruction => emit instruction
  | .named name => namedVariable operand name canAssign
  | .receiver => observe Compiler.receiver

/-- The right operand of `and`. -/
def conjunction (operand : Operand) : Observed Unit := do
  let skip ← observe (Compiler.emitJump .jumpIfFalse)
  emit .pop
  operand .conjunction
  observe (Compiler.patchJump skip)

/-- The right operand of `or`. -/
def disjunction (operand : Operand) : Observed Unit := do
  let otherwise ← observe (Compiler.emitJump .jumpIfFalse)
  let skip ← observe (Compiler.emitJump .jump)
  observe (Compiler.patchJump otherwise)
  emit .pop
  operand .disjunction
  observe (Compiler.patchJump skip)

/-- A property access, assignment or method call after the point. -/
def property (operand : Operand) (canAssign : Bool) : Observed Unit := do
  let name ← consumeIdentifier "property name after '.'"
  let index ← observe (Compiler.nameIndex name)
  if ← (if canAssign then matchMark .equal else pure false) then
    whole operand
    emit (.setProperty index)
  else if ← matchMark .leftParen then
    let count ← argumentList operand
    emit (.invoke index count)
  else
    emit (.getProperty index)

/-- A subscript or an assignment to one after the opening mark. -/
def subscript (operand : Operand) (canAssign : Bool) : Observed Unit := do
  whole operand
  consume .rightBracket "']' after index"
  if ← (if canAssign then matchMark .equal else pure false) then
    whole operand
    emit .setIndex
  else
    emit .getIndex

/-- A form after an operand. -/
def trailingForm (operand : Operand) (canAssign : Bool) : TrailingForm → Observed Unit
  | .binary operator => do
    operand operator.precedence.tighter
    observe (Compiler.emitAll operator.instructions)
  | .conjunction => conjunction operand
  | .disjunction => disjunction operand
  | .call => do emit (.call (← argumentList operand))
  | .property => property operand canAssign
  | .subscript => subscript operand canAssign

/-- An operand and the forms after it that bind tightly enough. -/
def operators (operand : Operand) (least : Precedence) : Observed Unit := do
  advance
  match ← observe (Compiler.look (·.previous.kind.leading?)) with
  | none => observe (Compiler.fail (.expected "expression"))
  | some form =>
    let canAssign := decide (least = .assignment)
    leadingForm operand canAssign form
    loop (fun _ => do
      match ← observe (Compiler.nextTrailing? least) with
      | none => return (false, ())
      | some form =>
        advance
        trailingForm operand canAssign form
        return (true, ())) ()
    if canAssign && (← atMark .equal) then
      observe (Compiler.failAtCurrent .invalidAssignmentTarget)

/-- An operand, after at most `calls` calls one inside another. -/
def expressionAfter : Nat → Operand
  | 0, _ => endless
  | calls + 1, least => nested .expressionTooDeep (operators (expressionAfter calls) least)

/-! ## Declarations -/

/-- What may stand inside a statement or declaration. -/
structure Inside where
  operand : Operand
  code : CodeForm → Observed Unit

namespace Inside

/-- An expression. -/
def expression (inside : Inside) : Observed Unit :=
  whole inside.operand

/-- A statement. -/
def statement (inside : Inside) : Observed Unit :=
  inside.code .statement

/-- Declarations up to a closing brace. -/
def block (inside : Inside) : Observed Unit := do
  loop (fun _ => do
    if (← atMark .rightBrace) || (← atEnd) then
      return (false, ())
    else
      inside.code .declaration
      return (true, ())) ()
  consume .rightBrace "'\x7d' after block"

/-- One parameter. -/
def parameter : Observed Unit := do
  if (← observe (Compiler.look (·.draft.arity))) = maxParameters then
    observe (Compiler.failAtCurrent .tooManyParameters)
  observe (Compiler.change fun state =>
    { state with draft := { state.draft with arity := state.draft.arity + 1 } })
  let name ← consumeIdentifier "parameter name"
  declaringLocal name (return ())

/-- Parameters and body of a function. -/
def function (inside : Inside) (name : String) (role : Role) : Observed Unit := do
  let id ← inFunction name role do
    consume .leftParen "'(' after function name"
    unless ← atMark .rightParen do
      loop (fun _ => do
        parameter
        return (← matchMark .comma, ())) ()
    consume .rightParen "')' after parameters"
    consume .leftBrace "'\x7b' before function body"
    inside.block
    observe Compiler.emitReturn
  observe (Compiler.emitConstant (.function id))

/-- A method of the class on top of the stack. -/
def method (inside : Inside) : Observed Unit := do
  let isStatic ← matchWord .staticWord
  let name ← consumeIdentifier "method name"
  let index ← observe (Compiler.nameIndex name)
  inside.function name (methodRole isStatic name)
  emit (if isStatic then .staticMethod index else .method index)

/-- A class declaration after its first word. -/
def classDeclaration (inside : Inside) : Observed Unit := do
  let name ← consumeIdentifier "class name"
  let index ← observe (Compiler.nameIndex name)
  declaring name do
    emit (.makeClass index)
  namedVariable inside.operand name false
  consume .leftBrace "'\x7b' before class body"
  loop (fun _ => do
    if (← atMark .rightBrace) || (← atEnd) then
      return (false, ())
    else
      inside.method
      return (true, ())) ()
  consume .rightBrace "'\x7d' after class body"
  emit .pop

/-- A function declaration after its first word. -/
def functionDeclaration (inside : Inside) : Observed Unit := do
  let name ← consumeIdentifier "function name"
  declaring name do
    inside.function name .function

/-- A variable declaration after its first word. -/
def variableDeclaration (inside : Inside) : Observed Unit := do
  let name ← consumeIdentifier "variable name"
  declaring name do
    if ← matchMark .equal then
      inside.expression
    else
      emit .pushNull
    consume .semicolon "';' after variable declaration"

/-- The import of one variable of a module. -/
def importedVariable (moduleIndex : UInt16) : Observed Unit := do
  let name ← consumeIdentifier "variable name to import"
  let index ← observe (Compiler.nameIndex name)
  declaring name do
    emit (.importModule moduleIndex)
    emit (.getProperty index)

/-- An import after its first word. -/
def importDeclaration : Observed Unit := do
  match ← observe (Compiler.look (·.current.kind)) with
  | .string moduleName =>
    advance
    let moduleIndex ← observe (Compiler.nameIndex moduleName)
    emit (.importModule moduleIndex)
    emit .pop
    if ← matchWord .asWord then
      let localName ← consumeIdentifier "name after 'as'"
      declaring localName do
        emit (.importModule moduleIndex)
    if ← matchWord .forWord then
      loop (fun _ => do
        importedVariable moduleIndex
        return (← matchMark .comma, ())) ()
    consume .semicolon "';' after import"
  | _ => observe (Compiler.failAtCurrent (.expected "module name string after 'import'"))

/-! ## Statements -/

/-- A print statement after its first word. -/
def printStatement (inside : Inside) : Observed Unit := do
  inside.expression
  consume .semicolon "';' after value"
  emit .print

/-- An expression whose value is dropped. -/
def expressionStatement (inside : Inside) : Observed Unit := do
  inside.expression
  consume .semicolon "';' after expression"
  emit .pop

/-- A conditional statement after its first word. -/
def ifStatement (inside : Inside) : Observed Unit := do
  consume .leftParen "'(' after 'if'"
  inside.expression
  consume .rightParen "')' after condition"
  let otherwise ← observe (Compiler.emitJump .jumpIfFalse)
  emit .pop
  inside.statement
  let finish ← observe (Compiler.emitJump .jump)
  observe (Compiler.patchJump otherwise)
  emit .pop
  if ← matchWord .elseWord then
    inside.statement
  observe (Compiler.patchJump finish)

/-- A loop with a condition after its first word. -/
def whileStatement (inside : Inside) : Observed Unit := do
  let start ← observe Compiler.codeSize
  consume .leftParen "'(' after 'while'"
  inside.expression
  consume .rightParen "')' after condition"
  let leave ← observe (Compiler.emitJump .jumpIfFalse)
  emit .pop
  inside.statement
  observe (Compiler.emitLoop start)
  observe (Compiler.patchJump leave)
  emit .pop

/-- The first clause of a counting loop. -/
def forInitializer (inside : Inside) : Observed Unit := do
  if ← matchMark .semicolon then
    return ()
  else if ← matchWord .varWord then
    inside.variableDeclaration
  else
    inside.expressionStatement

/-- The condition of a counting loop. -/
def forCondition (inside : Inside) : Observed (Option PendingJump) := do
  if ← matchMark .semicolon then
    return none
  else
    inside.expression
    consume .semicolon "';' after loop condition"
    let leave ← observe (Compiler.emitJump .jumpIfFalse)
    emit .pop
    return some leave

/-- The last clause of a counting loop. -/
def forIncrement (inside : Inside) (start : Nat) : Observed Nat := do
  if ← matchMark .rightParen then
    return start
  else
    let body ← observe (Compiler.emitJump .jump)
    let increment ← observe Compiler.codeSize
    inside.expression
    emit .pop
    consume .rightParen "')' after for clauses"
    observe (Compiler.emitLoop start)
    observe (Compiler.patchJump body)
    return increment

/-- A counting loop after its first word. -/
def forStatement (inside : Inside) : Observed Unit :=
  inBlock do
    consume .leftParen "'(' after 'for'"
    inside.forInitializer
    let start ← observe Compiler.codeSize
    let leave? ← inside.forCondition
    let again ← inside.forIncrement start
    inside.statement
    observe (Compiler.emitLoop again)
    match leave? with
    | none => pure ()
    | some leave => do
      observe (Compiler.patchJump leave)
      emit .pop

/-- A return statement after its first word. -/
def returnStatement (inside : Inside) : Observed Unit := do
  if ← matchMark .semicolon then
    observe Compiler.emitReturn
  else if (← observe (Compiler.look (·.draft.role))) = .initializer then
    observe (Compiler.fail .valueFromInitializer)
  else
    inside.expression
    consume .semicolon "';' after return value"
    emit .leave

/-- A statement. -/
def statementBody (inside : Inside) : Observed Unit := do
  if ← matchWord .printWord then
    inside.printStatement
  else if ← matchWord .ifWord then
    inside.ifStatement
  else if ← matchWord .whileWord then
    inside.whileStatement
  else if ← matchWord .forWord then
    inside.forStatement
  else if ← matchWord .returnWord then
    inside.returnStatement
  else if ← matchMark .leftBrace then
    inBlock inside.block
  else
    inside.expressionStatement

/-- A declaration or a statement. -/
def declarationBody (inside : Inside) : Observed Unit := do
  if ← matchWord .classWord then
    inside.classDeclaration
  else if ← matchWord .funWord then
    inside.functionDeclaration
  else if ← matchWord .varWord then
    inside.variableDeclaration
  else if ← matchWord .importWord then
    importDeclaration
  else
    inside.statement

/-- Code of a given form. -/
def body (inside : Inside) : CodeForm → Observed Unit
  | .declaration => inside.declarationBody
  | .statement => inside.statementBody

end Inside

/-- Code, after at most `calls` calls one inside another. -/
def codeAfter : Nat → CodeForm → Observed Unit
  | 0, _ => endless
  | calls + 1, form =>
    nested .codeTooDeep
      (Inside.body { operand := expressionAfter calls, code := codeAfter calls } form)

/-! ## Whole texts -/

/-- An expression statement of a text in evaluation mode, which gives its line. -/
def evaluatedStatement (calls : Nat) : Observed Nat := do
  whole (expressionAfter calls)
  let line ← observe (Compiler.look (·.previous.line))
  unless (← matchMark .semicolon) || (← atEnd) do
    observe (Compiler.failAtCurrent (.expected "';' after expression"))
  return line

/-- One statement or declaration of a text. -/
def topLevel (calls : Nat) (mode : CompileMode) (pending : Option Nat) :
    Observed (Bool × Option Nat) := do
  if ← atEnd then
    return (false, pending)
  else
    match pending with
    | some line => observe (Compiler.emitOn line .pop)
    | none => pure ()
    if mode = .eval ∧ (← observe Compiler.atExpressionStatement) then
      return (true, some (← evaluatedStatement calls))
    else
      codeAfter calls .declaration
      return (true, none)

/-- The code of a whole text. -/
def textCode (calls : Nat) (mode : CompileMode) : Observed Unit := do
  let pending ← loop (topLevel calls mode) none
  if pending.isSome then
    emit .leave
  else
    observe Compiler.emitReturn

/-- A whole text. -/
def script (calls : Nat) (mode : CompileMode) : Observed Unit := do
  textCode calls mode
  observe do
    let _ ← Compiler.finishFunction

end Observed

end ScriptEngine
