import ScriptEngine.Compilation.Scope
import ScriptEngine.Module

/-!
# The state of a compilation

Compilation reads the tokens once and writes code as it goes.  Its state holds
the tokens and the present place among them, the table of the module that is
being compiled, and a draft of every function that has been begun and not
finished.
A finished function gets the next free position in the heap.

A step of the compilation either succeeds or stops with an error; the state
survives an error, because names that were declared before it stay declared.
-/

namespace ScriptEngine

/-- What kind of code a draft is for. -/
inductive Role where
  /-- The body of a module. -/
  | script
  | function
  | method
  | initializer
  | staticMethod
deriving Repr, DecidableEq

/-- Whether slot zero holds a receiver. -/
def Role.hasReceiver : Role → Bool
  | method | initializer | staticMethod => true
  | script | function => false

/-- A function that has been begun and not finished. -/
structure Draft where
  name : Option String
  role : Role
  arity : Nat
  chunk : Chunk
  scope : Scope

/-- An empty draft. -/
def Draft.blank (name : Option String) (role : Role) : Draft :=
  { name, role, arity := 0, chunk := {},
    scope := Scope.reserving (if role.hasReceiver then "this" else "") }

/-- The state of a compilation. -/
structure Compilation where
  /-- The tokens of the text, the last of which is the end of the input. -/
  tokens : Array Token
  /-- Number of tokens that have been read. -/
  position : Nat
  /-- The variables of the module. -/
  table : Module
  /-- The position of the module in the registry. -/
  home : Nat
  /-- The function that is being compiled. -/
  draft : Draft
  /-- The functions around it, innermost first. -/
  enclosing : List Draft
  /-- Number of functions in the heap when the compilation began. -/
  firstFunction : Nat
  /-- The functions finished since. -/
  finished : Array Function

namespace Compilation

/-- The token to be read next. -/
def current (state : Compilation) : Token :=
  state.tokens.getD state.position default

/-- The token that was read last; at the beginning, the first token. -/
def previous (state : Compilation) : Token :=
  state.tokens.getD (state.position - 1) default

/-- Number of tokens that have not been read. -/
def remaining (state : Compilation) : Nat :=
  state.tokens.size - state.position

/-- Reads a token; at the end of the input it stays where it is. -/
def advance (state : Compilation) : Compilation :=
  if state.current.kind.isEnd then state else { state with position := state.position + 1 }

end Compilation

/-- A step of a compilation. -/
abbrev Compiler := ExceptT CompileError (StateM Compilation)

namespace Compiler

/-- Looks at the state. -/
@[inline]
def look (view : Compilation → α) : Compiler α :=
  fun state => (.ok (view state), state)

/-- Changes the state. -/
@[inline]
def change (step : Compilation → Compilation) : Compiler Unit :=
  fun state => (.ok (), step state)

/-- Stops with a problem at a token. -/
def failAt (token : Token) (problem : CompileProblem) : Compiler α :=
  fun state =>
    (.error
      { moduleName := state.table.name, line := token.line,
        place := CompilePlace.ofToken token, problem }, state)

/-- Stops with a problem at the token that was read last. -/
def fail (problem : CompileProblem) : Compiler α := do
  failAt (← look (·.previous)) problem

/-- Stops with a problem at the token to be read next. -/
def failAtCurrent (problem : CompileProblem) : Compiler α := do
  failAt (← look (·.current)) problem

/-! ## Tokens -/

/-- Reads a token; at the end of the input it stays where it is. -/
def advance : Compiler Unit :=
  change Compilation.advance

/-- Whether the next token is a given mark. -/
def atMark (mark : Punctuation) : Compiler Bool :=
  look fun state => state.current.kind.isMark mark

/-- Whether the input has ended. -/
def atEnd : Compiler Bool :=
  look fun state => state.current.kind.isEnd

/-- Reads the next token if it satisfies a test. -/
def matchKind (test : TokenKind → Bool) : Compiler Bool := do
  if ← look fun state => test state.current.kind then
    advance
    return true
  else
    return false

/-- Reads the next token if it is a given mark. -/
def matchMark (mark : Punctuation) : Compiler Bool :=
  matchKind (TokenKind.isMark mark)

/-- Reads the next token if it is a given word. -/
def matchWord (word : Keyword) : Compiler Bool :=
  matchKind (TokenKind.isWord word)

/-- Reads a mark that must stand here. -/
def consume (mark : Punctuation) (what : String) : Compiler Unit := do
  unless ← matchMark mark do
    failAtCurrent (.expected what)

/-- Reads an identifier that must stand here. -/
def consumeIdentifier (what : String) : Compiler String := do
  match ← look (·.current.kind) with
  | .identifier name =>
    advance
    return name
  | _ => failAtCurrent (.expected what)

/-- Repeats a step that says whether to go on, at most `bound` times. -/
def repeatAtMost (round : α → Compiler (Bool × α)) : Nat → α → Compiler α
  | 0, result => return result
  | bound + 1, start => do
    let (goesOn, result) ← round start
    if goesOn then repeatAtMost round bound result else return result

/--
Repeats a step that says whether to go on.  Every round but the last reads at
least one token, so the tokens that have not been read bound the rounds.
-/
def repeatWhile (round : α → Compiler (Bool × α)) (start : α) : Compiler α :=
  fun state => repeatAtMost round (state.remaining + 1) start state

/-! ## Code -/

/-- Changes the chunk of the present function. -/
@[inline]
def changeChunk (step : Chunk → Chunk) : Compiler Unit :=
  change fun state =>
    { state with draft := { state.draft with chunk := step state.draft.chunk } }

/-- Changes the scope of the present function. -/
@[inline]
def changeScope (step : Scope → Scope) : Compiler Unit :=
  change fun state =>
    { state with draft := { state.draft with scope := step state.draft.scope } }

/-- Changes the chunk of the present function in a way that can run into a limit. -/
@[inline]
def limitedChunk (step : Chunk → Except ChunkLimit α × Chunk) : Compiler α := do
  let result ← (fun state =>
    let (result, chunk) := step state.draft.chunk
    (.ok result, { state with draft := { state.draft with chunk } }) :
    Compiler (Except ChunkLimit α))
  match result with
  | .ok value => return value
  | .error limit => fail (.limit limit)

/-- Appends an instruction that comes from a given line. -/
def emitOn (line : Nat) (instruction : Instruction) : Compiler Unit :=
  changeChunk fun chunk => chunk.emit instruction line

/-- Appends an instruction that comes from the token that was read last. -/
def emit (instruction : Instruction) : Compiler Unit := do
  emitOn (← look (·.previous.line)) instruction

/-- Appends instructions that come from the token that was read last. -/
def emitAll (instructions : List Instruction) : Compiler Unit :=
  instructions.forM emit

/-- Number of bytes written so far. -/
def codeSize : Compiler Nat :=
  look (·.draft.chunk.code.size)

/-- Appends a forward jump whose target is not known yet. -/
def emitJump (operation : Opcode) : Compiler PendingJump := do
  let line ← look (·.previous.line)
  fun state =>
    let (pending, chunk) := state.draft.chunk.emitJump operation line
    (.ok pending, { state with draft := { state.draft with chunk } })

/-- Lets a jump lead to the present end of the code. -/
def patchJump (pending : PendingJump) : Compiler Unit :=
  limitedChunk fun chunk => chunk.patchJump pending

/-- Appends a backward jump. -/
def emitLoop (start : Nat) : Compiler Unit := do
  let line ← look (·.previous.line)
  limitedChunk fun chunk => chunk.emitLoop start line

/-- The pool position of a constant. -/
def constantIndex (value : Value) : Compiler Nat :=
  limitedChunk fun chunk => chunk.addConstant (.ofValue value)

/-- The pool position of a name. -/
def nameIndex (name : String) : Compiler UInt16 := do
  return UInt16.ofNat (← constantIndex (.string name))

/-- Appends an instruction that pushes a constant. -/
def emitConstant (value : Value) : Compiler Unit := do
  let index ← constantIndex value
  if index < 256 then
    emit (.constant (UInt8.ofNat index))
  else
    emit (.constantLong (UInt16.ofNat index))

/-- Appends a return without a value; an initialiser returns its receiver. -/
def emitReturn : Compiler Unit := do
  if (← look (·.draft.role)) = .initializer then
    emit (.getLocal 0)
  else
    emit .pushNull
  emit .leave

/-! ## Blocks and functions -/

/-- Enters a block. -/
def enterBlock : Compiler Unit :=
  changeScope Scope.enter

/-- Leaves a block and pops its variables. -/
def leaveBlock : Compiler Unit := do
  let count ← (fun state =>
    let (count, scope) := state.draft.scope.leave
    (.ok count, { state with draft := { state.draft with scope } }) : Compiler Nat)
  emitAll (List.replicate count .pop)

/-- Begins a function inside the present one. -/
def beginFunction (name : String) (role : Role) : Compiler Unit :=
  change fun state =>
    { state with
      draft := Draft.blank (some name) role
      enclosing := state.draft :: state.enclosing }

/-- Finishes the present function, gives it a position and goes back to the one around it. -/
def finishFunction : Compiler Nat :=
  fun state =>
    let function : Function :=
      { name := state.draft.name, arity := state.draft.arity, chunk := state.draft.chunk,
        home := state.home }
    let id := state.firstFunction + state.finished.size
    match state.enclosing with
    | [] => (.ok id, { state with finished := state.finished.push function })
    | outer :: rest =>
      (.ok id,
        { state with
          draft := outer
          enclosing := rest
          finished := state.finished.push function })

end Compiler

end ScriptEngine
