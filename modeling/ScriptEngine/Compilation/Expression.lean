import ScriptEngine.Compilation.Precedence
import ScriptEngine.Compilation.Variable

/-!
# Compiling expressions

Expressions are compiled by operator precedence.  A form is compiled by a
function that receives a compiler for operands, which takes the least binding
power an operand must have.  `expressionWithin levels` closes the knot: it may
open at most `levels` operands inside one another and refuses to go deeper, so
the recursion ends on every input.

At the end of the input no token is read.  An operand that is begun there is
begun once more by the token before it, and an opening token therefore leads to
the refusal of too deep a nesting.
-/

namespace ScriptEngine.Compiler

/-- Compiles an operand of at least a given binding power. -/
abbrev OperandCompiler := Precedence → Compiler Unit

/-- Compiles any expression. -/
def whole (operand : OperandCompiler) : Compiler Unit :=
  operand .assignment

/-- Compiles a list of expressions, separated by commas, and what follows each of them. -/
def commaSeparated (operand : OperandCompiler) (afterEach : Nat → Compiler Unit) :
    Compiler Nat :=
  repeatWhile (fun count => do
    whole operand
    afterEach count
    return (← matchMark .comma, count + 1)) 0

/-- Largest number of arguments of a call. -/
def maxArguments : Nat := 255

/-- Compiles the arguments of a call and counts them. -/
def argumentList (operand : OperandCompiler) : Compiler UInt8 := do
  let count ←
    if ← atMark .rightParen then
      pure 0
    else
      commaSeparated operand fun count => do
        if count = maxArguments then
          fail .tooManyArguments
  consume .rightParen "')' after arguments"
  return UInt8.ofNat count

/-- Compiles a parenthesised expression after its opening mark. -/
def grouping (operand : OperandCompiler) : Compiler Unit := do
  whole operand
  consume .rightParen "')' after expression"

/--
Compiles an array literal after its opening mark: an empty array to which elements are pushed.
-/
def arrayLiteral (operand : OperandCompiler) : Compiler Unit := do
  let push ← nameIndex "push"
  emit (.getModule (UInt16.ofNat arraySlot))
  emit (.call 0)
  unless ← atMark .rightBracket do
    let _ ← commaSeparated operand fun _ => emit (.invoke push 1)
  consume .rightBracket "']' after array elements"

/-- Compiles the use of a name, or an assignment to it. -/
def namedVariable (operand : OperandCompiler) (name : String) (canAssign : Bool) :
    Compiler Unit := do
  let reference ← resolve name
  if ← (if canAssign then matchMark .equal else pure false) then
    reference.checkWritable
    whole operand
    emit reference.write
  else
    emit reference.read

/-- Compiles the use of the receiver. -/
def receiver : Compiler Unit := do
  if ← look (·.draft.role.hasReceiver) then
    emit (.getLocal 0)
  else if ← look (·.enclosing.any fun draft => draft.role.hasReceiver) then
    fail (.capture "this")
  else
    fail .thisOutsideClass

/-- Compiles a form at the beginning of an expression. -/
def leadingForm (operand : OperandCompiler) (canAssign : Bool) : LeadingForm → Compiler Unit
  | .grouping => grouping operand
  | .arrayLiteral => arrayLiteral operand
  | .unary operator => do
    operand .unary
    emit operator.instruction
  | .number value => emitConstant (.number value)
  | .string content => emitConstant (.string content)
  | .literal instruction => emit instruction
  | .named name => namedVariable operand name canAssign
  | .receiver => receiver

/-- Compiles the right operand of `and`, which is skipped if the left one fails. -/
def conjunction (operand : OperandCompiler) : Compiler Unit := do
  let skip ← emitJump .jumpIfFalse
  emit .pop
  operand .conjunction
  patchJump skip

/-- Compiles the right operand of `or`, which is skipped unless the left one fails. -/
def disjunction (operand : OperandCompiler) : Compiler Unit := do
  let otherwise ← emitJump .jumpIfFalse
  let skip ← emitJump .jump
  patchJump otherwise
  emit .pop
  operand .disjunction
  patchJump skip

/-- Compiles a property access, assignment or method call after the point. -/
def property (operand : OperandCompiler) (canAssign : Bool) : Compiler Unit := do
  let name ← consumeIdentifier "property name after '.'"
  let index ← nameIndex name
  if ← (if canAssign then matchMark .equal else pure false) then
    whole operand
    emit (.setProperty index)
  else if ← matchMark .leftParen then
    let count ← argumentList operand
    emit (.invoke index count)
  else
    emit (.getProperty index)

/-- Compiles a subscript or an assignment to one after the opening mark. -/
def subscript (operand : OperandCompiler) (canAssign : Bool) : Compiler Unit := do
  whole operand
  consume .rightBracket "']' after index"
  if ← (if canAssign then matchMark .equal else pure false) then
    whole operand
    emit .setIndex
  else
    emit .getIndex

/-- Compiles a form after an operand. -/
def trailingForm (operand : OperandCompiler) (canAssign : Bool) : TrailingForm → Compiler Unit
  | .binary operator => do
    operand operator.precedence.tighter
    emitAll operator.instructions
  | .conjunction => conjunction operand
  | .disjunction => disjunction operand
  | .call => do emit (.call (← argumentList operand))
  | .property => property operand canAssign
  | .subscript => subscript operand canAssign

/-- The form after an operand that begins here and binds tightly enough. -/
def nextTrailing? (least : Precedence) : Compiler (Option TrailingForm) :=
  look fun state =>
    state.current.kind.trailing?.filter fun form => least.rank ≤ form.precedence.rank

/-- Compiles an operand and the forms after it that bind tightly enough. -/
def operators (operand : OperandCompiler) (least : Precedence) : Compiler Unit := do
  advance
  match ← look (·.previous.kind.leading?) with
  | none => fail (.expected "expression")
  | some form =>
    let canAssign := decide (least = .assignment)
    leadingForm operand canAssign form
    repeatWhile (fun _ => do
      match ← nextTrailing? least with
      | none => return (false, ())
      | some form =>
        advance
        trailingForm operand canAssign form
        return (true, ())) ()
    if canAssign && (← atMark .equal) then
      failAtCurrent .invalidAssignmentTarget

/-- Compiles an operand with at most `levels` operands inside one another. -/
def expressionWithin : Nat → OperandCompiler
  | 0, _ => failAtCurrent .expressionTooDeep
  | levels + 1, least => operators (expressionWithin levels) least

end ScriptEngine.Compiler
