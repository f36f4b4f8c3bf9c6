import ScriptEngine.Compilation.Expression
import ScriptEngine.Proofs.Code.Encoding
import ScriptEngine.Proofs.Syntax.Tree

/-!
# The code of a syntax tree

`Expr.code` writes the code of an expression bottom up: operands first, then
the instruction of the node.  Constants and module variables get their
positions in the order in which the tree mentions them.  There is no code where
a limit is exceeded or a name cannot be used.
-/

namespace ScriptEngine.Syntax

/-- What the names of an expression can refer to. -/
structure Surroundings where
  /-- The local variables of the present function. -/
  scope : Scope
  /-- The functions around the present one. -/
  enclosing : List Draft
  /-- What kind of function the code belongs to. -/
  role : Role

/-- What the code of an expression adds to: constants and module variables. -/
structure Resources where
  pool : Chunk
  table : Module

/-- A part of the code generator, which may find no code. -/
abbrev Generator := StateT Resources Option

namespace Generator

/-- Ends without code. -/
def refuse : Generator α :=
  fun _ => none

/-- Goes on only if a condition holds. -/
def require (condition : Bool) : Generator Unit :=
  if condition then pure () else refuse

/-- The pool position of a constant. -/
def constantIndex (value : Value) : Generator Nat :=
  fun resources =>
    match resources.pool.addConstant (.ofValue value) with
    | (.ok index, pool) => some (index, { resources with pool })
    | (.error _, _) => none

/-- The pool position of a name. -/
def nameIndex (name : String) : Generator UInt16 := do
  return UInt16.ofNat (← constantIndex (.string name))

/-- The instruction that pushes the constant at a position. -/
def pushConstant (index : Nat) : Instruction :=
  if index < 256 then .constant (UInt8.ofNat index) else .constantLong (UInt16.ofNat index)

/-- The instruction that pushes a constant. -/
def constant (value : Value) : Generator Instruction := do
  return pushConstant (← constantIndex value)

/-- The slot of a module variable. -/
def moduleSlot (name : String) : Generator Nat :=
  fun resources =>
    match resources.table.declare name with
    | (some slot, table) => some (slot, { resources with table })
    | (none, _) => none

/-- What a name refers to. -/
def reference (surroundings : Surroundings) (name : String) : Generator Compiler.Reference :=
  match surroundings.scope.resolve name with
  | .error _ => refuse
  | .ok (some slot) => return .localSlot slot
  | .ok none => do
    require !(surroundings.enclosing.any fun draft => draft.scope.contains name)
    return .moduleSlot (← moduleSlot name)

/-- Whether a reference may be assigned in a module. -/
def writable (table : Module) : Compiler.Reference → Bool
  | .localSlot _ => true
  | .moduleSlot slot =>
    !(slot == Compiler.arraySlot && table.variableName? slot == some "Array")

/-- Refuses to assign the class `Array`. -/
def requireWritable (reference : Compiler.Reference) : Generator Unit :=
  fun resources => if writable resources.table reference then some ((), resources) else none

/-- A jump over instructions. -/
def jumpOver (jump : ForwardJump) (skipped : List Instruction) : Generator Instruction := do
  require (Instruction.totalLength skipped ≤ Chunk.maxDistance)
  return jump.past (UInt16.ofNat (Instruction.totalLength skipped))

/-- The instruction of an operator with one operand. -/
def unaryInstruction : UnaryOperator → Instruction
  | .negative => .negate
  | .complement => .negateTruth

/-- The instructions of an operator with two operands: three comparisons negate another one. -/
def binaryInstructions : BinaryOperator → List Instruction
  | .plus => [.add]
  | .minus => [.subtract]
  | .times => [.multiply]
  | .dividedBy => [.divide]
  | .remainder => [.modulo]
  | .equal => [.equal]
  | .notEqual => [.equal, .negateTruth]
  | .less => [.less]
  | .greaterEqual => [.less, .negateTruth]
  | .greater => [.greater]
  | .lessEqual => [.greater, .negateTruth]

@[simp]
theorem unaryInstruction_eq (operator : UnaryOperator) :
    unaryInstruction operator = operator.instruction := by
  cases operator <;> rfl

@[simp]
theorem binaryInstructions_eq (operator : BinaryOperator) :
    binaryInstructions operator = operator.instructions := by
  cases operator <;> rfl

end Generator

open Generator

mutual

/-- The code of an expression. -/
def Expr.code (surroundings : Surroundings) : Expr → Generator (List Instruction)
  | .number value => do return [← constant (.number value)]
  | .string content => do return [← constant (.string content)]
  | .literal word => return [word.instruction]
  | .named name => do return [(← reference surroundings name).read]
  | .receiver => do
    require surroundings.role.hasReceiver
    return [.getLocal 0]
  | .grouping inner => inner.code surroundings
  | .array elements => do
    let push ← nameIndex "push"
    let filling ← itemsCode surroundings [.invoke push 1] elements
    return .getModule (UInt16.ofNat Compiler.arraySlot) :: .call 0 :: filling
  | .unary operator operand => do
    let operandCode ← operand.code surroundings
    return operandCode ++ [unaryInstruction operator]
  | .binary operator left right => do
    let leftCode ← left.code surroundings
    let rightCode ← right.code surroundings
    return leftCode ++ rightCode ++ binaryInstructions operator
  | .conjunction left right => do
    let leftCode ← left.code surroundings
    let rightCode ← right.code surroundings
    let skip ← jumpOver .ifFalse (.pop :: rightCode)
    return leftCode ++ skip :: .pop :: rightCode
  | .disjunction left right => do
    let leftCode ← left.code surroundings
    let rightCode ← right.code surroundings
    let skip ← jumpOver .always (.pop :: rightCode)
    return leftCode ++ .jumpIfFalse 3 :: skip :: .pop :: rightCode
  | .call callee arguments => do
    let calleeCode ← callee.code surroundings
    let argumentCode ← itemsCode surroundings [] arguments
    require (arguments.length ≤ Compiler.maxArguments)
    return calleeCode ++ argumentCode ++ [.call (UInt8.ofNat arguments.length)]
  | .property owner name => do
    let ownerCode ← owner.code surroundings
    let index ← nameIndex name
    return ownerCode ++ [.getProperty index]
  | .invocation owner name arguments => do
    let ownerCode ← owner.code surroundings
    let index ← nameIndex name
    let argumentCode ← itemsCode surroundings [] arguments
    require (arguments.length ≤ Compiler.maxArguments)
    return ownerCode ++ argumentCode ++ [.invoke index (UInt8.ofNat arguments.length)]
  | .subscript owner index => do
    let ownerCode ← owner.code surroundings
    let indexCode ← index.code surroundings
    return ownerCode ++ indexCode ++ [.getIndex]
  | .assignName name value => do
    let target ← reference surroundings name
    requireWritable target
    let valueCode ← value.code surroundings
    return valueCode ++ [target.write]
  | .assignProperty owner name value => do
    let ownerCode ← owner.code surroundings
    let index ← nameIndex name
    let valueCode ← value.code surroundings
    return ownerCode ++ valueCode ++ [.setProperty index]
  | .assignSubscript owner index value => do
    let ownerCode ← owner.code surroundings
    let indexCode ← index.code surroundings
    let valueCode ← value.code surroundings
    return ownerCode ++ indexCode ++ valueCode ++ [.setIndex]

/-- The code of expressions one after the other, with the same instructions after each. -/
def itemsCode (surroundings : Surroundings) (suffix : List Instruction) :
    List Expr → Generator (List Instruction)
  | [] => return []
  | first :: rest => do
    let firstCode ← first.code surroundings
    let restCode ← itemsCode surroundings suffix rest
    return firstCode ++ suffix ++ restCode

end

end ScriptEngine.Syntax
