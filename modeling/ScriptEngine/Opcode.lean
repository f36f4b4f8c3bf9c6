/-!
# Operation codes

The operations of the virtual machine in the order of their byte codes, their
mnemonics and the widths of their operands.
-/

namespace ScriptEngine

/-- Operations of the virtual machine, in the order of their byte codes. -/
inductive Opcode where
  | constant
  | constantLong
  | pushNull
  | pushTrue
  | pushFalse
  | pop
  | getLocal
  | setLocal
  | getModule
  | setModule
  | defineModule
  | equal
  | greater
  | less
  | add
  | subtract
  | multiply
  | divide
  | modulo
  | negateTruth
  | negate
  | print
  | jump
  | jumpIfFalse
  | loop
  | call
  | invoke
  | leave
  | makeClass
  | method
  | staticMethod
  | getProperty
  | setProperty
  | getIndex
  | setIndex
  | importModule
deriving Repr, DecidableEq, Inhabited

/-- The operands that follow an operation code. -/
inductive OperandShape where
  | nothing
  | byte
  | word
  | wordThenByte
deriving Repr, DecidableEq

/-- Number of operand bytes. -/
def OperandShape.width : OperandShape → Nat
  | nothing => 0
  | byte => 1
  | word => 2
  | wordThenByte => 3

namespace Opcode

/-- All operations in the order of their byte codes. -/
def all : Array Opcode :=
  #[constant, constantLong, pushNull, pushTrue, pushFalse, pop, getLocal, setLocal, getModule,
    setModule, defineModule, equal, greater, less, add, subtract, multiply, divide, modulo,
    negateTruth, negate, print, jump, jumpIfFalse, loop, call, invoke, leave, makeClass, method,
    staticMethod, getProperty, setProperty, getIndex, setIndex, importModule]

/-- The byte code of an operation. -/
def toByte (operation : Opcode) : UInt8 :=
  UInt8.ofNat operation.ctorIdx

/-- The operation with a given byte code. -/
def ofByte? (byte : UInt8) : Option Opcode :=
  all[byte.toNat]?

@[simp]
theorem ofByte?_toByte (operation : Opcode) : ofByte? operation.toByte = some operation := by
  cases operation <;> rfl

/-- The operands of an operation. -/
def operands : Opcode → OperandShape
  | constant | getLocal | setLocal | call => .byte
  | constantLong | getModule | setModule | defineModule | jump | jumpIfFalse | loop | makeClass
  | method | staticMethod | getProperty | setProperty | importModule => .word
  | invoke => .wordThenByte
  | _ => .nothing

/-- Number of operand bytes of an operation. -/
def operandWidth (operation : Opcode) : Nat :=
  operation.operands.width

/-- The name of an operation in listings. -/
def mnemonic : Opcode → String
  | constant => "CONSTANT"
  | constantLong => "CONSTANT_LONG"
  | pushNull => "NULL"
  | pushTrue => "TRUE"
  | pushFalse => "FALSE"
  | pop => "POP"
  | getLocal => "GET_LOCAL"
  | setLocal => "SET_LOCAL"
  | getModule => "GET_MODULE"
  | setModule => "SET_MODULE"
  | defineModule => "DEFINE_MODULE"
  | equal => "EQUAL"
  | greater => "GREATER"
  | less => "LESS"
  | add => "ADD"
  | subtract => "SUBTRACT"
  | multiply => "MULTIPLY"
  | divide => "DIVIDE"
  | modulo => "MODULO"
  | negateTruth => "NOT"
  | negate => "NEGATE"
  | print => "PRINT"
  | jump => "JUMP"
  | jumpIfFalse => "JUMP_IF_FALSE"
  | loop => "LOOP"
  | call => "CALL"
  | invoke => "INVOKE"
  | leave => "RETURN"
  | makeClass => "CLASS"
  | method => "METHOD"
  | staticMethod => "STATIC_METHOD"
  | getProperty => "GET_PROPERTY"
  | setProperty => "SET_PROPERTY"
  | getIndex => "GET_INDEX"
  | setIndex => "SET_INDEX"
  | importModule => "IMPORT_MODULE"

/-- The operation with a given name in listings. -/
def ofMnemonic? (name : String) : Option Opcode :=
  all.find? fun operation => operation.mnemonic == name

end Opcode

end ScriptEngine
