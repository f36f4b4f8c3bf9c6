import ScriptEngine.Opcode

/-!
# Instructions

An instruction is an operation with its operands.  Its byte form is the byte
code followed by the operands, a two-byte operand with its high byte first.

`Instruction.decode` reads the instruction at an offset of a code, as it is
done when the code is executed.  `Instruction.decode_append` says that decoding
inverts encoding at any place in any code.
-/

namespace ScriptEngine

/-- An operation with its operands. -/
inductive Instruction where
  | constant (index : UInt8)
  | constantLong (index : UInt16)
  | pushNull
  | pushTrue
  | pushFalse
  | pop
  | getLocal (slot : UInt8)
  | setLocal (slot : UInt8)
  | getModule (slot : UInt16)
  | setModule (slot : UInt16)
  | defineModule (slot : UInt16)
  | equal
  | greater
  | less
  | add
  | subtract
  | multiply
  | divide
  | modulo
  | negateTruth
  | negate
  | print
  | jump (distance : UInt16)
  | jumpIfFalse (distance : UInt16)
  | loop (distance : UInt16)
  | call (argumentCount : UInt8)
  | invoke (name : UInt16) (argumentCount : UInt8)
  | leave
  | makeClass (name : UInt16)
  | method (name : UInt16)
  | staticMethod (name : UInt16)
  | getProperty (name : UInt16)
  | setProperty (name : UInt16)
  | getIndex
  | setIndex
  | importModule (name : UInt16)
deriving Repr, DecidableEq, Inhabited

/-- The two-byte number with the given high and low byte. -/
def joinBytes (high low : UInt8) : UInt16 :=
  UInt16.ofNat (high.toNat * 256 + low.toNat)

/-- The high byte of a two-byte number. -/
def highByte (word : UInt16) : UInt8 :=
  UInt8.ofNat (word.toNat / 256)

/-- The low byte of a two-byte number. -/
def lowByte (word : UInt16) : UInt8 :=
  UInt8.ofNat (word.toNat % 256)

@[simp]
theorem joinBytes_highByte_lowByte (word : UInt16) :
    joinBytes (highByte word) (lowByte word) = word := by
  apply UInt16.toNat_inj.1
  have bound : word.toNat < 65536 := UInt16.toNat_lt word
  simp only [joinBytes, highByte, lowByte, UInt8.toNat_ofNat', UInt16.toNat_ofNat']
  omega

namespace Instruction

/-- The operation of an instruction. -/
def opcode : Instruction → Opcode
  | constant _ => .constant
  | constantLong _ => .constantLong
  | pushNull => .pushNull
  | pushTrue => .pushTrue
  | pushFalse => .pushFalse
  | pop => .pop
  | getLocal _ => .getLocal
  | setLocal _ => .setLocal
  | getModule _ => .getModule
  | setModule _ => .setModule
  | defineModule _ => .defineModule
  | equal => .equal
  | greater => .greater
  | less => .less
  | add => .add
  | subtract => .subtract
  | multiply => .multiply
  | divide => .divide
  | modulo => .modulo
  | negateTruth => .negateTruth
  | negate => .negate
  | print => .print
  | jump _ => .jump
  | jumpIfFalse _ => .jumpIfFalse
  | loop _ => .loop
  | call _ => .call
  | invoke _ _ => .invoke
  | leave => .leave
  | makeClass _ => .makeClass
  | method _ => .method
  | staticMethod _ => .staticMethod
  | getProperty _ => .getProperty
  | setProperty _ => .setProperty
  | getIndex => .getIndex
  | setIndex => .setIndex
  | importModule _ => .importModule

/-- The operand bytes of an instruction. -/
def operandBytes : Instruction → List UInt8
  | constant operand | getLocal operand | setLocal operand | call operand => [operand]
  | constantLong operand | getModule operand | setModule operand | defineModule operand
  | jump operand | jumpIfFalse operand | loop operand | makeClass operand | method operand
  | staticMethod operand | getProperty operand | setProperty operand | importModule operand =>
    [highByte operand, lowByte operand]
  | invoke name argumentCount => [highByte name, lowByte name, argumentCount]
  | _ => []

/-- The byte form of an instruction. -/
def bytes (instruction : Instruction) : List UInt8 :=
  instruction.opcode.toByte :: instruction.operandBytes

/-- Number of bytes of an instruction. -/
def length (instruction : Instruction) : Nat :=
  1 + instruction.opcode.operandWidth

theorem length_operandBytes (instruction : Instruction) :
    instruction.operandBytes.length = instruction.opcode.operandWidth := by
  cases instruction <;> rfl

@[simp]
theorem length_bytes (instruction : Instruction) :
    instruction.bytes.length = instruction.length := by
  simp [bytes, length, length_operandBytes, Nat.add_comm]

/-- The instruction of an operation without operands. -/
def ofBare? : Opcode → Option Instruction
  | .pushNull => some pushNull
  | .pushTrue => some pushTrue
  | .pushFalse => some pushFalse
  | .pop => some pop
  | .equal => some equal
  | .greater => some greater
  | .less => some less
  | .add => some add
  | .subtract => some subtract
  | .multiply => some multiply
  | .divide => some divide
  | .modulo => some modulo
  | .negateTruth => some negateTruth
  | .negate => some negate
  | .print => some print
  | .leave => some leave
  | .getIndex => some getIndex
  | .setIndex => some setIndex
  | _ => none

/-- The instruction of an operation with one operand byte. -/
def ofByteOperand? (operand : UInt8) : Opcode → Option Instruction
  | .constant => some (constant operand)
  | .getLocal => some (getLocal operand)
  | .setLocal => some (setLocal operand)
  | .call => some (call operand)
  | _ => none

/-- The instruction of an operation with a two-byte operand. -/
def ofWordOperand? (operand : UInt16) : Opcode → Option Instruction
  | .constantLong => some (constantLong operand)
  | .getModule => some (getModule operand)
  | .setModule => some (setModule operand)
  | .defineModule => some (defineModule operand)
  | .jump => some (jump operand)
  | .jumpIfFalse => some (jumpIfFalse operand)
  | .loop => some (loop operand)
  | .makeClass => some (makeClass operand)
  | .method => some (method operand)
  | .staticMethod => some (staticMethod operand)
  | .getProperty => some (getProperty operand)
  | .setProperty => some (setProperty operand)
  | .importModule => some (importModule operand)
  | _ => none

/-- The instruction of an operation with a two-byte operand and one more byte. -/
def ofWordAndByte? (word : UInt16) (operand : UInt8) : Opcode → Option Instruction
  | .invoke => some (invoke word operand)
  | _ => none

/-- What stands at an offset of a code. -/
inductive Decoding where
  /-- A whole instruction. -/
  | complete (instruction : Instruction)
  /-- A byte that is no operation code. -/
  | unknown (byte : UInt8)
  /-- An operation whose operands run past the end of the code. -/
  | truncated (operation : Opcode)
  /-- Nothing, the offset is not in the code. -/
  | outside
deriving Repr, DecidableEq

/-- Reads the operands of the operation at an offset. -/
def decodeOperands? (code : Array UInt8) (offset : Nat) (operation : Opcode) :
    Option Instruction :=
  match operation.operands with
  | .nothing => ofBare? operation
  | .byte => do
    let operand ← code[offset + 1]?
    ofByteOperand? operand operation
  | .word => do
    let high ← code[offset + 1]?
    let low ← code[offset + 2]?
    ofWordOperand? (joinBytes high low) operation
  | .wordThenByte => do
    let high ← code[offset + 1]?
    let low ← code[offset + 2]?
    let operand ← code[offset + 3]?
    ofWordAndByte? (joinBytes high low) operand operation

/-- Reads the instruction at an offset. -/
def decode (code : Array UInt8) (offset : Nat) : Decoding :=
  match code[offset]? with
  | none => .outside
  | some byte =>
    match Opcode.ofByte? byte with
    | none => .unknown byte
    | some operation =>
      match decodeOperands? code offset operation with
      | some instruction => .complete instruction
      | none => .truncated operation

/-- Decoding gives back an instruction wherever its bytes stand. -/
theorem decode_append
    (before after : List UInt8)
    (instruction : Instruction) :
    decode (before ++ instruction.bytes ++ after).toArray before.length =
      .complete instruction := by
  have byteAt :
      ∀ position : Nat,
        position < instruction.bytes.length →
          (before ++ instruction.bytes ++ after).toArray[before.length + position]? =
            instruction.bytes[position]? := by
    intro position inside
    simp only [List.getElem?_toArray, List.append_assoc]
    rw [List.getElem?_append_right (Nat.le_add_right _ _), Nat.add_sub_cancel_left,
      List.getElem?_append_left inside]
  have first := byteAt 0
  have second := byteAt 1
  have third := byteAt 2
  have fourth := byteAt 3
  clear byteAt
  cases instruction <;>
    simp_all [decode, decodeOperands?, bytes, opcode, operandBytes, Opcode.operands, ofBare?,
      ofByteOperand?, ofWordOperand?, ofWordAndByte?]

end Instruction

end ScriptEngine
