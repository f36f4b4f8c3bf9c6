import ScriptEngine.Proofs.Code.Stops

/-!
# What a listing prints

The line of an instruction is described from its operands, character by character
(`Instruction.printed`): numbers in decimal digits, a constant by its text, a module variable by
its name and a jump by the offset that it leads to.  Where the decoder finds a whole instruction,
the listing has this line and goes on behind the instruction (`Listing.line_of_complete`),
although it reads the operands for itself.
-/

namespace ScriptEngine

namespace Listing

/-- A text and as many blanks as fill a column. -/
def leftColumn (width : Nat) (text : String) : String :=
  text ++ String.ofList (List.replicate (width - text.length) ' ')

/-- Decimal digits behind as many blanks as fill a column. -/
def rightColumn (width number : Nat) : String :=
  String.ofList (List.replicate (width - (toString number).length) ' ') ++ toString number

/-- A number and the text that it stands for. -/
def quoted (number : Nat) (text : String) : String :=
  rightColumn 4 number ++ " '" ++ text ++ "'"

/-- The place of a jump and the place that it leads to. -/
def arrow (offset target : Nat) : String :=
  rightColumn 4 offset ++ " -> " ++ toString target

/-- The text of the constant at a position. -/
def textAt (heap : Heap) (chunk : Chunk) (index : Nat) : String :=
  chunk.constants[index]?.elim "<bad constant>" heap.display

/-- The name of the variable in a slot. -/
def nameAt (names : Array String) (slot : Nat) : String :=
  names[slot]?.getD "?"

end Listing

open Listing in
/-- How an instruction at an offset is printed, with the texts of constants and variables. -/
def Instruction.printed (texts names : Nat → String) (offset : Nat) (instruction : Instruction) :
    String :=
  let head := leftColumn 16 instruction.opcode.mnemonic ++ " "
  match instruction with
  | .constant index => head ++ quoted index.toNat (texts index.toNat)
  | .constantLong index | .makeClass index | .method index | .staticMethod index
  | .getProperty index | .setProperty index | .importModule index =>
    head ++ quoted index.toNat (texts index.toNat)
  | .getLocal operand | .setLocal operand | .call operand => head ++ rightColumn 4 operand.toNat
  | .getModule slot | .setModule slot | .defineModule slot =>
    head ++ quoted slot.toNat (names slot.toNat)
  | .jump distance | .jumpIfFalse distance => head ++ arrow offset (offset + 3 + distance.toNat)
  | .loop distance => head ++ arrow offset (offset + 3 - distance.toNat)
  | .invoke name argumentCount =>
    head ++ "(" ++ toString argumentCount.toNat ++ " args) " ++ quoted name.toNat (texts name.toNat)
  | bare => bare.opcode.mnemonic

namespace Listing

theorem constantOperand_eq (heap : Heap) (chunk : Chunk) (index : Nat) :
    constantOperand heap chunk index = quoted index (textAt heap chunk index) := by
  have text : constantText heap chunk index = textAt heap chunk index := by
    unfold constantText textAt
    rw [Chunk.constant?_eq_getElem?]
    rcases chunk.constants[index]? with _ | value <;> rfl
  rw [constantOperand, text]
  rfl

theorem variableOperand_eq (names : Array String) (slot : Nat) :
    variableOperand names slot = quoted slot (nameAt names slot) := by
  rw [variableOperand, Array.getD_eq_getD_getElem?]
  rfl

theorem jumpOperand_eq (offset target : Nat) : jumpOperand offset target = arrow offset target :=
  rfl

theorem column_eq (operation : Opcode) :
    column operation = leftColumn 16 operation.mnemonic ++ " " :=
  rfl

theorem decimal_eq (number : Nat) : Text.decimal number = toString number :=
  rfl

theorem rightAligned_eq (width number : Nat) :
    Text.rightAligned width number = rightColumn width number :=
  rfl

/-- The operands that the listing reads are those of the instruction whose bytes stand there. -/
theorem operationText?_of_bytes
    (heap : Heap)
    (chunk : Chunk)
    (names : Array String)
    {offset : Nat}
    {instruction : Instruction}
    (bytes :
      ∀ position, position < instruction.length →
        chunk.code[offset + position]? = instruction.bytes[position]?) :
    operationText? heap chunk names offset instruction.opcode =
      some (instruction.printed (textAt heap chunk) (nameAt names) offset) := by
  have word {operand : UInt16} {rest : List UInt8}
      (isWord : instruction.operandBytes = highByte operand :: lowByte operand :: rest) :
      chunk.readWord? (offset + 1) = some operand := by
    have long : 3 ≤ instruction.length := by
      rw [← Instruction.length_bytes, Instruction.bytes, isWord]
      simp
    have isHigh := bytes 1 (by omega)
    have isLow := bytes 2 (by omega)
    rw [Instruction.bytes, isWord] at isHigh isLow
    have read :
        chunk.readWord? (offset + 1) = some (joinBytes (highByte operand) (lowByte operand)) := by
      unfold Chunk.readWord?
      rw [show chunk.code[offset + 1]? = some (highByte operand) from isHigh,
        show chunk.code[offset + 1 + 1]? = some (lowByte operand) from isLow]
      rfl
    rw [read, joinBytes_highByte_lowByte]
  cases instruction with
  | constant operand =>
      have isOperand : chunk.code[offset + 1]? = some operand := bytes 1 (show 1 < 2 by decide)
      simp only [operationText?, Instruction.opcode, isOperand, Option.bind_eq_bind,
        Option.bind_some, column_eq, constantOperand_eq]
      rfl
  | getLocal operand | setLocal operand | call operand =>
      have isOperand : chunk.code[offset + 1]? = some operand := bytes 1 (show 1 < 2 by decide)
      simp only [operationText?, Instruction.opcode, isOperand, Option.bind_eq_bind,
        Option.bind_some, column_eq, rightAligned_eq]
      rfl
  | constantLong operand | makeClass operand | method operand | staticMethod operand
  | getProperty operand | setProperty operand | importModule operand =>
      simp only [operationText?, Instruction.opcode, word rfl, Option.bind_eq_bind,
        Option.bind_some, column_eq, constantOperand_eq]
      rfl
  | getModule operand | setModule operand | defineModule operand =>
      simp only [operationText?, Instruction.opcode, word rfl, Option.bind_eq_bind,
        Option.bind_some, column_eq, variableOperand_eq]
      rfl
  | jump operand | jumpIfFalse operand | loop operand =>
      simp only [operationText?, Instruction.opcode, word rfl, Option.bind_eq_bind,
        Option.bind_some, column_eq, jumpOperand_eq]
      rfl
  | invoke index argumentCount =>
      have isCount : chunk.code[offset + 3]? = some argumentCount := bytes 3 (show 3 < 4 by decide)
      have isIndex : chunk.readWord? (offset + 1) = some index := word rfl
      simp only [operationText?, Instruction.opcode, isIndex, isCount, Option.bind_eq_bind,
        Option.bind_some, column_eq, decimal_eq, constantOperand_eq]
      rfl
  | _ => rfl

/-- Where a whole instruction stands, it is printed and the listing goes on behind it. -/
theorem line_of_complete
    (heap : Heap)
    (chunk : Chunk)
    (names : Array String)
    {offset : Nat}
    {instruction : Instruction}
    (decoded : Instruction.decode chunk.code offset = .complete instruction) :
    line heap chunk names offset =
      (margin chunk offset ++ instruction.printed (textAt heap chunk) (nameAt names) offset,
        offset + instruction.length) := by
  have text :=
    operationText?_of_bytes heap chunk names (Instruction.bytes_of_decode decoded).2
  have isNext := (line_eq_next heap chunk names offset).trans (next_of_complete decoded)
  refine Prod.ext ?_ isNext
  unfold line line?
  rw [opcode_of_complete decoded]
  simp only [Option.bind_eq_bind, Option.bind_some, Opcode.ofByte?_toByte, text]
  rw [if_neg (not_isTruncated_of_complete decoded)]
  rfl

end Listing

end ScriptEngine
