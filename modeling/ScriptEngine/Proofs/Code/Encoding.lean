import Mathlib
import ScriptEngine.Chunk

/-!
# Code as a sequence of instructions

The bytes of a chunk are the byte forms of instructions, one after the other.
This module states every change of the code at the level of instructions:
appending an instruction, appending a jump whose distance is still open,
closing such a jump, and appending a backward jump.

A jump that is still open stands in the code with the greatest distance as a
placeholder.  Closing it replaces the instruction and nothing else.
-/

namespace ScriptEngine

namespace Instruction

/-- The byte form of a sequence of instructions. -/
def encode (instructions : List Instruction) : List UInt8 :=
  instructions.flatMap bytes

/-- Number of bytes of a sequence of instructions. -/
def totalLength (instructions : List Instruction) : Nat :=
  (instructions.map length).sum

@[simp]
theorem encode_nil : encode [] = [] := rfl

@[simp]
theorem encode_cons (instruction : Instruction) (rest : List Instruction) :
    encode (instruction :: rest) = instruction.bytes ++ encode rest := rfl

@[simp]
theorem encode_append (first second : List Instruction) :
    encode (first ++ second) = encode first ++ encode second :=
  List.flatMap_append

@[simp]
theorem totalLength_nil : totalLength [] = 0 := rfl

@[simp]
theorem totalLength_cons (instruction : Instruction) (rest : List Instruction) :
    totalLength (instruction :: rest) = instruction.length + totalLength rest := rfl

@[simp]
theorem totalLength_append (first second : List Instruction) :
    totalLength (first ++ second) = totalLength first + totalLength second := by
  simp [totalLength]

@[simp]
theorem length_encode (instructions : List Instruction) :
    (encode instructions).length = totalLength instructions := by
  induction instructions with
  | nil => rfl
  | cons instruction rest induction => simp [induction]

theorem length_pos (instruction : Instruction) : 0 < instruction.length :=
  Nat.lt_add_right _ Nat.one_pos

/-- An instruction of an encoded sequence is what decoding finds at its offset. -/
theorem decode_encode
    {code : Array UInt8}
    {before after : List Instruction}
    {instruction : Instruction}
    (encoded : code.toList = encode (before ++ instruction :: after)) :
    decode code (totalLength before) = .complete instruction := by
  have whole : code = (encode before ++ instruction.bytes ++ encode after).toArray := by
    apply Array.toList_inj.mp
    simp [encoded]
  rw [whole, ← length_encode before]
  exact decode_append (encode before) (encode after) instruction

end Instruction

/-- The jumps whose distance is filled in later. -/
inductive ForwardJump where
  | always
  | ifFalse
deriving Repr, DecidableEq

namespace ForwardJump

/-- The operation of a jump. -/
def opcode : ForwardJump → Opcode
  | always => .jump
  | ifFalse => .jumpIfFalse

/-- A jump over a distance. -/
def past : ForwardJump → UInt16 → Instruction
  | always, distance => .jump distance
  | ifFalse, distance => .jumpIfFalse distance

@[simp]
theorem length_past (jump : ForwardJump) (distance : UInt16) :
    (jump.past distance).length = 3 := by
  cases jump <;> rfl

theorem bytes_past (jump : ForwardJump) (distance : UInt16) :
    (jump.past distance).bytes =
      [jump.opcode.toByte, highByte distance, lowByte distance] := by
  cases jump <;> rfl

end ForwardJump

namespace Chunk

/-- The constants of a chunk without its code. -/
def pool (chunk : Chunk) : Chunk :=
  { chunk with code := #[], runs := [] }

@[simp]
theorem code_write (chunk : Chunk) (byte : UInt8) (line : Nat) :
    (chunk.write byte line).code = chunk.code.push byte := rfl

@[simp]
theorem pool_write (chunk : Chunk) (byte : UInt8) (line : Nat) :
    (chunk.write byte line).pool = chunk.pool := rfl

@[simp]
theorem toList_code_writeAll (chunk : Chunk) (bytes : List UInt8) (line : Nat) :
    (chunk.writeAll bytes line).code.toList = chunk.code.toList ++ bytes := by
  induction bytes generalizing chunk with
  | nil => simp [writeAll]
  | cons byte rest induction =>
      have tail := induction (chunk.write byte line)
      simp only [writeAll, List.foldl_cons] at tail ⊢
      rw [tail]
      simp

@[simp]
theorem pool_writeAll (chunk : Chunk) (bytes : List UInt8) (line : Nat) :
    (chunk.writeAll bytes line).pool = chunk.pool := by
  induction bytes generalizing chunk with
  | nil => rfl
  | cons byte rest induction => exact induction (chunk.write byte line)

@[simp]
theorem toList_code_emit (chunk : Chunk) (instruction : Instruction) (line : Nat) :
    (chunk.emit instruction line).code.toList = chunk.code.toList ++ instruction.bytes :=
  toList_code_writeAll chunk instruction.bytes line

@[simp]
theorem pool_emit (chunk : Chunk) (instruction : Instruction) (line : Nat) :
    (chunk.emit instruction line).pool = chunk.pool :=
  pool_writeAll chunk instruction.bytes line

/-- The distance that stands in a jump that is still open. -/
def openDistance : UInt16 := 65535

/-- An open jump is written like any other instruction. -/
theorem emitJump_eq (chunk : Chunk) (jump : ForwardJump) (line : Nat) :
    chunk.emitJump jump.opcode line =
      ({ operand := chunk.code.size + 1 }, chunk.emit (jump.past openDistance) line) := by
  cases jump <;> simp [emitJump, emit, writeWord, ForwardJump.past, ForwardJump.opcode,
    Instruction.bytes, Instruction.opcode, Instruction.operandBytes, writeAll, openDistance]

/-- The code after a jump has been closed, whatever stood in it before. -/
theorem patchJump_ok
    {chunk after : Chunk}
    {before : List UInt8}
    {skipped : List UInt8}
    {jump : ForwardJump}
    {former : UInt16}
    {result : Unit}
    (written :
      chunk.code.toList = before ++ (jump.past former).bytes ++ skipped)
    (patched :
      chunk.patchJump { operand := before.length + 1 } = (.ok result, after)) :
    skipped.length ≤ maxDistance ∧
      after.pool = chunk.pool ∧
      after.code.toList =
        before ++ (jump.past (UInt16.ofNat skipped.length)).bytes ++ skipped := by
  have size : chunk.code.size = before.length + 3 + skipped.length := by
    rw [← Array.length_toList, written]
    simp
    omega
  have distance : chunk.code.size - (before.length + 1) - 2 = skipped.length := by omega
  unfold patchJump at patched
  simp only [distance] at patched
  split at patched
  · rename_i near
    cases patched
    refine ⟨near, rfl, ?_⟩
    have second : before.length + 1 + 1 - before.length = 2 := by omega
    have outside : ¬ before.length + 1 + 1 < before.length := by omega
    simp only [Array.toList_setIfInBounds, written, ForwardJump.bytes_past]
    simp [List.set_append, second, outside]
  · cases patched

/-- A backward jump leads to its start. -/
theorem emitLoop_ok
    {chunk after : Chunk}
    {start line : Nat}
    {result : Unit}
    (earlier : start ≤ chunk.code.size)
    (written : chunk.emitLoop start line = (.ok result, after)) :
    chunk.code.size + 3 - start ≤ maxDistance ∧
      after.pool = chunk.pool ∧
      after.code.toList =
        chunk.code.toList ++
          (Instruction.loop (UInt16.ofNat (chunk.code.size + 3 - start))).bytes := by
  have distance : chunk.code.size + 1 - start + 2 = chunk.code.size + 3 - start := by omega
  unfold emitLoop at written
  simp only [code_write, Array.size_push, distance] at written
  split at written
  · rename_i near
    cases written
    refine ⟨near, by simp [writeWord], ?_⟩
    simp [writeWord, Instruction.bytes, Instruction.opcode, Instruction.operandBytes]
  · cases written

end Chunk

end ScriptEngine
