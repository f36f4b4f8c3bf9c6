import ScriptEngine.Proofs.Code.Flow
import ScriptEngine.Proofs.Code.Pool

/-!
# Typed functions and verified functions

A function is well typed if its bytes are those of annotated code that is typed
from its first byte on and never goes on behind its last one.

`Function.Verifies` says what that means in terms of the bytes alone: decoding
from the first byte on cuts the code into known instructions, execution stays
on the boundaries between them, and the height of the stack at a boundary does
not depend on the way execution got there.
-/

namespace ScriptEngine

open Annotated

/-- A value that can stand among the constants of a function. -/
def Value.IsConstant (known : Nat → Prop) (value : Value) : Prop :=
  value.isLiteral = true ∨ ∃ id, value = .function id ∧ known id

theorem Value.IsConstant.mono
    {known more : Nat → Prop}
    (grows : ∀ id, known id → more id)
    {value : Value}
    (isConstant : value.IsConstant known) :
    value.IsConstant more := by
  rcases isConstant with literal | ⟨id, same, knows⟩
  · exact .inl literal
  · exact .inr ⟨id, same, grows id knows⟩

/-- A function whose code is typed, in a module with a number of variables. -/
structure Function.WellTyped (function : Function) (slots : Nat) (known : Nat → Prop) : Prop where
  typed :
    ∃ code,
      function.chunk.code.toList = Instruction.encode (erase code) ∧
        entry code none = some (.plain (function.arity + 1)) ∧
        Typed { constants := function.chunk.constants, slots } code none
  constants : ∀ value ∈ function.chunk.constants, value.IsConstant known

theorem Function.WellTyped.mono
    {function : Function}
    {slots more : Nat}
    {known others : Nat → Prop}
    (typed : function.WellTyped slots known)
    (bound : slots ≤ more)
    (grows : ∀ id, known id → others id) :
    function.WellTyped more others := by
  obtain ⟨⟨code, encoded, begins, flows⟩, constants⟩ := typed
  refine ⟨⟨code, encoded, begins, ?_⟩, fun value member => (constants value member).mono grows⟩
  have extends_ :
      CodeContext.Extends { constants := function.chunk.constants, slots }
        { constants := function.chunk.constants, slots := more } :=
    ⟨List.prefix_refl _, bound⟩
  intro shapeAt offset placed
  exact (flows shapeAt offset placed).extend extends_

/-! ## Boundaries -/

/-- The offsets that decoding from the first byte on gets to. -/
inductive Boundary (code : Array UInt8) : Nat → Prop where
  | first : Boundary code 0
  | next
      {offset : Nat}
      {instruction : Instruction}
      (boundary : Boundary code offset)
      (decoded : Instruction.decode code offset = .complete instruction) :
      Boundary code (offset + (1 + instruction.opcode.operandWidth))

/--
What a verifier of bytecode checks, for an assignment of heights to the
boundaries of the code.
-/
structure Function.Verifies (function : Function) (slots : Nat) (height : Nat → Nat) : Prop where
  /-- Decoding finds known instructions up to the last byte and none that is cut off. -/
  decodes :
    ∀ offset,
      Boundary function.chunk.code offset →
        offset = function.chunk.code.size ∨
          ∃ instruction,
            Instruction.decode function.chunk.code offset = .complete instruction ∧
              offset + (1 + instruction.opcode.operandWidth) ≤ function.chunk.code.size
  /-- Execution begins inside the code. -/
  begins : 0 < function.chunk.code.size
  /-- At the beginning the stack holds slot zero and the arguments. -/
  entry : height 0 = function.arity + 1
  /-- Execution goes on at boundaries inside the code only. -/
  stays :
    ∀ offset instruction,
      Boundary function.chunk.code offset →
      Instruction.decode function.chunk.code offset = .complete instruction →
        ∀ target ∈ instruction.successors offset,
          Boundary function.chunk.code target ∧ target < function.chunk.code.size
  /-- A backward jump does not lead past the beginning. -/
  backward :
    ∀ offset distance,
      Boundary function.chunk.code offset →
      Instruction.decode function.chunk.code offset = .complete (.loop distance) →
        distance.toNat ≤ offset + 3
  /-- The heights agree along all ways. -/
  agrees :
    ∀ offset instruction,
      Boundary function.chunk.code offset →
      Instruction.decode function.chunk.code offset = .complete instruction →
        ∀ target ∈ instruction.successors offset,
          height target = height offset - instruction.takes + instruction.gives
  /-- Neither slot zero nor anything below it is taken from the stack. -/
  takes :
    ∀ offset instruction,
      Boundary function.chunk.code offset →
      Instruction.decode function.chunk.code offset = .complete instruction →
        instruction.takes < height offset
  /-- Operands refer to constants, names, local variables and module variables that exist. -/
  operands :
    ∀ offset instruction,
      Boundary function.chunk.code offset →
      Instruction.decode function.chunk.code offset = .complete instruction →
        CodeContext.Admits { constants := function.chunk.constants, slots } (height offset)
          instruction

namespace Annotated

/-- The shape at an offset of annotated code that nothing follows. -/
def shapeAt : List Annotated → Nat → Option Shape
  | [], _ => none
  | (shape, instruction) :: rest, offset =>
    if offset = 0 then some shape
    else if instruction.length ≤ offset then shapeAt rest (offset - instruction.length)
    else none

theorem shapeAt_append (before after : List Annotated) (offset : Nat) :
    shapeAt (before ++ after) (size before + offset) = shapeAt after offset := by
  induction before with
  | nil => simp
  | cons annotated rest induction =>
      obtain ⟨shape, instruction⟩ := annotated
      have positive := instruction.length_pos
      have remaining : instruction.length + size rest + offset - instruction.length =
          size rest + offset := by omega
      simp only [List.cons_append, shapeAt, size_cons]
      rw [if_neg (by omega), if_pos (by omega), remaining, induction]

/-- The shapes of the code itself are where they stand. -/
theorem placed_shapeAt (before after : List Annotated) :
    Placed (shapeAt (before ++ after)) (size before) after none := by
  induction after generalizing before with
  | nil => exact nofun
  | cons annotated rest induction =>
      obtain ⟨shape, instruction⟩ := annotated
      refine ⟨?_, ?_⟩
      · have here := shapeAt_append before ((shape, instruction) :: rest) 0
        rw [Nat.add_zero] at here
        rw [here, shapeAt, if_pos rfl]
      · have there := induction (before ++ [(shape, instruction)])
        simpa using there

/-- Every shape belongs to an instruction. -/
theorem exists_of_shapeAt
    {code : List Annotated}
    {offset : Nat}
    {shape : Shape}
    (found : shapeAt code offset = some shape) :
    ∃ before instruction after,
      code = before ++ (shape, instruction) :: after ∧ offset = size before := by
  induction code generalizing offset with
  | nil => cases found
  | cons annotated rest induction =>
      obtain ⟨other, instruction⟩ := annotated
      rw [shapeAt] at found
      split at found
      · rename_i zero
        cases found
        exact ⟨[], instruction, rest, rfl, zero⟩
      · split at found
        · rename_i bound
          obtain ⟨before, second, after, rfl, position⟩ := induction found
          refine ⟨(other, instruction) :: before, second, after, rfl, ?_⟩
          rw [size_cons]
          simp only
          omega
        · cases found

/-- The check of one instruction inside flowing code. -/
theorem Flows.checked
    {context : CodeContext}
    {shapes : Nat → Option Shape}
    {offset : Nat}
    {before after : List Annotated}
    {shape : Shape}
    {instruction : Instruction}
    (flows : Flows context shapes offset (before ++ (shape, instruction) :: after)) :
    Checked context shapes (offset + size before) shape instruction :=
  (flows_append.mp flows).2.1

end Annotated

namespace Function.WellTyped

variable
  {bytes : Array UInt8}
  {code : List Annotated}
  (encoded : bytes.toList = Instruction.encode (erase code))

include encoded

theorem decode_of_split
    {before after : List Annotated}
    {shape : Shape}
    {instruction : Instruction}
    (split : code = before ++ (shape, instruction) :: after) :
    Instruction.decode bytes (size before) = .complete instruction := by
  have whole : bytes.toList = Instruction.encode (erase before ++ instruction :: erase after) := by
    rw [encoded, split]
    simp
  exact Instruction.decode_encode whole

theorem size_bytes : bytes.size = size code := by
  rw [← Array.length_toList, encoded, Instruction.length_encode]
  rfl

theorem decode_size : Instruction.decode bytes (size code) = .outside := by
  rw [← size_bytes encoded]
  simp [Instruction.decode]

/-- Decoding gets to the beginnings of the instructions and to the end. -/
theorem split_of_boundary {offset : Nat} (boundary : Boundary bytes offset) :
    offset = size code ∨
      ∃ before shape instruction after,
        code = before ++ (shape, instruction) :: after ∧ offset = size before := by
  induction boundary with
  | first =>
      cases code with
      | nil => exact .inl rfl
      | cons annotated rest => exact .inr ⟨[], annotated.1, annotated.2, rest, rfl, rfl⟩
  | @next offset instruction _ decoded induction =>
      rcases induction with rfl | ⟨before, shape, found, after, split, rfl⟩
      · rw [decode_size encoded] at decoded
        cases decoded
      · rw [decode_of_split encoded split] at decoded
        cases decoded
        have moved :
            size before + instruction.length = size (before ++ [(shape, instruction)]) := by
          simp
        rw [← Instruction.length, moved]
        cases after with
        | nil => exact .inl (by rw [split])
        | cons annotated rest =>
            exact .inr ⟨before ++ [(shape, instruction)], annotated.1, annotated.2, rest,
              by rw [split]; simp, rfl⟩

theorem boundary_of_split
    {before after : List Annotated}
    (split : code = before ++ after) :
    Boundary bytes (size before) := by
  -- The instructions of `before` are decoded one after the other.
  have walk :
      ∀ (passed ahead : List Annotated),
        code = passed ++ ahead ++ after →
        Boundary bytes (size passed) →
          Boundary bytes (size (passed ++ ahead)) := by
    intro passed ahead
    induction ahead generalizing passed with
    | nil =>
        intro _ here
        simpa using here
    | cons annotated rest induction =>
        intro whole here
        obtain ⟨shape, instruction⟩ := annotated
        have split : code = passed ++ (shape, instruction) :: (rest ++ after) := by
          rw [whole]
          simp
        have decoded := decode_of_split encoded split
        have there := Boundary.next here decoded
        have further := induction (passed ++ [(shape, instruction)]) (by rw [whole]; simp)
          (by simpa [Instruction.length] using there)
        simpa using further
  exact walk [] before (by simpa using split) .first

/-- Every instruction that decoding finds at a boundary is one of the annotated ones. -/
theorem checked_of_boundary
    {context : CodeContext}
    (flows : Flows context (shapeAt code) 0 code)
    (offset : Nat)
    (instruction : Instruction)
    (boundary : Boundary bytes offset)
    (decoded : Instruction.decode bytes offset = .complete instruction) :
    ∃ shape,
      shapeAt code offset = some shape ∧
        Checked context (shapeAt code) offset shape instruction := by
  rcases split_of_boundary encoded boundary with rfl | ⟨before, shape, found, after, split, rfl⟩
  · rw [decode_size encoded] at decoded
    cases decoded
  · rw [decode_of_split encoded split] at decoded
    cases decoded
    rw [split] at flows
    have here := flows.checked
    rw [← split, Nat.zero_add] at here
    have shapeHere := (placed_shapeAt before ((shape, instruction) :: after)).1
    rw [← split] at shapeHere
    exact ⟨shape, shapeHere, here⟩

omit encoded

/-- The operands at a boundary of typed code. -/
theorem accepts_of_boundary
    {function : Function}
    {slots : Nat}
    {known : Nat → Prop}
    (wellTyped : function.WellTyped slots known)
    {offset : Nat}
    {instruction : Instruction}
    (boundary : Boundary function.chunk.code offset)
    (decoded : Instruction.decode function.chunk.code offset = .complete instruction) :
    ∃ height,
      CodeContext.Accepts { constants := function.chunk.constants, slots } height instruction := by
  obtain ⟨⟨code, encoded, -, typed⟩, -⟩ := wellTyped
  have flows := typed (shapeAt code) 0 (placed_shapeAt [] code)
  obtain ⟨shape, -, checked⟩ :=
    checked_of_boundary encoded flows offset instruction boundary decoded
  exact ⟨shape.height, checked.operands⟩

/-- The height at an offset of annotated code. -/
def heightAt (code : List Annotated) (offset : Nat) : Nat :=
  ((shapeAt code offset).map Shape.height).getD 0

/-- Typed code passes the verifier. -/
theorem verifies
    {function : Function}
    {slots : Nat}
    {known : Nat → Prop}
    (wellTyped : function.WellTyped slots known)
    (seeded : 0 < slots) :
    ∃ height, function.Verifies slots height := by
  obtain ⟨⟨code, encoded, begins, typed⟩, -⟩ := wellTyped
  have flows := typed (shapeAt code) 0 (placed_shapeAt [] code)
  have bytesSize := size_bytes encoded
  have checked := checked_of_boundary encoded flows
  have target :
      ∀ offset shape,
        shapeAt code offset = some shape →
          Boundary function.chunk.code offset ∧ offset < function.chunk.code.size := by
    intro offset shape found
    obtain ⟨before, instruction, after, split, rfl⟩ := exists_of_shapeAt found
    refine ⟨boundary_of_split encoded split, ?_⟩
    have positive := instruction.length_pos
    rw [bytesSize, split]
    simp only [size_append, size_cons]
    omega
  have height_of :
      ∀ offset shape, shapeAt code offset = some shape → heightAt code offset = shape.height := by
    intro offset shape found
    simp [heightAt, found]
  have nonempty : ∃ instruction rest,
      code = (.plain (function.arity + 1), instruction) :: rest := by
    cases code with
    | nil => cases begins
    | cons annotated rest =>
        obtain ⟨shape, instruction⟩ := annotated
        cases begins
        exact ⟨instruction, rest, rfl⟩
  obtain ⟨first, others, isFirst⟩ := nonempty
  have firstShape : shapeAt code 0 = some (.plain (function.arity + 1)) := by
    rw [isFirst, shapeAt, if_pos rfl]
  refine ⟨heightAt code, ?_, (target 0 _ firstShape).2, height_of 0 _ firstShape,
    ?_, ?_, ?_, ?_, ?_⟩
  · intro offset boundary
    rcases split_of_boundary encoded boundary with rfl | ⟨before, shape, found, after, split, rfl⟩
    · exact .inl bytesSize.symm
    · refine .inr ⟨found, decode_of_split encoded split, ?_⟩
      rw [← Instruction.length, bytesSize, split]
      simp only [size_append, size_cons]
      omega
  · intro offset instruction boundary decoded successor member
    obtain ⟨shape, -, check⟩ := checked offset instruction boundary decoded
    exact target successor _ (check.passes successor member)
  · intro offset distance boundary decoded
    obtain ⟨shape, -, check⟩ := checked offset _ boundary decoded
    exact check.backward distance rfl
  · intro offset instruction boundary decoded successor member
    obtain ⟨shape, here, check⟩ := checked offset instruction boundary decoded
    rw [height_of successor _ (check.passes successor member), height_of offset shape here]
    rfl
  · intro offset instruction boundary decoded
    obtain ⟨shape, here, check⟩ := checked offset instruction boundary decoded
    rw [height_of offset shape here]
    exact check.takes
  · intro offset instruction boundary decoded
    obtain ⟨shape, here, check⟩ := checked offset instruction boundary decoded
    rw [height_of offset shape here]
    exact check.operands.admits seeded

end Function.WellTyped

end ScriptEngine
