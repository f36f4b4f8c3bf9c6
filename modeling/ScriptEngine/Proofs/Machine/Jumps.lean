import ScriptEngine.Proofs.Code.Writing
import ScriptEngine.Proofs.Machine.Disassembly

/-!
# Jumps lead where they have been pointed

Any number of jumps can wait for their distances while code is written.  A jump that is
closed leads to the end of the code at that moment, a backward jump leads to its start, and
whatever is written afterwards, the machine goes on there when it takes the jump
(`Chunk.JumpLeads`, `jumps_are_resolved_exactly`).
-/

namespace ScriptEngine

/-- The machine takes a jump: a conditional one if the condition on top of the stack fails. -/
def Opcode.TakesJump (operation : Opcode) (state : State) : Prop :=
  match operation with
  | .jump | .loop => True
  | .jumpIfFalse =>
    ∃ condition, state.stack.back? = some condition ∧ condition.isFalsey = true
  | _ => False

namespace Chunk

/--
A jump stands in the code, with its operand at an offset, and leads to a target: if the
innermost function has this code and takes the jump, its frame is moved to the target, and
nothing else happens.
-/
structure JumpLeads (chunk : Chunk) (operation : Opcode) (operand target : Nat) : Prop where
  stands : 0 < operand ∧ chunk.code[operand - 1]? = some operation.toByte
  goes :
    ∀ (environment : Environment) (entryDepth : Nat) (state : State) (frame : Frame),
      state.frames.back? = some frame →
        frame.function.chunk = chunk →
          frame.offset + 1 = operand →
            operation.TakesJump state →
              Action.step environment entryDepth state =
                (.ok .proceed, (Action.moveTo target (state.recorded environment)).2)

/--
Closing a jump gives it the distance from behind its operand to the end of the code.  It
fails exactly if the distance is too large and changes nothing then, and otherwise it
changes the two bytes of the operand only.
-/
structure ClosesExactly (chunk : Chunk) (pending : PendingJump) : Prop where
  inside : pending.operand + 2 ≤ chunk.code.size
  fails_iff :
    (chunk.patchJump pending).1 = .error .jumpTooFar ↔
      65535 < chunk.code.size - (pending.operand + 2)
  succeeds_iff :
    (chunk.patchJump pending).1 = .ok () ↔ chunk.code.size - (pending.operand + 2) ≤ 65535
  unchanged : (chunk.patchJump pending).1 ≠ .ok () → (chunk.patchJump pending).2 = chunk
  codeOnly :
    (chunk.patchJump pending).2 = { chunk with code := (chunk.patchJump pending).2.code }
  size : (chunk.patchJump pending).2.code.size = chunk.code.size
  operandOnly :
    ∀ position,
      position ≠ pending.operand →
        position ≠ pending.operand + 1 →
          (chunk.patchJump pending).2.code[position]? = chunk.code[position]?

/-- A backward jump is refused exactly if it is too long. -/
structure LoopsExactly (chunk : Chunk) (start line : Nat) : Prop where
  fails_iff :
    (chunk.emitLoop start line).1 = .error .loopTooLarge ↔ 65535 < chunk.code.size + 3 - start
  succeeds_iff :
    (chunk.emitLoop start line).1 = .ok () ↔ chunk.code.size + 3 - start ≤ 65535

theorem closesExactly
    {chunk : Chunk}
    {pending : PendingJump}
    (inside : pending.operand + 2 ≤ chunk.code.size) :
    chunk.ClosesExactly pending := by
  have elsewhere :
      ∀ position,
        position ≠ pending.operand →
          position ≠ pending.operand + 1 →
            (chunk.patchJump pending).2.code[position]? = chunk.code[position]? := by
    intro position notHigh notLow
    unfold patchJump
    simp only
    split
    · rw [Array.getElem?_setIfInBounds_ne (Ne.symm notLow),
        Array.getElem?_setIfInBounds_ne (Ne.symm notHigh)]
    · rfl
  have distance :
      chunk.code.size - pending.operand - 2 = chunk.code.size - (pending.operand + 2) :=
    Nat.sub_sub _ _ _
  have size := (chunk.same_patchJump pending).1
  by_cases near : chunk.code.size - (pending.operand + 2) ≤ 65535
  · have closed :
        chunk.patchJump pending =
          (.ok (), { chunk with code := (chunk.patchJump pending).2.code }) := by
      unfold patchJump
      simp only [distance]
      rw [if_pos (show _ ≤ maxDistance from near)]
    refine ⟨inside, ?_, ?_, ?_, congrArg Prod.snd closed, size, elsewhere⟩
    · rw [closed]
      exact iff_of_false nofun (Nat.not_lt.mpr near)
    · rw [closed]
      exact iff_of_true rfl near
    · rw [closed]
      exact fun failed => absurd rfl failed
  · have refused : chunk.patchJump pending = (.error .jumpTooFar, chunk) := by
      unfold patchJump
      simp only [distance]
      exact if_neg near
    refine ⟨inside, ?_, ?_, ?_, ?_, size, elsewhere⟩
    · rw [refused]
      exact iff_of_true rfl (Nat.lt_of_not_le near)
    · rw [refused]
      exact iff_of_false nofun near
    · rw [refused]
      exact fun _ => rfl
    · rw [refused]

theorem loopsExactly
    {chunk : Chunk}
    {start : Nat}
    (earlier : start ≤ chunk.code.size)
    (line : Nat) :
    chunk.LoopsExactly start line := by
  have distance : chunk.code.size + 1 - start + 2 = chunk.code.size + 3 - start := by omega
  have refused_iff :
      (chunk.emitLoop start line).1 =
        if chunk.code.size + 3 - start ≤ 65535 then .ok () else .error .loopTooLarge := by
    unfold emitLoop
    simp only [code_write, Array.size_push, distance]
    split <;> rename_i near
    · exact (if_pos near).symm
    · exact (if_neg near).symm
  by_cases near : chunk.code.size + 3 - start ≤ 65535
  · rw [if_pos near] at refused_iff
    constructor <;> rw [refused_iff]
    · exact iff_of_false nofun (Nat.not_lt.mpr near)
    · exact iff_of_true rfl near
  · rw [if_neg near] at refused_iff
    constructor <;> rw [refused_iff]
    · exact iff_of_true rfl (Nat.lt_of_not_le near)
    · exact iff_of_false nofun near

end Chunk

/-! ## The machine at a jump -/

/-- Bytes that stand in the code are decoded as the instruction whose form they are. -/
theorem Instruction.decode_of_stand
    {code : Array UInt8}
    {start : Nat}
    {instruction : Instruction}
    (stand :
      ∀ position byte,
        instruction.bytes[position]? = some byte → code[start + position]? = some byte) :
    decode code start = .complete instruction := by
  have first := stand 0
  have second := stand 1
  have third := stand 2
  have fourth := stand 3
  clear stand
  cases instruction <;>
    simp_all [decode, decodeOperands?, bytes, opcode, operandBytes, Opcode.operands, ofBare?,
      ofByteOperand?, ofWordOperand?, ofWordAndByte?]

namespace Action

variable {environment : Environment} {state : State} {frame : Frame}

/-- Only the last place counts. -/
theorem moveTo_moveTo (first second : Nat) (state : State) :
    moveTo second (moveTo first state).2 = moveTo second state := by
  simp only [moveTo, change, Array.size_modify]
  congr 2
  apply Array.ext_getElem?
  intro position
  rw [Array.getElem?_modify, Array.getElem?_modify, Array.getElem?_modify]
  split
  · cases state.frames[position]? <;> rfl
  · rfl

/-- A jump that is taken moves the frame to its target and does nothing else. -/
theorem step_of_target
    (innermost : state.frames.back? = some frame)
    {instruction : Instruction}
    (decoded : Instruction.decode frame.function.chunk.code frame.offset = .complete instruction)
    {target : Nat}
    (isTarget : Listing.target? frame.offset instruction = some target)
    (taken : Listing.Taken frame.offset state instruction)
    (entryDepth : Nat) :
    step environment entryDepth state =
      (.ok .proceed, (moveTo target (state.recorded environment)).2) := by
  have recorded : (state.recorded environment).frames.back? = some frame := by
    rw [State.frames_recorded]
    exact innermost
  have fetched :
      fetch frame.offset instruction (state.recorded environment) =
        (.ok (), (moveTo (frame.offset + instruction.length) (state.recorded environment)).2) := by
    apply fetch_of_named recorded instruction
    rintro index argumentCount rfl
    cases isTarget
  have there := State.back?_moveTo recorded (frame.offset + instruction.length)
  have moved (place : Nat) :
      moveTo place
          (moveTo (frame.offset + instruction.length) (state.recorded environment)).2 =
        (.ok (), (moveTo place (state.recorded environment)).2) :=
    moveTo_moveTo _ _ _
  rw [step_of_complete innermost decoded entryDepth, bind_of_ok fetched]
  cases instruction with
  | jump distance =>
      cases isTarget
      exact bind_of_ok ((skip_eq there distance.toNat).trans (moved _)) _
  | jumpIfFalse distance =>
      cases isTarget
      obtain ⟨condition, isTop, isFalsey⟩ := taken
      have top :
          (moveTo (frame.offset + (Instruction.jumpIfFalse distance).length)
              (state.recorded environment)).2.stack.back? =
            some condition := by
        rw [← isTop]
        exact congrArg Array.back? (State.stack_recorded environment state)
      have jumps :
          (do
            if (← peek 0).isFalsey then
              skip distance.toNat : Action Unit)
              (moveTo (frame.offset + (Instruction.jumpIfFalse distance).length)
                (state.recorded environment)).2 =
            (.ok (),
              (moveTo (frame.offset + 3 + distance.toNat) (state.recorded environment)).2) := by
        rw [bind_of_ok (peek_of_back? top), if_pos isFalsey]
        exact (skip_eq there distance.toNat).trans (moved _)
      exact bind_of_ok jumps _
  | loop distance =>
      cases isTarget
      have jumps := (skipBack_eq there distance.toNat).trans (if_pos taken)
      exact bind_of_ok (jumps.trans (moved _)) _
  | _ => cases isTarget

end Action

/-! ## Jumps that have been resolved -/

namespace Chunk.Writing

variable {writing : Writing}

/-- The three bytes of an instruction that jumps have settled. -/
theorem Settled.jumpLeads
    {place target : Nat}
    {instruction : Instruction}
    (settled : writing.Settled place instruction.bytes)
    (isTarget : Listing.target? place instruction = some target)
    (taken :
      ∀ state, instruction.opcode.TakesJump state → Listing.Taken place state instruction) :
    writing.chunk.JumpLeads instruction.opcode (place + 1) target := by
  constructor
  · refine ⟨Nat.succ_pos _, ?_⟩
    exact settled.stand 0 _ rfl
  · intro environment entryDepth state frame innermost isCode isOperand takes
    cases Nat.succ.inj isOperand
    have decoded := Instruction.decode_of_stand settled.stand
    rw [← isCode] at decoded
    exact Action.step_of_target innermost decoded isTarget (taken state takes) entryDepth

/-- A jump that is closed has settled. -/
theorem InOrder.settled_closeJump
    (inOrder : writing.InOrder)
    {jump : OpenJump}
    (waits : jump ∈ writing.waiting)
    (closes : (writing.chunk.patchJump jump.pending).1 = .ok ()) :
    (writing.perform (.closeJump jump)).Settled (jump.pending.operand - 1)
      [jump.operation.toByte,
        highByte (UInt16.ofNat (writing.chunk.code.size - (jump.pending.operand + 2))),
        lowByte (UInt16.ofNat (writing.chunk.code.size - (jump.pending.operand + 2)))] := by
  obtain ⟨positive, inside, here⟩ := inOrder.stand jump waits
  have exact := closesExactly inside
  have near := exact.succeeds_iff.mp closes
  have distance :
      writing.chunk.code.size - jump.pending.operand - 2 =
        writing.chunk.code.size - (jump.pending.operand + 2) :=
    Nat.sub_sub _ _ _
  have high :
      (writing.perform (.closeJump jump)).chunk.code[jump.pending.operand]? =
        some (highByte
          (UInt16.ofNat (writing.chunk.code.size - (jump.pending.operand + 2)))) := by
    show (writing.chunk.patchJump jump.pending).2.code[_]? = _
    unfold patchJump
    simp only [distance]
    rw [if_pos (show _ ≤ maxDistance from near), Array.getElem?_setIfInBounds_ne (by omega),
      Array.getElem?_setIfInBounds_self_of_lt (by omega)]
  have low :
      (writing.perform (.closeJump jump)).chunk.code[jump.pending.operand + 1]? =
        some (lowByte
          (UInt16.ofNat (writing.chunk.code.size - (jump.pending.operand + 2)))) := by
    show (writing.chunk.patchJump jump.pending).2.code[_]? = _
    unfold patchJump
    simp only [distance]
    rw [if_pos (show _ ≤ maxDistance from near), Array.getElem?_setIfInBounds_self_of_lt]
    rw [Array.size_setIfInBounds]
    omega
  have begins :
      (writing.perform (.closeJump jump)).chunk.code[jump.pending.operand - 1]? =
        some jump.operation.toByte :=
    (exact.operandOnly _ (by omega) (by omega)).trans here
  refine ⟨?_, ?_, ?_⟩
  · show jump.pending.operand - 1 + 3 ≤ (writing.chunk.patchJump jump.pending).2.code.size
    rw [exact.size]
    omega
  · rintro (_ | _ | _ | position) byte found
    · cases found
      exact begins
    · cases found
      rw [Nat.sub_add_cancel positive]
      exact high
    · cases found
      rw [show jump.pending.operand - 1 + (0 + 1 + 1) = jump.pending.operand + 1 by omega]
      exact low
    · cases found
  · intro other goesOn
    have different : jump ≠ other := by
      rintro rfl
      exact inOrder.nodup.not_mem_erase goesOn
    show other.pending.operand + 2 ≤ _ ∨ jump.pending.operand - 1 + 3 ≤ _
    rcases inOrder.beside waits (List.mem_of_mem_erase goesOn) different with before | behind <;>
      omega

/-- A backward jump that has been appended has settled. -/
theorem InOrder.settled_emitLoop
    (inOrder : writing.InOrder)
    {start line : Nat}
    (earlier : start ≤ writing.chunk.code.size)
    (emits : (writing.chunk.emitLoop start line).1 = .ok ()) :
    (writing.perform (.emitLoop start line)).Settled writing.chunk.code.size
      (Instruction.loop (UInt16.ofNat (writing.chunk.code.size + 3 - start))).bytes := by
  have written := (emitLoop_ok earlier (Prod.ext emits rfl)).2.2
  refine ⟨?_, ?_, ?_⟩
  · have size := congrArg List.length written
    rw [List.length_append, Array.length_toList, Array.length_toList] at size
    exact Nat.le_of_eq size.symm
  · intro position byte found
    show (writing.chunk.emitLoop start line).2.code[_]? = some byte
    rw [← Array.getElem?_toList, written, ← Array.length_toList,
      List.getElem?_append_right (Nat.le_add_right _ _), Nat.add_sub_cancel_left]
    exact found
  · intro jump waits
    exact .inl (inOrder.stand jump waits).2.1

end Chunk.Writing

open Chunk

/--
Whatever is written before and afterwards: a jump that is closed gets the distance to the
end of the code, or the closing fails because the distance is too large, and nothing but its
operand changes (`Chunk.ClosesExactly`).  From then on the operand has the distance, and the
machine goes on where the code ended when it was closed.  A backward jump is refused if it is
too long (`Chunk.LoopsExactly`), and otherwise the machine goes on at its start.
-/
theorem jumps_are_resolved_exactly (before after : List Operation) :
    let chunk := (Writing.blank.performAll before).chunk
    (∀ jump,
      Writing.blank.AllowsAll (before ++ .closeJump jump :: after) →
        let final := (Writing.blank.performAll (before ++ .closeJump jump :: after)).chunk
        chunk.ClosesExactly jump.pending ∧
          ((chunk.patchJump jump.pending).1 = .ok () →
            final.readWord? jump.pending.operand =
                some (UInt16.ofNat (chunk.code.size - (jump.pending.operand + 2))) ∧
              ∀ kind : ForwardJump,
                jump.operation = kind.opcode →
                  final.JumpLeads jump.operation jump.pending.operand chunk.code.size)) ∧
      ∀ start line,
        Writing.blank.AllowsAll (before ++ .emitLoop start line :: after) →
          let final := (Writing.blank.performAll (before ++ .emitLoop start line :: after)).chunk
          chunk.LoopsExactly start line ∧
            ((chunk.emitLoop start line).1 = .ok () →
              final.JumpLeads .loop (chunk.code.size + 1) start) := by
  intro chunk
  constructor
  · intro jump allowed final
    obtain ⟨allowedBefore, waits, allowedAfter⟩ := Writing.allowsAll_append.mp allowed
    have inOrder := Writing.InOrder.of_blank.performAll allowedBefore
    obtain ⟨positive, inside, -⟩ := inOrder.stand jump waits
    refine ⟨closesExactly inside, fun closes => ?_⟩
    have near : chunk.code.size - (jump.pending.operand + 2) ≤ 65535 :=
      (closesExactly inside).succeeds_iff.mp closes
    have settled := (inOrder.settled_closeJump waits closes).performAll allowedAfter
    rw [← Writing.performAll_append_cons] at settled
    have place : jump.pending.operand - 1 + 1 = jump.pending.operand :=
      Nat.sub_add_cancel positive
    constructor
    · have high := settled.stand 1 _ rfl
      have low := settled.stand 2 _ rfl
      rw [place] at high
      rw [show jump.pending.operand - 1 + 2 = jump.pending.operand + 1 by omega] at low
      unfold readWord?
      rw [high, low]
      exact congrArg some (joinBytes_highByte_lowByte _)
    · intro kind isKind
      have bytes :=
        kind.bytes_past (UInt16.ofNat (chunk.code.size - (jump.pending.operand + 2)))
      have distance :
          (UInt16.ofNat (chunk.code.size - (jump.pending.operand + 2))).toNat =
            chunk.code.size - (jump.pending.operand + 2) := by
        rw [UInt16.toNat_ofNat']
        exact Nat.mod_eq_of_lt (Nat.lt_succ_of_le near)
      have behind :
          jump.pending.operand - 1 + 3 + (chunk.code.size - (jump.pending.operand + 2)) =
            chunk.code.size := by
        have : jump.pending.operand + 2 ≤ chunk.code.size := inside
        omega
      rw [isKind] at settled ⊢
      rw [← bytes] at settled
      rw [← place]
      cases kind with
      | always =>
          apply settled.jumpLeads
          · exact congrArg some (by rw [distance, behind])
          · exact fun _ taken => taken
      | ifFalse =>
          apply settled.jumpLeads
          · exact congrArg some (by rw [distance, behind])
          · exact fun _ taken => taken
  · intro start line allowed final
    obtain ⟨allowedBefore, earlier, allowedAfter⟩ := Writing.allowsAll_append.mp allowed
    have inOrder := Writing.InOrder.of_blank.performAll allowedBefore
    refine ⟨loopsExactly earlier line, fun emits => ?_⟩
    have near : chunk.code.size + 3 - start ≤ 65535 :=
      (loopsExactly earlier line).succeeds_iff.mp emits
    have settled := (inOrder.settled_emitLoop earlier emits).performAll allowedAfter
    rw [← Writing.performAll_append_cons] at settled
    have distance :
        (UInt16.ofNat (chunk.code.size + 3 - start)).toNat = chunk.code.size + 3 - start := by
      rw [UInt16.toNat_ofNat']
      exact Nat.mod_eq_of_lt (Nat.lt_succ_of_le near)
    have isEarlier : start ≤ chunk.code.size := earlier
    apply settled.jumpLeads
    · apply congrArg some
      rw [distance]
      show chunk.code.size + 3 - (chunk.code.size + 3 - start) = start
      omega
    · intro state _
      show (UInt16.ofNat (chunk.code.size + 3 - start)).toNat ≤ chunk.code.size + 3
      rw [distance]
      exact Nat.sub_le _ _

/-- Two jumps are opened. -/
def crossedJumps : List Operation :=
  [.openJump .jumpIfFalse 1, .write Opcode.pop.toByte 1, .openJump .jump 2,
    .write Opcode.pushNull.toByte 2]

/-- The first of two jumps. -/
def outerJump : OpenJump where
  operation := .jumpIfFalse
  pending := { operand := 1 }

/-- A backward jump is written and the second jump is closed. -/
def crossedClosings : List Operation :=
  [.emitLoop 3 3, .closeJump { operation := .jump, pending := { operand := 5 } }]

/-- The first jump is closed while the second one waits, and neither it nor the loop disturbs it. -/
theorem crossedJumps_resolved :
    let final :=
      (Writing.blank.performAll (crossedJumps ++ .closeJump outerJump :: crossedClosings)).chunk
    Writing.blank.AllowsAll (crossedJumps ++ .closeJump outerJump :: crossedClosings) ∧
      final.readWord? 1 = some 5 ∧ final.JumpLeads .jumpIfFalse 1 8 := by
  have allowed :
      Writing.blank.AllowsAll (crossedJumps ++ .closeJump outerJump :: crossedClosings) := by
    decide
  have resolved := (jumps_are_resolved_exactly crossedJumps crossedClosings).1 outerJump allowed
  obtain ⟨reads, leads⟩ := resolved.2 rfl
  exact ⟨allowed, reads, leads .ifFalse rfl⟩

end ScriptEngine
