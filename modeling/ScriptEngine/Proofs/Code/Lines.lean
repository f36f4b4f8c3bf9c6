import ScriptEngine.Proofs.Code.Function

/-!
# The lines of instructions

A chunk is built by appending instructions, each on a line, by adding constants and by
closing jumps.  `Chunk.Emits` says which instructions have been appended and on which
lines.  The table of the chunk then gives for every byte of an instruction the line on
which the instruction was appended (`Chunk.Emits.lineAt`), and the instructions stand
where decoding finds them (`Chunk.Emits.recorded`).
-/

namespace ScriptEngine

open Instruction

/-- The operand of a jump stands at a place of the code. -/
def PendingJump.IsIn (jump : PendingJump) (instructions : List Instruction) : Prop :=
  ∃ before kind distance after,
    instructions = before ++ ForwardJump.past kind distance :: after ∧
      jump.operand = Instruction.totalLength before + 1

namespace PendingJump.IsIn

variable {jump : PendingJump} {instructions : List Instruction}

theorem append (isIn : jump.IsIn instructions) (more : List Instruction) :
    jump.IsIn (instructions ++ more) := by
  rcases isIn with ⟨before, kind, distance, after, rfl, place⟩
  exact ⟨before, kind, distance, after ++ more, by simp, place⟩

/-- Another jump, or the same, gets its distance. -/
theorem close
    {before after : List Instruction}
    {kind : ForwardJump}
    {former : UInt16}
    (isIn : jump.IsIn (before ++ kind.past former :: after))
    (distance : UInt16) :
    jump.IsIn (before ++ kind.past distance :: after) := by
  rcases isIn with ⟨front, other, between, rest, split, place⟩
  have length :
      Instruction.totalLength [kind.past distance] =
        Instruction.totalLength [kind.past former] := by
    simp
  rcases List.append_eq_append_iff.mp split with
    ⟨middle, isFront, isRest⟩ | ⟨middle, isBefore, isRest⟩
  · cases middle with
    | nil =>
        refine ⟨before, kind, distance, after, rfl, ?_⟩
        rw [place, isFront, List.append_nil]
    | cons first middle =>
        rcases List.cons.inj isRest with ⟨rfl, rfl⟩
        refine ⟨before ++ kind.past distance :: middle, other, between, rest, by simp, ?_⟩
        rw [place, isFront]
        simp
  · cases middle with
    | nil =>
        refine ⟨before, kind, distance, after, rfl, ?_⟩
        rw [place, isBefore, List.append_nil]
    | cons first middle =>
        rcases List.cons.inj isRest with ⟨rfl, rfl⟩
        exact ⟨front, other, between, middle ++ kind.past distance :: after,
          by simp [isBefore], place⟩

end PendingJump.IsIn

/-- Something that waits is listed. -/
class Waits (entry : α) (waiting : List α) : Prop where
  member : entry ∈ waiting

namespace Waits

variable {entry : α} {waiting : List α}

instance last : Waits entry (entry :: waiting) :=
  ⟨List.mem_cons_self⟩

instance earlier [waits : Waits entry waiting] (other : α) : Waits entry (other :: waiting) :=
  ⟨List.mem_cons_of_mem other waits.member⟩

end Waits

namespace Chunk

/--
A chunk has been built by appending instructions on lines.  A jump is listed as it was
appended, before its distance was known.
-/
inductive Emits : Chunk → List (Instruction × Nat) → Prop
  | blank : Emits {} []
  | emit
      {chunk : Chunk}
      {history : List (Instruction × Nat)}
      (earlier : Emits chunk history)
      (instruction : Instruction)
      (line : Nat) :
      Emits (chunk.emit instruction line) (history ++ [(instruction, line)])
  | constant
      {chunk : Chunk}
      {history : List (Instruction × Nat)}
      (earlier : Emits chunk history)
      (constant : Constant) :
      Emits (chunk.addConstant constant).2 history
  | close
      {chunk closed : Chunk}
      {history : List (Instruction × Nat)}
      {jump : PendingJump}
      (earlier : Emits chunk history)
      (isIn : jump.IsIn (history.map Prod.fst))
      (closes : chunk.patchJump jump = (.ok (), closed)) :
      Emits closed history

/--
The instruction that begins at an offset was appended on a line.  A jump may have been
given another distance since.
-/
def Records (chunk : Chunk) (start : Nat) (instruction : Instruction) (line : Nat) : Prop :=
  ∃ before appended after,
    chunk.Emits (before ++ (appended, line) :: after) ∧
      totalLength (before.map Prod.fst) = start ∧
      appended.opcode = instruction.opcode

/-! ## The table -/

/-- The lines of the bytes of instructions. -/
def linesOf (history : List (Instruction × Nat)) : List Nat :=
  history.flatMap fun (instruction, line) => List.replicate instruction.length line

/-- The table has the lines of all bytes of the code, and its runs begin inside the code. -/
structure Lined (chunk : Chunk) (lines : List Nat) : Prop where
  size : chunk.code.size = lines.length
  inside : ∀ start ∈ chunk.runs, start.offset < chunk.code.size
  lineAt : ∀ offset line, lines[offset]? = some line → chunk.lineAt offset = line

theorem lined_blank : Lined {} [] where
  size := rfl
  inside := nofun
  lineAt := nofun

/-- The line of a byte is that of the latest run that has begun. -/
theorem lineAt_of_runs
    {chunk : Chunk}
    {latest : LineStart}
    {earlier : List LineStart}
    (runs : chunk.runs = latest :: earlier)
    {offset : Nat}
    (begun : latest.offset ≤ offset) :
    chunk.lineAt offset = latest.line := by
  have found : chunk.runs.find? (fun start => start.offset ≤ offset) = some latest := by
    rw [runs]
    exact List.find?_cons_of_pos (by simpa using begun)
  unfold lineAt
  rw [found]

/-- A run that has not begun says nothing. -/
theorem lineAt_of_later
    {chunk other : Chunk}
    {latest : LineStart}
    (runs : other.runs = latest :: chunk.runs)
    {offset : Nat}
    (later : offset < latest.offset) :
    other.lineAt offset = chunk.lineAt offset := by
  have same :
      other.runs.find? (fun start => start.offset ≤ offset) =
        chunk.runs.find? fun start => start.offset ≤ offset := by
    rw [runs]
    exact List.find?_cons_of_neg (by simpa using later)
  unfold lineAt
  rw [same]

/-- A byte continues the latest run or begins one. -/
theorem runs_write (chunk : Chunk) (byte : UInt8) (line : Nat) :
    (∃ latest earlier,
      chunk.runs = latest :: earlier ∧
        latest.line = line ∧ (chunk.write byte line).runs = chunk.runs) ∨
      (chunk.write byte line).runs = { offset := chunk.code.size, line } :: chunk.runs := by
  unfold write
  rcases runs : chunk.runs with _ | ⟨latest, earlier⟩
  · exact .inr rfl
  · by_cases same : latest.line = line
    · exact .inl ⟨latest, earlier, rfl, same, by simp [same]⟩
    · exact .inr (by simp [same])

/-- A byte gets the line that is given with it, and the bytes before it keep theirs. -/
theorem Lined.write
    {chunk : Chunk}
    {lines : List Nat}
    (lined : chunk.Lined lines)
    (byte : UInt8)
    (line : Nat) :
    (chunk.write byte line).Lined (lines ++ [line]) := by
  have size : (chunk.write byte line).code.size = chunk.code.size + 1 := Array.size_push _
  have cases := chunk.runs_write byte line
  refine ⟨by rw [size, lined.size, List.length_append, List.length_singleton], ?_, ?_⟩
  · intro start member
    rw [size]
    rcases cases with ⟨-, -, -, -, same⟩ | added
    · rw [same] at member
      exact Nat.lt_succ_of_lt (lined.inside start member)
    · rw [added] at member
      rcases List.mem_cons.mp member with rfl | old
      · exact Nat.lt_succ_self _
      · exact Nat.lt_succ_of_lt (lined.inside start old)
  · intro offset found isLine
    rcases Nat.lt_or_ge offset lines.length with before | behind
    · rw [List.getElem?_append_left before] at isLine
      have earlier := lined.lineAt offset found isLine
      rcases cases with ⟨-, -, -, -, same⟩ | added
      · unfold Chunk.lineAt at earlier ⊢
        rw [same]
        exact earlier
      · rw [lineAt_of_later added (by rw [lined.size]; exact before)]
        exact earlier
    · rw [List.getElem?_append_right behind] at isLine
      rcases List.mem_singleton.mp (List.mem_of_getElem? isLine) with rfl
      rw [← lined.size] at behind
      rcases cases with ⟨latest, earlier, runs, sameLine, same⟩ | added
      · rw [lineAt_of_runs (same.trans runs), sameLine]
        have begun := lined.inside latest (by rw [runs]; exact List.mem_cons_self)
        exact Nat.le_trans (Nat.le_of_lt begun) behind
      · rw [lineAt_of_runs added behind]

theorem Lined.writeAll
    {chunk : Chunk}
    {lines : List Nat}
    (lined : chunk.Lined lines)
    (bytes : List UInt8)
    (line : Nat) :
    (chunk.writeAll bytes line).Lined (lines ++ List.replicate bytes.length line) := by
  induction bytes generalizing chunk lines with
  | nil =>
      rw [List.length_nil, List.replicate_zero, List.append_nil]
      exact lined
  | cons byte bytes induction =>
      have rest := induction (lined.write byte line)
      rw [List.append_assoc] at rest
      exact rest

/-- Code of the same size with the same table. -/
theorem Lined.of_same
    {chunk other : Chunk}
    {lines : List Nat}
    (lined : chunk.Lined lines)
    (size : other.code.size = chunk.code.size)
    (runs : other.runs = chunk.runs) :
    other.Lined lines where
  size := size.trans lined.size
  inside := by
    rw [size, runs]
    exact lined.inside
  lineAt := by
    unfold Chunk.lineAt
    rw [runs]
    exact lined.lineAt

/-! ## Changes that append nothing -/

theorem same_patchJump (chunk : Chunk) (pending : PendingJump) :
    (chunk.patchJump pending).2.code.size = chunk.code.size ∧
      (chunk.patchJump pending).2.runs = chunk.runs := by
  unfold patchJump
  simp only
  split
  · exact ⟨by simp, rfl⟩
  · exact ⟨rfl, rfl⟩

/-! ## Instructions and their lines -/

theorem linesOf_append (first second : List (Instruction × Nat)) :
    linesOf (first ++ second) = linesOf first ++ linesOf second := by
  simp [linesOf]

theorem length_linesOf (history : List (Instruction × Nat)) :
    (linesOf history).length = totalLength (history.map Prod.fst) := by
  induction history with
  | nil => rfl
  | cons entry history induction =>
      rw [List.map_cons, totalLength_cons, ← induction]
      simp [linesOf]

/-- How long instructions are is known from their operations. -/
theorem totalLength_of_opcodes
    {first second : List Instruction}
    (same : first.map opcode = second.map opcode) :
    totalLength first = totalLength second := by
  have widths (instructions : List Instruction) :
      totalLength instructions =
        ((instructions.map opcode).map fun operation => 1 + operation.operandWidth).sum := by
    rw [List.map_map]
    rfl
  rw [widths, widths, same]

/-- Decoding gets to instructions of the code only. -/
theorem split_of_boundary
    {bytes : Array UInt8}
    {instructions : List Instruction}
    (encoded : bytes.toList = encode instructions)
    {offset : Nat}
    (boundary : Boundary bytes offset)
    {instruction : Instruction}
    (decoded : decode bytes offset = .complete instruction) :
    ∃ before after,
      instructions = before ++ instruction :: after ∧ offset = totalLength before := by
  have erased :
      Annotated.erase (instructions.map fun other => (.plain 0, other)) = instructions := by
    simp [Annotated.erase]
  have annotated := encoded
  rw [← erased] at annotated
  rcases Function.WellTyped.split_of_boundary annotated boundary with
    rfl | ⟨before, shape, found, after, split, rfl⟩
  · rw [Function.WellTyped.decode_size annotated] at decoded
    cases decoded
  · rw [Function.WellTyped.decode_of_split annotated split] at decoded
    cases decoded
    refine ⟨Annotated.erase before, Annotated.erase after, ?_, rfl⟩
    rw [← erased, split]
    simp [Annotated.erase]

/-- An instruction with the operation of a forward jump is one. -/
theorem exists_past
    {instruction : Instruction}
    {kind : ForwardJump}
    {distance : UInt16}
    (same : instruction.opcode = (kind.past distance).opcode) :
    ∃ former, instruction = kind.past former := by
  cases kind <;> cases instruction <;> cases same <;> exact ⟨_, rfl⟩

namespace Emits

variable {chunk : Chunk} {history : List (Instruction × Nat)}

/-- Closing a jump gives it a distance and leaves the other instructions as they are. -/
theorem closed
    {after : Chunk}
    {jump : PendingJump}
    {instructions : List Instruction}
    (code : chunk.code.toList = encode instructions)
    (same : instructions.map opcode = (history.map Prod.fst).map opcode)
    (isIn : jump.IsIn (history.map Prod.fst))
    (closes : chunk.patchJump jump = (.ok (), after)) :
    ∃ front kind former distance back,
      instructions = front ++ ForwardJump.past kind former :: back ∧
        after.code.toList = encode (front ++ ForwardJump.past kind distance :: back) := by
  rcases isIn with ⟨before, kind, distance, rest, split, place⟩
  rw [split, List.map_append, List.map_cons] at same
  rcases List.map_eq_append_iff.mp same with ⟨front, others, rfl, sameFront, sameOthers⟩
  rcases List.map_eq_cons_iff.mp sameOthers with ⟨jump, back, rfl, isJump, -⟩
  rcases exists_past isJump with ⟨former, rfl⟩
  rw [totalLength_of_opcodes sameFront.symm, ← length_encode] at place
  rw [encode_append, encode_cons, ← List.append_assoc] at code
  have handle : ∀ {handle : PendingJump} {operand : Nat},
      handle.operand = operand → handle = { operand } := by
    rintro ⟨_⟩ _ rfl
    rfl
  rw [handle place] at closes
  have patched := (patchJump_ok code closes).2.2
  refine ⟨front, kind, former, UInt16.ofNat (encode back).length, back, rfl, ?_⟩
  rw [patched, encode_append, encode_cons, List.append_assoc]

/-- What all jumps have and all instructions that have been appended, the code consists of. -/
theorem code_of_forall
    {allows : Instruction → Prop}
    (jumps : ∀ (kind : ForwardJump) distance, allows (kind.past distance))
    (emits : chunk.Emits history)
    (allowed : ∀ entry ∈ history, allows entry.1) :
    ∃ instructions,
      chunk.code.toList = encode instructions ∧
        instructions.map opcode = (history.map Prod.fst).map opcode ∧
        ∀ instruction ∈ instructions, allows instruction := by
  induction emits with
  | blank => exact ⟨[], rfl, rfl, List.forall_mem_nil _⟩
  | emit earlier instruction line induction =>
      rcases List.forall_mem_append.mp allowed with ⟨earlierAllowed, newAllowed⟩
      rcases induction earlierAllowed with ⟨instructions, code, same, all⟩
      refine ⟨instructions ++ [instruction], ?_, ?_, List.forall_mem_append.mpr ⟨all, ?_⟩⟩
      · rw [toList_code_emit, code, encode_append, encode_cons, encode_nil, List.append_nil]
      · rw [List.map_append, List.map_append, List.map_append, same]
        rfl
      · rintro _ member
        rw [List.mem_singleton.mp member]
        exact newAllowed _ (List.mem_singleton.mpr rfl)
  | constant _ value induction =>
      rw [(same_addConstant _ value).1]
      exact induction allowed
  | close _ isIn closes induction =>
      rcases induction allowed with ⟨instructions, code, same, all⟩
      rcases closed code same isIn closes with ⟨front, kind, former, distance, back, rfl, there⟩
      refine ⟨front ++ kind.past distance :: back, there, ?_, ?_⟩
      · rw [← same, List.map_append, List.map_append, List.map_cons, List.map_cons]
        cases kind <;> rfl
      · intro instruction member
        rcases List.mem_append.mp member with inFront | rest
        · exact all _ (List.mem_append_left _ inFront)
        · rcases List.mem_cons.mp rest with rfl | inBack
          · exact jumps kind distance
          · exact all _ (List.mem_append_right _ (List.mem_cons_of_mem _ inBack))

/-- The code consists of the instructions that have been appended. -/
theorem code (emits : chunk.Emits history) :
    ∃ instructions,
      chunk.code.toList = encode instructions ∧
        instructions.map opcode = (history.map Prod.fst).map opcode := by
  rcases @code_of_forall chunk history (fun _ => True) (fun _ _ => trivial) emits
      fun _ _ => trivial with
    ⟨instructions, code, same, -⟩
  exact ⟨instructions, code, same⟩

/-- As many bytes have been written as the instructions have. -/
theorem size (emits : chunk.Emits history) :
    chunk.code.size = totalLength (history.map Prod.fst) := by
  rcases emits.code with ⟨instructions, code, same⟩
  rw [← Array.length_toList, code, length_encode]
  exact totalLength_of_opcodes same

/-- The table has for every byte the line of its instruction. -/
theorem lined (emits : chunk.Emits history) : chunk.Lined (linesOf history) := by
  induction emits with
  | blank => exact lined_blank
  | emit _ instruction line induction =>
      rw [linesOf_append]
      have written := induction.writeAll instruction.bytes line
      rw [length_bytes] at written
      simpa [linesOf, Chunk.emit] using written
  | constant _ value induction =>
      rcases same_addConstant _ value with ⟨code, runs⟩
      exact induction.of_same (congrArg Array.size code) runs
  | @close chunk closed history jump _ _ closes induction =>
      rcases chunk.same_patchJump jump with ⟨size, runs⟩
      rw [closes] at size runs
      exact induction.of_same size runs

/-- Every byte of an instruction comes from the line of the instruction. -/
theorem lineAt
    {before after : List (Instruction × Nat)}
    {instruction : Instruction}
    {line : Nat}
    (emits : chunk.Emits (before ++ (instruction, line) :: after))
    {offset : Nat}
    (begun : totalLength (before.map Prod.fst) ≤ offset)
    (inside : offset < totalLength (before.map Prod.fst) + instruction.length) :
    chunk.lineAt offset = line := by
  apply emits.lined.lineAt
  rw [← length_linesOf] at begun inside
  have whole :
      linesOf (before ++ (instruction, line) :: after) =
        linesOf before ++ (List.replicate instruction.length line ++ linesOf after) :=
    linesOf_append before _
  have short : offset - (linesOf before).length < instruction.length := by
    omega
  rw [whole, List.getElem?_append_right begun, List.getElem?_append_left (by simpa using short),
    List.getElem?_replicate_of_lt short]

/--
The instruction at an offset that decoding gets to has been appended there, and all of
its bytes come from the line on which it was.
-/
theorem recorded
    (emits : chunk.Emits history)
    {start : Nat}
    {instruction : Instruction}
    (boundary : Boundary chunk.code start)
    (decoded : decode chunk.code start = .complete instruction) :
    ∃ line,
      chunk.Records start instruction line ∧
        ∀ offset,
          start ≤ offset → offset < start + instruction.length → chunk.lineAt offset = line := by
  rcases emits.code with ⟨instructions, code, same⟩
  rcases split_of_boundary code boundary decoded with ⟨front, back, rfl, rfl⟩
  rw [List.map_append, List.map_cons, List.map_map] at same
  rcases List.map_eq_append_iff.mp same.symm with ⟨before, rest, rfl, sameFront, sameRest⟩
  rcases List.map_eq_cons_iff.mp sameRest with ⟨⟨appended, line⟩, after, rfl, isAppended, -⟩
  have place : totalLength (before.map Prod.fst) = totalLength front := by
    apply totalLength_of_opcodes
    rw [List.map_map]
    exact sameFront
  refine ⟨line, ⟨before, appended, after, emits, place, isAppended⟩, ?_⟩
  intro offset begun inside
  refine emits.lineAt (by rwa [place]) ?_
  rw [place]
  unfold Instruction.length at inside ⊢
  rwa [show appended.opcode = instruction.opcode from isAppended]

end Emits

end Chunk

end ScriptEngine
