import ScriptEngine.Proofs.Code.Lines

/-!
# Writing a chunk

A chunk is written by appending bytes and operands, by opening and closing forward jumps, by
appending backward jumps and by adding constants, in any order (`Chunk.Operation`).  A jump
that has been opened waits until it is closed, which happens at most once
(`Chunk.Writing.AllowsAll`).

Bytes that have been written are changed by closing a jump only, and then those of its
operand only (`Chunk.Writing.getElem?_perform`).  So the three bytes of a jump that does not
wait any more stay as they are (`Chunk.Writing.Settled.performAll`).

The line table is the exact run-length encoding of the lines that were given with the bytes
(`Chunk.line_table_is_exact`).
-/

namespace ScriptEngine

namespace Chunk

/-- A forward jump that has been opened. -/
structure OpenJump where
  operation : Opcode
  pending : PendingJump
deriving DecidableEq

/-- A change of a chunk that is being written.  An operation code is written as a byte. -/
inductive Operation where
  | write (byte : UInt8) (line : Nat)
  | writeWord (word : UInt16) (line : Nat)
  | openJump (operation : Opcode) (line : Nat)
  | closeJump (jump : OpenJump)
  | emitLoop (start line : Nat)
  | addConstant (constant : Constant)

/-- The line that is given with what is written, zero where nothing is. -/
def Operation.line : Operation → Nat
  | write _ line | writeWord _ line | openJump _ line | emitLoop _ line => line
  | closeJump _ | addConstant _ => 0

/-- A chunk that is being written, with the jumps that wait for their distances. -/
structure Writing where
  chunk : Chunk
  waiting : List OpenJump

namespace Writing

/-- Nothing has been written. -/
def blank : Writing where
  chunk := {}
  waiting := []

/-- Carries out an operation.  A jump that is closed waits no more, even if it is too long. -/
def perform (writing : Writing) : Operation → Writing
  | .write byte line => { writing with chunk := writing.chunk.write byte line }
  | .writeWord word line => { writing with chunk := writing.chunk.writeWord word line }
  | .openJump operation line =>
    let (pending, chunk) := writing.chunk.emitJump operation line
    { chunk, waiting := { operation, pending } :: writing.waiting }
  | .closeJump jump =>
    { chunk := (writing.chunk.patchJump jump.pending).2
      waiting := writing.waiting.erase jump }
  | .emitLoop start line => { writing with chunk := (writing.chunk.emitLoop start line).2 }
  | .addConstant constant => { writing with chunk := (writing.chunk.addConstant constant).2 }

/-- Carries out operations one after the other. -/
def performAll (writing : Writing) (operations : List Operation) : Writing :=
  operations.foldl perform writing

/-- A jump is closed while it waits, and a backward jump leads to a place of the code. -/
def Allows (writing : Writing) : Operation → Prop
  | .closeJump jump => jump ∈ writing.waiting
  | .emitLoop start _ => start ≤ writing.chunk.code.size
  | _ => True

/-- Every operation is allowed when its turn comes. -/
def AllowsAll (writing : Writing) : List Operation → Prop
  | [] => True
  | operation :: rest => writing.Allows operation ∧ (writing.perform operation).AllowsAll rest

instance decidableAllows (writing : Writing) : DecidablePred writing.Allows
  | .closeJump jump => inferInstanceAs (Decidable (jump ∈ writing.waiting))
  | .emitLoop start _ => inferInstanceAs (Decidable (start ≤ writing.chunk.code.size))
  | .write _ _ | .writeWord _ _ | .openJump _ _ | .addConstant _ => .isTrue trivial

instance decidableAllowsAll : (writing : Writing) → DecidablePred writing.AllowsAll
  | _, [] => .isTrue trivial
  | writing, operation :: rest =>
    have := decidableAllowsAll (writing.perform operation) rest
    inferInstanceAs (Decidable (writing.Allows operation ∧ _))

/-- The lines that operations give with the bytes that they write, byte by byte. -/
def linesGiven (writing : Writing) : List Operation → List Nat
  | [] => []
  | operation :: rest =>
    let after := writing.perform operation
    List.replicate (after.chunk.code.size - writing.chunk.code.size) operation.line ++
      after.linesGiven rest

theorem performAll_append (writing : Writing) (first second : List Operation) :
    writing.performAll (first ++ second) = (writing.performAll first).performAll second :=
  List.foldl_append

/-- One operation among others. -/
theorem performAll_append_cons
    (writing : Writing)
    (before : List Operation)
    (operation : Operation)
    (after : List Operation) :
    writing.performAll (before ++ operation :: after) =
      ((writing.performAll before).perform operation).performAll after :=
  List.foldl_append

theorem performAll_cons (writing : Writing) (operation : Operation) (rest : List Operation) :
    writing.performAll (operation :: rest) = (writing.perform operation).performAll rest :=
  rfl

theorem allowsAll_append {writing : Writing} {first second : List Operation} :
    writing.AllowsAll (first ++ second) ↔
      writing.AllowsAll first ∧ (writing.performAll first).AllowsAll second := by
  induction first generalizing writing with
  | nil => exact (true_and _).symm.to_iff
  | cons operation rest induction =>
      rw [List.cons_append, performAll_cons, AllowsAll, AllowsAll, induction, and_assoc]

/-! ## Bytes that are written -/

theorem toList_code_emitJump (chunk : Chunk) (operation : Opcode) (line : Nat) :
    (chunk.emitJump operation line).2.code.toList =
      chunk.code.toList ++ [operation.toByte, highByte 65535, lowByte 65535] := by
  simp [emitJump, writeWord]

theorem operand_emitJump (chunk : Chunk) (operation : Opcode) (line : Nat) :
    (chunk.emitJump operation line).1.operand = chunk.code.size + 1 :=
  Array.size_push _

/-- An operation appends bytes, all on its line, or adds a constant, or closes a jump. -/
theorem perform_cases (writing : Writing) (operation : Operation) :
    (∃ bytes,
      (writing.perform operation).chunk = writing.chunk.writeAll bytes operation.line) ∨
      (∃ constant, operation = .addConstant constant) ∨ ∃ jump, operation = .closeJump jump := by
  cases operation with
  | write byte line => exact .inl ⟨[byte], rfl⟩
  | writeWord word line => exact .inl ⟨[highByte word, lowByte word], rfl⟩
  | openJump operation line =>
      exact .inl ⟨[operation.toByte, highByte 65535, lowByte 65535], rfl⟩
  | closeJump jump => exact .inr (.inr ⟨jump, rfl⟩)
  | emitLoop start line =>
      left
      show ∃ bytes, (writing.chunk.emitLoop start line).2 = _
      generalize isDistance :
        UInt16.ofNat ((writing.chunk.write Opcode.loop.toByte line).code.size - start + 2) =
          distance
      unfold Chunk.emitLoop
      simp only [isDistance]
      split
      · exact ⟨[Opcode.loop.toByte, highByte distance, lowByte distance], rfl⟩
      · exact ⟨[Opcode.loop.toByte], rfl⟩
  | addConstant constant => exact .inr (.inl ⟨constant, rfl⟩)

/-- Neither a constant nor the closing of a jump makes the code longer. -/
theorem same_perform
    {writing : Writing}
    {operation : Operation}
    (quiet :
      (∃ constant, operation = .addConstant constant) ∨ ∃ jump, operation = .closeJump jump) :
    (writing.perform operation).chunk.code.size = writing.chunk.code.size ∧
      (writing.perform operation).chunk.runs = writing.chunk.runs := by
  rcases quiet with ⟨constant, rfl⟩ | ⟨jump, rfl⟩
  · obtain ⟨code, runs⟩ := writing.chunk.same_addConstant constant
    exact ⟨congrArg Array.size code, runs⟩
  · exact writing.chunk.same_patchJump jump.pending

/-- What has been written stays, but for the operand of a jump that is closed. -/
theorem getElem?_perform
    (writing : Writing)
    (operation : Operation)
    {position : Nat}
    (inside : position < writing.chunk.code.size)
    (elsewhere :
      ∀ jump,
        operation = .closeJump jump →
          position ≠ jump.pending.operand ∧ position ≠ jump.pending.operand + 1) :
    (writing.perform operation).chunk.code[position]? = writing.chunk.code[position]? := by
  rcases writing.perform_cases operation with ⟨bytes, written⟩ | ⟨constant, rfl⟩ | ⟨jump, rfl⟩
  · rw [written, ← Array.getElem?_toList, toList_code_writeAll,
      List.getElem?_append_left (by simpa using inside), Array.getElem?_toList]
  · exact congrArg (fun code : Array UInt8 => code[position]?)
      (writing.chunk.same_addConstant constant).1
  · obtain ⟨notHigh, notLow⟩ := elsewhere jump rfl
    show (writing.chunk.patchJump jump.pending).2.code[position]? = _
    unfold patchJump
    simp only
    split
    · rw [Array.getElem?_setIfInBounds_ne (Ne.symm notLow),
        Array.getElem?_setIfInBounds_ne (Ne.symm notHigh)]
    · rfl

theorem size_le_perform (writing : Writing) (operation : Operation) :
    writing.chunk.code.size ≤ (writing.perform operation).chunk.code.size := by
  rcases writing.perform_cases operation with ⟨bytes, written⟩ | quiet
  · rw [written, ← Array.length_toList, ← Array.length_toList, toList_code_writeAll,
      List.length_append]
    exact Nat.le_add_right _ _
  · exact Nat.le_of_eq (same_perform quiet).1.symm

/-- A jump that waits has waited before, or it has just been opened at the end of the code. -/
theorem mem_waiting_perform
    {writing : Writing}
    {operation : Operation}
    {jump : OpenJump}
    (waits : jump ∈ (writing.perform operation).waiting) :
    jump ∈ writing.waiting ∨ jump.pending.operand = writing.chunk.code.size + 1 := by
  cases operation with
  | openJump operation line =>
      rcases List.mem_cons.mp waits with rfl | earlier
      · exact .inr (operand_emitJump _ _ _)
      · exact .inl earlier
  | closeJump other => exact .inl (List.mem_of_mem_erase waits)
  | _ => exact .inl waits

/-! ## Bytes that stay -/

/-- Bytes stand at a place, and no jump that waits has its operand among them. -/
structure Settled (writing : Writing) (start : Nat) (bytes : List UInt8) : Prop where
  inside : start + bytes.length ≤ writing.chunk.code.size
  stand :
    ∀ position byte,
      bytes[position]? = some byte → writing.chunk.code[start + position]? = some byte
  apart :
    ∀ jump ∈ writing.waiting,
      jump.pending.operand + 2 ≤ start ∨ start + bytes.length ≤ jump.pending.operand

namespace Settled

variable {writing : Writing} {start : Nat} {bytes : List UInt8}

theorem perform
    (settled : writing.Settled start bytes)
    {operation : Operation}
    (allowed : writing.Allows operation) :
    (writing.perform operation).Settled start bytes := by
  refine ⟨Nat.le_trans settled.inside (size_le_perform writing operation), ?_, ?_⟩
  · intro position byte found
    have here := settled.stand position byte found
    have within : position < bytes.length := (List.getElem?_eq_some_iff.mp found).1
    rw [getElem?_perform writing operation (Array.getElem?_eq_some_iff.mp here).1 ?_]
    · exact here
    · rintro jump rfl
      rcases settled.apart jump allowed with before | behind <;> omega
  · intro jump waits
    rcases mem_waiting_perform waits with earlier | opened
    · exact settled.apart jump earlier
    · have written := settled.inside
      exact .inr (by omega)

/-- Later operations do not disturb them. -/
theorem performAll
    (settled : writing.Settled start bytes)
    {operations : List Operation}
    (allowed : writing.AllowsAll operations) :
    (writing.performAll operations).Settled start bytes := by
  induction operations generalizing writing with
  | nil => exact settled
  | cons operation rest induction => exact induction (settled.perform allowed.1) allowed.2

end Settled

/-! ## Jumps that wait -/

/--
The operation codes of the jumps that wait stand in front of their operands, and the jumps
stand one behind the other, the latest first.
-/
structure InOrder (writing : Writing) : Prop where
  stand :
    ∀ jump ∈ writing.waiting,
      0 < jump.pending.operand ∧
        jump.pending.operand + 2 ≤ writing.chunk.code.size ∧
          writing.chunk.code[jump.pending.operand - 1]? = some jump.operation.toByte
  apart :
    writing.waiting.Pairwise fun later earlier =>
      earlier.pending.operand + 3 ≤ later.pending.operand

namespace InOrder

variable {writing : Writing}

theorem of_blank : blank.InOrder :=
  ⟨nofun, .nil⟩

/-- Of two jumps that wait, each stands beside the other. -/
theorem beside
    (inOrder : writing.InOrder)
    {first second : OpenJump}
    (isFirst : first ∈ writing.waiting)
    (isSecond : second ∈ writing.waiting)
    (different : first ≠ second) :
    first.pending.operand + 3 ≤ second.pending.operand ∨
      second.pending.operand + 3 ≤ first.pending.operand := by
  have order := inOrder.apart
  generalize writing.waiting = waiting at isFirst isSecond order
  induction order with
  | nil => cases isFirst
  | cons latest _ induction =>
      rcases List.mem_cons.mp isFirst with rfl | firstEarlier <;>
        rcases List.mem_cons.mp isSecond with rfl | secondEarlier
      · exact absurd rfl different
      · exact .inr (latest second secondEarlier)
      · exact .inl (latest first firstEarlier)
      · exact induction firstEarlier secondEarlier

theorem nodup (inOrder : writing.InOrder) : writing.waiting.Nodup := by
  apply inOrder.apart.imp
  rintro later earlier apart rfl
  omega

theorem perform
    (inOrder : writing.InOrder)
    {operation : Operation}
    (allowed : writing.Allows operation) :
    (writing.perform operation).InOrder := by
  -- A jump that has waited and goes on waiting stands where it stood.
  have kept :
      ∀ jump ∈ writing.waiting,
        operation ≠ .closeJump jump →
          0 < jump.pending.operand ∧
            jump.pending.operand + 2 ≤ (writing.perform operation).chunk.code.size ∧
              (writing.perform operation).chunk.code[jump.pending.operand - 1]? =
                some jump.operation.toByte := by
    intro jump waits goesOn
    obtain ⟨positive, inside, here⟩ := inOrder.stand jump waits
    refine ⟨positive, Nat.le_trans inside (size_le_perform writing operation), ?_⟩
    rw [getElem?_perform writing operation (by omega) ?_]
    · exact here
    · rintro other rfl
      have different : jump ≠ other := by
        rintro rfl
        exact goesOn rfl
      rcases inOrder.beside waits allowed different with before | behind <;> omega
  cases operation with
  | openJump operation line =>
      have written := toList_code_emitJump writing.chunk operation line
      have operand := operand_emitJump writing.chunk operation line
      refine ⟨List.forall_mem_cons.mpr ⟨?_, fun jump waits => kept jump waits nofun⟩, ?_⟩
      · show
          0 < (writing.chunk.emitJump operation line).1.operand ∧
            (writing.chunk.emitJump operation line).1.operand + 2 ≤
                (writing.chunk.emitJump operation line).2.code.size ∧
              (writing.chunk.emitJump operation line).2.code[
                  (writing.chunk.emitJump operation line).1.operand - 1]? =
                some operation.toByte
        have size : (writing.chunk.emitJump operation line).2.code.size =
            writing.chunk.code.size + 3 := by
          rw [← Array.length_toList, written, List.length_append, Array.length_toList]
          rfl
        rw [operand, Nat.add_sub_cancel, size, ← Array.getElem?_toList, written,
          ← Array.length_toList, List.getElem?_append_right (Nat.le_refl _), Nat.sub_self]
        exact ⟨Nat.succ_pos _, Nat.le_refl _, rfl⟩
      · refine List.pairwise_cons.mpr ⟨fun jump waits => ?_, inOrder.apart⟩
        have inside := (inOrder.stand jump waits).2.1
        show jump.pending.operand + 3 ≤ (writing.chunk.emitJump operation line).1.operand
        omega
  | closeJump closed =>
      constructor
      · intro jump waits
        apply kept jump (List.mem_of_mem_erase waits)
        rintro ⟨⟩
        exact inOrder.nodup.not_mem_erase waits
      · exact inOrder.apart.sublist List.erase_sublist
  | write | writeWord | emitLoop | addConstant =>
      exact ⟨fun jump waits => kept jump waits nofun, inOrder.apart⟩

theorem performAll
    (inOrder : writing.InOrder)
    {operations : List Operation}
    (allowed : writing.AllowsAll operations) :
    (writing.performAll operations).InOrder := by
  induction operations generalizing writing with
  | nil => exact inOrder
  | cons operation rest induction => exact induction (inOrder.perform allowed.1) allowed.2

end InOrder

end Writing

/-! ## Lines -/

section Lines

variable {writing : Writing} {lines : List Nat}

/-- The bytes that an operation writes get the line that is given with them. -/
theorem Lined.perform (lined : writing.chunk.Lined lines) (operation : Operation) :
    (writing.perform operation).chunk.Lined
      (lines ++
        List.replicate
          ((writing.perform operation).chunk.code.size - writing.chunk.code.size)
          operation.line) := by
  have counted :
      ∃ count,
        (writing.perform operation).chunk.Lined
          (lines ++ List.replicate count operation.line) := by
    rcases writing.perform_cases operation with ⟨bytes, written⟩ | quiet
    · exact ⟨bytes.length, written ▸ lined.writeAll bytes operation.line⟩
    · obtain ⟨size, runs⟩ := Writing.same_perform quiet
      refine ⟨0, ?_⟩
      rw [List.replicate_zero, List.append_nil]
      exact lined.of_same size runs
  obtain ⟨count, counted⟩ := counted
  have grown : (writing.perform operation).chunk.code.size - writing.chunk.code.size = count := by
    rw [counted.size, lined.size, List.length_append, List.length_replicate,
      Nat.add_sub_cancel_left]
  rw [grown]
  exact counted

theorem Lined.performAll (lined : writing.chunk.Lined lines) (operations : List Operation) :
    (writing.performAll operations).chunk.Lined (lines ++ writing.linesGiven operations) := by
  induction operations generalizing writing lines with
  | nil =>
      rw [Writing.linesGiven, List.append_nil]
      exact lined
  | cons operation rest induction =>
      have later := induction (lined.perform operation)
      rw [List.append_assoc] at later
      exact later

/--
The runs of a table begin one behind the other, the first at the beginning of the code, and
each of them has another line than the one before.
-/
structure RunLengthEncoded (chunk : Chunk) : Prop where
  offsets : chunk.runs.Pairwise fun later earlier => earlier.offset < later.offset
  changes : chunk.runs.IsChain fun later earlier => earlier.line ≠ later.line
  inside : ∀ start ∈ chunk.runs, start.offset < chunk.code.size
  first : ∀ start, chunk.runs.getLast? = some start → start.offset = 0
  covers : chunk.runs = [] → chunk.code.size = 0

namespace RunLengthEncoded

variable {chunk other : Chunk} {line : Nat}

theorem of_blank : RunLengthEncoded {} where
  offsets := .nil
  changes := .nil
  inside := nofun
  first := nofun
  covers _ := rfl

theorem of_same
    (encoded : chunk.RunLengthEncoded)
    (size : other.code.size = chunk.code.size)
    (runs : other.runs = chunk.runs) :
    other.RunLengthEncoded where
  offsets := runs ▸ encoded.offsets
  changes := runs ▸ encoded.changes
  inside := by
    rw [runs, size]
    exact encoded.inside
  first := runs ▸ encoded.first
  covers := by
    rw [runs, size]
    exact encoded.covers

/-- A byte continues the latest run if the line is the same, and begins one otherwise. -/
theorem write (encoded : chunk.RunLengthEncoded) (byte : UInt8) (line : Nat) :
    (chunk.write byte line).RunLengthEncoded := by
  have size : (chunk.write byte line).code.size = chunk.code.size + 1 := Array.size_push _
  have inside : ∀ start ∈ chunk.runs, start.offset < (chunk.write byte line).code.size := by
    intro start member
    rw [size]
    exact Nat.lt_succ_of_lt (encoded.inside start member)
  rcases runs : chunk.runs with _ | ⟨latest, earlier⟩
  · have begins : (chunk.write byte line).runs = [{ offset := chunk.code.size, line }] := by
      simp [Chunk.write, runs]
    constructor <;> rw [begins]
    · exact List.pairwise_singleton _ _
    · exact .singleton _
    · rintro start (_ | ⟨_, ⟨⟩⟩)
      exact size ▸ Nat.lt_succ_self _
    · rintro start ⟨⟩
      exact encoded.covers runs
    · nofun
  · by_cases same : latest.line = line
    · have continues : (chunk.write byte line).runs = chunk.runs := by
        simp [Chunk.write, runs, same]
      exact
        { offsets := continues ▸ encoded.offsets
          changes := continues ▸ encoded.changes
          inside := continues ▸ inside
          first := continues ▸ encoded.first
          covers := by
            rw [continues, runs]
            nofun }
    · have begins :
          (chunk.write byte line).runs = { offset := chunk.code.size, line } :: chunk.runs := by
        simp [Chunk.write, runs, same]
      constructor <;> rw [begins]
      · exact List.pairwise_cons.mpr ⟨encoded.inside, encoded.offsets⟩
      · have changes := encoded.changes
        rw [runs] at changes ⊢
        exact .cons_cons same changes
      · exact List.forall_mem_cons.mpr ⟨size ▸ Nat.lt_succ_self _, inside⟩
      · intro start isFirst
        rw [runs, List.getLast?_cons_cons, ← runs] at isFirst
        exact encoded.first start isFirst
      · nofun

theorem writeAll (encoded : chunk.RunLengthEncoded) (bytes : List UInt8) (line : Nat) :
    (chunk.writeAll bytes line).RunLengthEncoded := by
  induction bytes generalizing chunk with
  | nil => exact encoded
  | cons byte bytes induction => exact induction (encoded.write byte line)

theorem perform
    {writing : Writing}
    (encoded : writing.chunk.RunLengthEncoded)
    (operation : Operation) :
    (writing.perform operation).chunk.RunLengthEncoded := by
  rcases writing.perform_cases operation with ⟨bytes, written⟩ | quiet
  · exact written ▸ encoded.writeAll bytes operation.line
  · obtain ⟨size, runs⟩ := Writing.same_perform quiet
    exact encoded.of_same size runs

theorem performAll
    {writing : Writing}
    (encoded : writing.chunk.RunLengthEncoded)
    (operations : List Operation) :
    (writing.performAll operations).chunk.RunLengthEncoded := by
  induction operations generalizing writing with
  | nil => exact encoded
  | cons operation rest induction => exact induction (encoded.perform operation)

/-- Behind the end of the code the line is that of the last byte. -/
theorem lineAt_behind
    (encoded : chunk.RunLengthEncoded)
    {lines : List Nat}
    (lined : chunk.Lined lines)
    {offset : Nat}
    (behind : lines.length ≤ offset) :
    chunk.lineAt offset = lines.getLast?.getD 0 := by
  rcases runs : chunk.runs with _ | ⟨latest, earlier⟩
  · have empty : lines = [] := List.length_eq_zero_iff.mp (lined.size ▸ encoded.covers runs)
    unfold lineAt
    rw [runs, empty]
    rfl
  · have latestInside := encoded.inside latest (runs ▸ List.mem_cons_self)
    rw [lined.size] at latestInside
    have last : lines.length - 1 < lines.length := by omega
    have isLast := lined.lineAt _ _ (List.getElem?_eq_getElem last)
    rw [lineAt_of_runs runs (by omega)] at isLast ⊢
    rw [isLast, List.getLast?_eq_getElem?, List.getElem?_eq_getElem last, Option.getD_some]

end RunLengthEncoded

/-- The line at an offset is that of the last entry of the table that begins there or before. -/
theorem lineAt_of_partition
    {chunk : Chunk}
    {begun later : List LineStart}
    {offset : Nat}
    (split : chunk.lineStarts = begun ++ later)
    (isBegun : ∀ start ∈ begun, start.offset ≤ offset)
    (isLater : ∀ start ∈ later, offset < start.offset) :
    chunk.lineAt offset = (begun.getLast?.map LineStart.line).getD 0 := by
  have runs : chunk.runs = later.reverse ++ begun.reverse := by
    rw [← List.reverse_append, ← split, lineStarts, List.reverse_reverse]
  have none : later.reverse.find? (fun start => start.offset ≤ offset) = none := by
    apply List.find?_eq_none.mpr
    intro start member
    simpa using isLater start (List.mem_reverse.mp member)
  unfold lineAt
  rw [runs, List.find?_append, none, Option.none_or]
  rcases latest : begun.reverse with _ | ⟨last, before⟩
  · rw [List.reverse_eq_nil_iff.mp latest]
    rfl
  · have isLast : begun.getLast? = some last := by
      rw [List.getLast?_eq_head?_reverse, latest]
      rfl
    have member : last ∈ begun := List.mem_of_getLast? isLast
    rw [List.find?_cons_of_pos (by simpa using isBegun last member), isLast]
    rfl

/--
Whatever is written, with whatever lines: the line of every byte is the one that was given
with it, behind the end of the code it is the last one, and zero if there is none.  The
table is found by searching the entry before the first one that begins later.  Its entries
begin one behind the other, the first at the beginning of the code, and neighbours have
different lines.
-/
theorem line_table_is_exact (operations : List Operation) :
    let chunk := (Writing.blank.performAll operations).chunk
    let given := Writing.blank.linesGiven operations
    given.length = chunk.code.size ∧
      (∀ offset line, given[offset]? = some line → chunk.lineAt offset = line) ∧
      (∀ offset, chunk.code.size ≤ offset → chunk.lineAt offset = given.getLast?.getD 0) ∧
      (∀ begun later offset,
        chunk.lineStarts = begun ++ later →
          (∀ start ∈ begun, start.offset ≤ offset) →
            (∀ start ∈ later, offset < start.offset) →
              chunk.lineAt offset = (begun.getLast?.map LineStart.line).getD 0) ∧
      (chunk.lineStarts.Pairwise fun first second => first.offset < second.offset) ∧
      (∀ start, chunk.lineStarts.head? = some start → start.offset = 0) ∧
      (chunk.lineStarts.IsChain fun first second => first.line ≠ second.line) ∧
      (chunk.lineStarts = [] ↔ chunk.code.size = 0) := by
  intro chunk given
  have lined : chunk.Lined ([] ++ given) := Lined.performAll lined_blank operations
  rw [List.nil_append] at lined
  have encoded : chunk.RunLengthEncoded := RunLengthEncoded.of_blank.performAll operations
  refine ⟨lined.size.symm, lined.lineAt, ?_, ?_, ?_, ?_, ?_, ?_⟩
  · intro offset behind
    rw [lined.size] at behind
    exact encoded.lineAt_behind lined behind
  · intro begun later offset split isBegun isLater
    exact lineAt_of_partition split isBegun isLater
  · exact List.pairwise_reverse.mpr encoded.offsets
  · intro start isFirst
    rw [lineStarts, List.head?_reverse] at isFirst
    exact encoded.first start isFirst
  · exact List.isChain_reverse.mpr encoded.changes
  · rw [lineStarts, List.reverse_eq_nil_iff]
    refine ⟨encoded.covers, fun empty => ?_⟩
    apply List.eq_nil_iff_forall_not_mem.mpr
    intro start member
    have inside := encoded.inside start member
    omega

/-- Lines go back and forth, and a jump is closed in between. -/
def returningLines : List Operation :=
  [.openJump .jump 3, .write Opcode.pushNull.toByte 1,
    .closeJump { operation := .jump, pending := { operand := 1 } },
    .writeWord 7 1, .write Opcode.pop.toByte 3]

/-- The table has three runs, two of them on the same line. -/
theorem returningLines_table :
    let chunk := (Writing.blank.performAll returningLines).chunk
    chunk.lineStarts = [⟨0, 3⟩, ⟨3, 1⟩, ⟨6, 3⟩] ∧
      chunk.lineAt 2 = 3 ∧ chunk.lineAt 5 = 1 ∧ chunk.lineAt 6 = 3 ∧ chunk.lineAt 100 = 3 := by
  obtain ⟨-, lineAt, behind, -⟩ := line_table_is_exact returningLines
  exact ⟨rfl, lineAt 2 3 rfl, lineAt 5 1 rfl, lineAt 6 3 rfl, behind 100 (by decide)⟩

end Lines

end Chunk

end ScriptEngine
