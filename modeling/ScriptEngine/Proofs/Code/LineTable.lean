import ScriptEngine.Proofs.Code.Lines

/-!
# Line tables that ascend

If every byte of a chunk comes from a line that is not before the line of the byte before
it, the table of the chunk ascends in offsets and in lines (`Chunk.Ascends`), and bytes
that come later in the code come from later lines (`Chunk.Ascends.lineAt_mono`).
-/

namespace ScriptEngine

namespace Chunk

/--
The runs of the table begin one behind the other and inside the code, on known lines that
increase up to a last one.
-/
structure Ascends (known : Nat → Prop) (chunk : Chunk) (last : Nat) : Prop where
  offsets : chunk.runs.Pairwise fun later earlier => earlier.offset < later.offset
  lines : chunk.runs.Pairwise fun later earlier => earlier.line < later.line
  inside : ∀ start ∈ chunk.runs, start.offset < chunk.code.size
  isKnown : ∀ start ∈ chunk.runs, known start.line
  bounded : ∀ start ∈ chunk.runs, start.line ≤ last

theorem ascends_blank (known : Nat → Prop) (last : Nat) : Ascends known {} last where
  offsets := .nil
  lines := .nil
  inside := nofun
  isKnown := nofun
  bounded := nofun

namespace Ascends

variable {known : Nat → Prop} {chunk other : Chunk} {last line : Nat}

theorem mono (ascends : Ascends known chunk last) (later : last ≤ line) :
    Ascends known chunk line where
  offsets := ascends.offsets
  lines := ascends.lines
  inside := ascends.inside
  isKnown := ascends.isKnown
  bounded := fun start member => Nat.le_trans (ascends.bounded start member) later

/-- Code of the same size with the same table. -/
theorem of_same
    (ascends : Ascends known chunk last)
    (size : other.code.size = chunk.code.size)
    (runs : other.runs = chunk.runs) :
    Ascends known other last where
  offsets := runs ▸ ascends.offsets
  lines := runs ▸ ascends.lines
  inside := by
    rw [size, runs]
    exact ascends.inside
  isKnown := runs ▸ ascends.isKnown
  bounded := runs ▸ ascends.bounded

/-- A byte from a later line begins a run, and one from the last line may continue it. -/
theorem write
    (ascends : Ascends known chunk last)
    (later : last ≤ line)
    (isKnown : known line)
    (byte : UInt8) :
    Ascends known (chunk.write byte line) line := by
  have size : (chunk.write byte line).code.size = chunk.code.size + 1 := Array.size_push _
  have inside :
      ∀ start ∈ chunk.runs, start.offset < (chunk.write byte line).code.size := by
    intro start member
    rw [size]
    exact Nat.lt_succ_of_lt (ascends.inside start member)
  rcases runs : chunk.runs with _ | ⟨latest, earlier⟩
  · have begins : (chunk.write byte line).runs = [{ offset := chunk.code.size, line }] := by
      rcases chunk.runs_write byte line with ⟨latest, earlier, found, -⟩ | added
      · rw [runs] at found
        cases found
      · rw [added, runs]
    constructor <;> rw [begins]
    · exact List.pairwise_singleton _ _
    · exact List.pairwise_singleton _ _
    · rintro start (_ | ⟨_, ⟨⟩⟩)
      exact size ▸ Nat.lt_succ_self _
    · rintro start (_ | ⟨_, ⟨⟩⟩)
      exact isKnown
    · rintro start (_ | ⟨_, ⟨⟩⟩)
      exact Nat.le_refl line
  · by_cases same : latest.line = line
    · have continues : (chunk.write byte line).runs = chunk.runs := by
        unfold Chunk.write
        simp [runs, same]
      exact
        { offsets := continues ▸ ascends.offsets
          lines := continues ▸ ascends.lines
          inside := continues ▸ inside
          isKnown := continues ▸ ascends.isKnown
          bounded := continues ▸ (ascends.mono later).bounded }
    · have begins :
          (chunk.write byte line).runs = { offset := chunk.code.size, line } :: chunk.runs := by
        unfold Chunk.write
        simp [runs, same]
      -- The latest run has the greatest line, which is another one.
      have isLatest : latest.line < line := by
        apply Nat.lt_of_le_of_ne _ same
        exact Nat.le_trans (ascends.bounded latest (by rw [runs]; exact List.mem_cons_self)) later
      have before : ∀ start ∈ chunk.runs, start.line < line := by
        have ordered := ascends.lines
        rw [runs] at ordered ⊢
        intro start member
        rcases List.mem_cons.mp member with rfl | isEarlier
        · exact isLatest
        · exact Nat.lt_trans (List.rel_of_pairwise_cons ordered isEarlier) isLatest
      constructor <;> rw [begins]
      · exact List.pairwise_cons.mpr ⟨ascends.inside, ascends.offsets⟩
      · exact List.pairwise_cons.mpr ⟨before, ascends.lines⟩
      · exact List.forall_mem_cons.mpr ⟨size ▸ Nat.lt_succ_self _, inside⟩
      · exact List.forall_mem_cons.mpr ⟨isKnown, ascends.isKnown⟩
      · exact List.forall_mem_cons.mpr ⟨Nat.le_refl line, (ascends.mono later).bounded⟩

theorem writeAll
    (ascends : Ascends known chunk last)
    (later : last ≤ line)
    (isKnown : known line)
    (bytes : List UInt8) :
    Ascends known (chunk.writeAll bytes line) line := by
  induction bytes generalizing chunk last with
  | nil => exact ascends.mono later
  | cons byte bytes induction =>
      exact induction (ascends.write later isKnown byte) (Nat.le_refl line)

theorem emit
    (ascends : Ascends known chunk last)
    (later : last ≤ line)
    (isKnown : known line)
    (instruction : Instruction) :
    Ascends known (chunk.emit instruction line) line :=
  ascends.writeAll later isKnown instruction.bytes

theorem emitJump
    (ascends : Ascends known chunk last)
    (later : last ≤ line)
    (isKnown : known line)
    (operation : Opcode) :
    Ascends known (chunk.emitJump operation line).2 line :=
  (ascends.write later isKnown operation.toByte).writeAll (Nat.le_refl line) isKnown _

theorem addConstant (ascends : Ascends known chunk last) (constant : Constant) :
    Ascends known (chunk.addConstant constant).2 last := by
  rcases same_addConstant chunk constant with ⟨code, runs⟩
  exact ascends.of_same (congrArg Array.size code) runs

theorem patchJump (ascends : Ascends known chunk last) (pending : PendingJump) :
    Ascends known (chunk.patchJump pending).2 last := by
  rcases same_patchJump chunk pending with ⟨size, runs⟩
  exact ascends.of_same size runs

/-! ## Lines of bytes -/

theorem lineAt_le (ascends : Ascends known chunk last) (offset : Nat) :
    chunk.lineAt offset ≤ last := by
  unfold Chunk.lineAt
  split
  · rename_i start found
    exact ascends.bounded start (List.mem_of_find?_eq_some found)
  · exact Nat.zero_le last

/-- Without its latest run the table ascends to an earlier line. -/
theorem earlier
    {latest : LineStart}
    {runs : List LineStart}
    (ascends : Ascends known chunk last)
    (table : chunk.runs = latest :: runs) :
    Ascends known { chunk with runs } latest.line := by
  rcases ascends with ⟨offsets, lines, inside, isKnown, -⟩
  rw [table] at offsets lines inside isKnown
  exact
    { offsets := offsets.of_cons
      lines := lines.of_cons
      inside := fun start member => inside start (List.mem_cons_of_mem _ member)
      isKnown := fun start member => isKnown start (List.mem_cons_of_mem _ member)
      bounded := fun start member =>
        Nat.le_of_lt (List.rel_of_pairwise_cons lines member) }

/-- What comes later in the code comes from a later line. -/
theorem lineAt_mono
    (ascends : Ascends known chunk last)
    {first second : Nat}
    (order : first ≤ second) :
    chunk.lineAt first ≤ chunk.lineAt second := by
  rcases chunk with ⟨code, constants, runs, numbers, strings⟩
  induction runs generalizing last with
  | nil => exact Nat.le_refl _
  | cons latest runs induction =>
      have without := ascends.earlier rfl
      have later {offset : Nat} (before : offset < latest.offset) :
          Chunk.lineAt ⟨code, constants, latest :: runs, numbers, strings⟩ offset =
            Chunk.lineAt ⟨code, constants, runs, numbers, strings⟩ offset :=
        lineAt_of_later rfl before
      by_cases begun : latest.offset ≤ first
      · rw [lineAt_of_runs rfl begun, lineAt_of_runs rfl (Nat.le_trans begun order)]
      · rw [later (Nat.lt_of_not_le begun)]
        by_cases reached : latest.offset ≤ second
        · rw [lineAt_of_runs rfl reached]
          exact without.lineAt_le first
        · rw [later (Nat.lt_of_not_le reached)]
          exact induction without

end Ascends

end Chunk

end ScriptEngine
