import ScriptEngine.Proofs.Compiler.BindingFlow

/-!
# The code of an import

An import declaration begins with an instruction that loads the module and drops the
result.  If it names the module or variables of it, further instructions fetch the
module again; all of them have the operand of the first.
-/

namespace ScriptEngine

open Syntax Compilation

namespace Compilation

/-- The code that has been written imports no module but one. -/
def ImportsOnly (index : UInt16) (before after : Compilation) : Prop :=
  ∃ instructions,
    after.written = before.written ++ Instruction.encode instructions ∧
      ∀ other, Instruction.importModule other ∈ instructions → other = index

namespace ImportsOnly

variable {index : UInt16} {before between after : Compilation}

/-- No code has been written. -/
theorem of_same (same : after.written = before.written) : ImportsOnly index before after :=
  ⟨[], by simp [same], fun _ member => absurd member List.not_mem_nil⟩

theorem trans
    (first : ImportsOnly index before between)
    (second : ImportsOnly index between after) :
    ImportsOnly index before after := by
  rcases first with ⟨earlier, firstWritten, firstOnly⟩
  rcases second with ⟨later, secondWritten, secondOnly⟩
  refine ⟨earlier ++ later, ?_, ?_⟩
  · rw [secondWritten, firstWritten, Instruction.encode_append, List.append_assoc]
  · intro other member
    rcases List.mem_append.mp member with isEarlier | isLater
    · exact firstOnly other isEarlier
    · exact secondOnly other isLater

theorem of_appends
    {instruction : Instruction}
    (appends : Appends before after [instruction])
    (only : ∀ other, instruction = .importModule other → other = index) :
    ImportsOnly index before after := by
  refine ⟨[instruction], appends.writes.written, ?_⟩
  intro other member
  exact only other (List.mem_singleton.mp member).symm

theorem advance (state : Compilation) : ImportsOnly index state state.advance :=
  of_same (by simpa using (Writes.advance state).written)

end ImportsOnly

end Compilation

namespace Compiler

variable {state : Compilation} (index : UInt16)

theorem declareVariable_importsOnly (name : String) :
    Guarantees (declareVariable name) state (fun _ after => ImportsOnly index state after)
      (fun _ => True) := by
  refine .bind (guarantees_look ?_)
  split
  · refine .bind (guarantees_moduleSlot (fun slot table _ => ?_) fun _ _ => trivial)
    refine .bind (.bind (guarantees_look ?_))
    split
    · exact guarantees_fail trivial
    · exact .pure (.of_same rfl)
  · refine .bind (guarantees_declareLocal (fun _ => ?_) fun _ => trivial)
    exact .pure (.of_same rfl)

theorem defineVariable_importsOnly (binding : Binding) :
    Guarantees (defineVariable binding) state (fun _ after => ImportsOnly index state after)
      (fun _ => True) := by
  cases binding with
  | moduleSlot slot => exact guarantees_append fun _ appends => .of_appends appends nofun
  | newLocal => exact guarantees_change (.of_same rfl)

/-- A variable of the module is fetched and bound to its name. -/
theorem importedVariable_importsOnly :
    Guarantees (Inner.importedVariable index) state
      (fun _ after => ImportsOnly index state after) (fun _ => True) := by
  refine .bind (guarantees_consumeIdentifier (fun name _ => ?_) fun _ => trivial)
  refine .bind (guarantees_nameIndex (fun other chunk _ writes => ?_) fun _ _ => trivial)
  have named : ImportsOnly index state (state.advance.withChunk chunk) :=
    .trans (.advance state) (.of_same (by simpa using writes.written))
  refine .bind ((declareVariable_importsOnly index name).mono
    (fun binding declared declares => ?_) fun _ => id)
  refine .bind (guarantees_append fun imported importing => ?_)
  have fetched := (named.trans declares).trans (.of_appends importing (by rintro _ ⟨⟩; rfl))
  refine .bind (guarantees_append fun read reading => ?_)
  have value := fetched.trans (.of_appends reading nofun)
  exact (defineVariable_importsOnly index binding).mono (fun _ _ => value.trans) fun _ => id

/-- Declaring a variable writes no code. -/
theorem declareVariable_silent (name : String) :
    Guarantees (declareVariable name) state (fun _ after => after.written = state.written)
      (fun _ => True) := by
  refine .bind (guarantees_look ?_)
  split
  · refine .bind (guarantees_moduleSlot (fun slot table _ => ?_) fun _ _ => trivial)
    refine .bind (.bind (guarantees_look ?_))
    split
    · exact guarantees_fail trivial
    · exact .pure rfl
  · refine .bind (guarantees_declareLocal (fun _ => ?_) fun _ => trivial)
    exact .pure rfl

/-- A variable that an import names is read as a property of the module, and then bound. -/
theorem importedVariable_reads :
    Guarantees (Inner.importedVariable index) state
      (fun _ after =>
        ∃ property rest,
          after.written =
              state.written ++
                Instruction.encode (.importModule index :: .getProperty property :: rest) ∧
            ∀ instruction ∈ rest, ∃ slot, instruction = .defineModule slot)
      fun _ => True := by
  refine .bind (guarantees_consumeIdentifier (fun name _ => ?_) fun _ => trivial)
  refine .bind (guarantees_nameIndex (fun property chunk _ writes => ?_) fun _ _ => trivial)
  have named : (state.advance.withChunk chunk).written = state.written := by
    have unmoved := (Writes.advance state).written
    rw [writes.written, unmoved]
    simp
  refine .bind ((declareVariable_silent name).mono (fun binding declared same => ?_) fun _ => id)
  refine .bind (guarantees_append fun imported importing => ?_)
  refine .bind (guarantees_append fun read reading => ?_)
  have value := (importing.trans reading).writes.written
  rw [same, named] at value
  cases binding with
  | moduleSlot slot =>
      refine guarantees_append fun defined defining => ?_
      refine ⟨property, [.defineModule (UInt16.ofNat slot)], ?_, ?_⟩
      · rw [defining.writes.written, value]
        simp [Instruction.encode_cons]
      · intro instruction member
        exact ⟨UInt16.ofNat slot, List.mem_singleton.mp member⟩
  | newLocal =>
      exact guarantees_change ⟨property, [], value, fun _ member => absurd member List.not_mem_nil⟩

/-- The variables that an import names and the semicolon. -/
theorem importList_importsOnly
    {start : Compilation}
    (only : ImportsOnly index start state) :
    Guarantees
      (do
        if ← matchWord .forWord then
          repeatWhile (fun _ => do
            Inner.importedVariable index
            return (← matchMark .comma, ())) ()
        consume .semicolon "';' after import")
      state (fun _ after => ImportsOnly index start after) (fun _ => True) := by
  have ends :
      ∀ listed,
        ImportsOnly index start listed →
          Guarantees (consume .semicolon "';' after import") listed
            (fun _ after => ImportsOnly index start after) (fun _ => True) :=
    fun listed kept => guarantees_consume (fun _ => kept.trans (.advance listed)) fun _ => trivial
  refine .bind (guarantees_matchKind (fun _ => ?_) fun _ => ends state only)
  refine .bind ((guarantees_repeatInvariant
    (fun _ listed => ImportsOnly index start listed)
    (only.trans (.advance state)) ?_).mono (fun _ listed kept => ends listed kept) fun _ => id)
  intro _ listed kept
  refine .bind ((importedVariable_importsOnly index).mono (fun _ after added => ?_) fun _ => id)
  have whole := kept.trans added
  exact .bind (guarantees_matchKind (fun _ => .pure (whole.trans (.advance after)))
    fun _ => .pure whole)

/-- The module is fetched and bound to a name. -/
theorem importedModule_importsOnly
    {start : Compilation}
    {name : String}
    (only : ImportsOnly index start state)
    {rest : Compiler Unit}
    (goesOn :
      ∀ bound,
        ImportsOnly index start bound →
          Guarantees rest bound (fun _ after => ImportsOnly index start after) (fun _ => True)) :
    Guarantees
      (do
        let binding ← declareVariable name
        emit (.importModule index)
        defineVariable binding
        rest)
      state (fun _ after => ImportsOnly index start after) (fun _ => True) := by
  refine .bind ((declareVariable_importsOnly index name).mono
    (fun binding declared declares => ?_) fun _ => id)
  refine .bind (guarantees_append fun fetched fetching => ?_)
  have value := (only.trans declares).trans (.of_appends fetching (by rintro _ ⟨⟩; rfl))
  exact .bind ((defineVariable_importsOnly index binding).mono
    (fun _ bound binds => goesOn bound (value.trans binds)) fun _ => id)

omit index

/-- Whatever an import declares, all its instructions import the module that it loads first. -/
theorem importDeclaration_importsOnly (state : Compilation) :
    Guarantees Inner.importDeclaration state
      (fun _ after =>
        ∃ index rest,
          after.written =
              state.written ++ Instruction.encode (.importModule index :: .pop :: rest) ∧
            ∀ other, Instruction.importModule other ∈ rest → other = index)
      (fun _ => True) := by
  refine .bind (guarantees_look ?_)
  split
  · refine .bind (guarantees_advance ?_)
    refine .bind (guarantees_nameIndex (fun index chunk _ writes => ?_) fun _ _ => trivial)
    refine .bind (guarantees_append fun imported importing => ?_)
    refine .bind (guarantees_append fun dropped dropping => ?_)
    have loaded : dropped.written =
        state.written ++ Instruction.encode [.importModule index, .pop] := by
      have before : state.advance.written = state.written := by
        simpa using (Writes.advance state).written
      have named : (state.advance.withChunk chunk).written = state.advance.written := by
        simpa using writes.written
      rw [(importing.trans dropping).writes.written, named, before]
      rfl
    have begun : ImportsOnly index dropped dropped := .of_same rfl
    -- What follows the loading of the module fetches it again.
    refine Guarantees.mono ?_ (fun _ after (follows : ImportsOnly index dropped after) => ?_)
      fun _ => id
    · refine .bind (guarantees_matchKind (fun _ => ?_) fun _ => importList_importsOnly index begun)
      refine .bind (guarantees_consumeIdentifier (fun name _ => ?_) fun _ => trivial)
      exact importedModule_importsOnly index ((begun.trans (.advance dropped)).trans (.advance _))
        fun bound => importList_importsOnly index
    · rcases follows with ⟨rest, written, only⟩
      refine ⟨index, rest, ?_, only⟩
      rw [written, loaded, List.append_assoc, ← Instruction.encode_append]
      rfl
  · exact guarantees_failAtCurrent trivial

end Compiler

end ScriptEngine
