import ScriptEngine.Proofs.Code.Pool
import ScriptEngine.Proofs.Compiler.Guarantee
import ScriptEngine.Proofs.Syntax.Generator

/-!
# Appending code

`Writes before after instructions` says that a part of a compilation appended
the given instructions to the present function and otherwise touched nothing but
the place among the tokens, the constants and the module variables.

The primitive steps that look up constants and names do what the code generator
for syntax trees does; the rules of this module say so.
-/

namespace ScriptEngine

open Syntax

/-- Whether a problem is one of the tokens alone, not of limits or of the meaning of names. -/
def CompileProblem.isSyntactic : CompileProblem → Bool
  | expected _ | invalidAssignmentTarget => true
  | _ => false

namespace Compilation

/-- What the names of an expression can refer to here. -/
def surroundings (state : Compilation) : Surroundings where
  scope := state.draft.scope
  enclosing := state.enclosing
  role := state.draft.role

/-- The constants of the present function and the module variables. -/
def resources (state : Compilation) : Resources where
  pool := state.draft.chunk.pool
  table := state.table

/-- The state without what an expression can change. -/
def skeleton (state : Compilation) : Compilation :=
  { state with position := 0, table := default, draft := { state.draft with chunk := {} } }

/-- Only code, constants, module variables and the place among the tokens have changed. -/
structure Writes (before after : Compilation) (instructions : List Instruction) : Prop where
  skeleton : after.skeleton = before.skeleton
  written : after.written = before.written ++ Instruction.encode instructions

@[simp]
theorem surroundings_withChunk (state : Compilation) (chunk : Chunk) :
    (state.withChunk chunk).surroundings = state.surroundings := rfl

@[simp]
theorem surroundings_withTable (state : Compilation) (table : Module) :
    (state.withTable table).surroundings = state.surroundings := rfl

@[simp]
theorem resources_emit (state : Compilation) (instruction : Instruction) (line : Nat) :
    (state.withChunk (state.draft.chunk.emit instruction line)).resources = state.resources := by
  simp [resources, withChunk]

/-- The resources depend only on the constants of a chunk, not on its code. -/
theorem resources_withChunk_of
    {state : Compilation}
    {chunk : Chunk}
    (pool : chunk.pool = state.draft.chunk.pool) :
    (state.withChunk chunk).resources = state.resources := by
  simp [resources, withChunk, pool]

@[simp]
theorem written_withChunk (state : Compilation) (chunk : Chunk) :
    (state.withChunk chunk).written = chunk.code.toList := rfl

@[simp]
theorem chunk_withChunk (state : Compilation) (chunk : Chunk) :
    (state.withChunk chunk).draft.chunk = chunk := rfl

@[simp]
theorem written_withTable (state : Compilation) (table : Module) :
    (state.withTable table).written = state.written := rfl

theorem advance_eq (state : Compilation) :
    state.advance = { state with position := state.advance.position } := by
  rw [advance]
  split <;> rfl

@[simp]
theorem surroundings_advance (state : Compilation) :
    state.advance.surroundings = state.surroundings := by
  rw [advance_eq]
  rfl

@[simp]
theorem resources_advance (state : Compilation) :
    state.advance.resources = state.resources := by
  rw [advance_eq]
  rfl

theorem toList_code (state : Compilation) :
    state.draft.chunk.code.toList = state.written := rfl

namespace Writes

variable {before between after : Compilation} {first second : List Instruction}

theorem refl (state : Compilation) : Writes state state [] where
  skeleton := rfl
  written := by simp

theorem trans (start : Writes before between first) (rest : Writes between after second) :
    Writes before after (first ++ second) where
  skeleton := rest.skeleton.trans start.skeleton
  written := by
    rw [rest.written, start.written, Instruction.encode_append, List.append_assoc]

/-- Writing does not change what names can refer to. -/
theorem surroundings (writes : Writes before after first) :
    after.surroundings = before.surroundings := by
  have scope := congrArg (fun state => state.draft.scope) writes.skeleton
  have enclosing := congrArg Compilation.enclosing writes.skeleton
  have role := congrArg (fun state => state.draft.role) writes.skeleton
  simp only [Compilation.skeleton] at scope enclosing role
  simp [Compilation.surroundings, scope, enclosing, role]

theorem advance (state : Compilation) : Writes state state.advance [] where
  skeleton := by
    rw [advance_eq]
    rfl
  written := by
    rw [advance_eq, Instruction.encode_nil, List.append_nil]
    rfl

theorem withTable (state : Compilation) (table : Module) :
    Writes state (state.withTable table) [] where
  skeleton := rfl
  written := by simp

/-- A chunk with more code and any constants. -/
theorem withChunk
    {state : Compilation}
    {chunk : Chunk}
    (code : chunk.code.toList = state.written ++ Instruction.encode first) :
    Writes state (state.withChunk chunk) first where
  skeleton := rfl
  written := code

theorem emit (state : Compilation) (instruction : Instruction) (line : Nat) :
    Writes state (state.withChunk (state.draft.chunk.emit instruction line)) [instruction] :=
  withChunk (by simp [Compilation.written])

end Writes

end Compilation

/-! ## Constants -/

namespace Chunk

theorem addConstant_pool (chunk : Chunk) (constant : Constant) :
    chunk.pool.addConstant constant =
      ((chunk.addConstant constant).1, (chunk.addConstant constant).2.pool) := by
  have found : chunk.pool.findConstant? constant = chunk.findConstant? constant := by
    unfold findConstant?
    rcases constant.key? with _ | ⟨_ | _⟩ <;> rfl
  have pushed : chunk.pool.pushConstant constant = (chunk.pushConstant constant).pool := by
    unfold pushConstant
    rcases constant.key? with _ | ⟨_ | _⟩ <;> rfl
  have size : chunk.pool.entries.size = chunk.entries.size := rfl
  unfold addConstant
  simp only [found, pushed, size]
  cases chunk.findConstant? constant with
  | some position => rfl
  | none =>
      by_cases room : chunk.entries.size < maxConstants
      · simp [room]
      · simp [room]

@[simp]
theorem code_addConstant (chunk : Chunk) (constant : Constant) :
    (chunk.addConstant constant).2.code = chunk.code :=
  (same_addConstant chunk constant).1

end Chunk

/-! ## The code generator, step by step -/

namespace Syntax.Generator

@[simp]
theorem bind_apply (first : Generator α) (next : α → Generator β) (resources : Resources) :
    (first >>= next) resources =
      (first resources).bind fun result => next result.1 result.2 := rfl

@[simp]
theorem pure_apply (value : α) (resources : Resources) :
    (pure value : Generator α) resources = some (value, resources) := rfl

@[simp]
theorem map_apply (change : α → β) (step : Generator α) (resources : Resources) :
    (change <$> step) resources =
      (step resources).map fun result => (change result.1, result.2) := by
  show (step resources).bind _ = _
  cases step resources <;> rfl

@[simp]
theorem require_apply_of
    {condition : Bool}
    (holds : condition = true)
    (resources : Resources) :
    require condition resources = some ((), resources) := by
  rw [require, if_pos holds]
  rfl

/-- The jump over instructions that are not too long. -/
theorem jumpOver_apply_of
    {skipped : List Instruction}
    (near : Instruction.totalLength skipped ≤ Chunk.maxDistance)
    (jump : ForwardJump)
    (resources : Resources) :
    jumpOver jump skipped resources =
      some (jump.past (UInt16.ofNat (Instruction.totalLength skipped)), resources) := by
  simp [jumpOver, near]

theorem itemsCode_concat
    {surroundings : Surroundings}
    {suffix earlier latest : List Instruction}
    {items : List Expr}
    {item : Expr}
    {start between final : Resources}
    (itemsGenerated :
      itemsCode surroundings suffix items start = some (earlier, between))
    (itemGenerated : item.code surroundings between = some (latest, final)) :
    itemsCode surroundings suffix (items ++ [item]) start =
      some (earlier ++ (latest ++ suffix), final) := by
  induction items generalizing start earlier with
  | nil =>
      simp only [itemsCode, pure_apply, Option.some.injEq, Prod.mk.injEq] at itemsGenerated
      obtain ⟨rfl, rfl⟩ := itemsGenerated
      simp [itemsCode, itemGenerated]
  | cons first rest induction =>
      simp only [itemsCode, bind_apply, Option.bind_eq_some_iff, pure_apply, Option.some.injEq,
        Prod.mk.injEq] at itemsGenerated
      obtain ⟨⟨firstCode, afterFirst⟩, firstGenerated, ⟨restCode, afterRest⟩, restGenerated,
        rfl, rfl⟩ := itemsGenerated
      simp [itemsCode, firstGenerated, induction restGenerated]

end Syntax.Generator

namespace Compiler

open Compilation

variable {state : Compilation} {onError : CompileProblem → Prop}

theorem guarantees_constantIndex
    {value : Value}
    {onSuccess : Nat → Compilation → Prop}
    (success :
      ∀ index chunk,
        Generator.constantIndex value state.resources =
          some (index, (state.withChunk chunk).resources) →
        Writes state (state.withChunk chunk) [] →
        onSuccess index (state.withChunk chunk))
    (error : ∀ problem, ¬ problem.isSyntactic → onError problem) :
    Guarantees (constantIndex value) state onSuccess onError := by
  refine guarantees_limitedChunk ?_ fun limit => error (.limit limit) (by
    simp [CompileProblem.isSyntactic])
  intro index chunk added
  have code : chunk.code = state.draft.chunk.code := by
    have unchanged := Chunk.code_addConstant state.draft.chunk (.ofValue value)
    rwa [added] at unchanged
  have pooled := Chunk.addConstant_pool state.draft.chunk (.ofValue value)
  rw [added] at pooled
  apply success index chunk
  · simp [Generator.constantIndex, resources, withChunk, pooled]
  · exact .withChunk (by simp [code, toList_code])

theorem guarantees_nameIndex
    {name : String}
    {onSuccess : UInt16 → Compilation → Prop}
    (success :
      ∀ index chunk,
        Generator.nameIndex name state.resources =
          some (index, (state.withChunk chunk).resources) →
        Writes state (state.withChunk chunk) [] →
        onSuccess index (state.withChunk chunk))
    (error : ∀ problem, ¬ problem.isSyntactic → onError problem) :
    Guarantees (nameIndex name) state onSuccess onError := by
  refine .bind (guarantees_constantIndex ?_ error)
  intro index chunk generated writes
  refine .pure (success (UInt16.ofNat index) chunk ?_ writes)
  simp [Generator.nameIndex, generated]

/-- A constant is pushed by the instruction of the code generator. -/
theorem guarantees_emitConstant
    {value : Value}
    {onSuccess : Unit → Compilation → Prop}
    (success :
      ∀ instruction chunk,
        Generator.constant value state.resources =
          some (instruction, (state.withChunk chunk).resources) →
        Writes state (state.withChunk chunk) [instruction] →
        onSuccess () (state.withChunk chunk))
    (error : ∀ problem, ¬ problem.isSyntactic → onError problem) :
    Guarantees (emitConstant value) state onSuccess onError := by
  refine .bind (guarantees_constantIndex ?_ error)
  intro index chunk generated writes
  have emitted :
      Guarantees (emit (Generator.pushConstant index)) (state.withChunk chunk)
        onSuccess onError := by
    refine guarantees_emit fun line => ?_
    apply success (Generator.pushConstant index) _
    · have same := resources_emit (state.withChunk chunk) (Generator.pushConstant index) line
      simp only [Generator.constant, Generator.bind_apply, generated, Option.bind_some,
        Generator.pure_apply, ← same]
      rfl
    · exact writes.trans (.emit _ _ line)
  unfold Generator.pushConstant at emitted
  split at emitted
  · rename_i small
    rwa [if_pos small]
  · rename_i large
    rwa [if_neg large]

/-- Closing a jump fills in the length of the instructions behind it. -/
theorem guarantees_closeJump
    {start : List UInt8}
    (jump : ForwardJump)
    (skipped : List Instruction)
    {onSuccess : Unit → Compilation → Prop}
    (written :
      state.written =
        start ++ Instruction.encode (jump.past Chunk.openDistance :: skipped))
    (success :
      ∀ chunk,
        Instruction.totalLength skipped ≤ Chunk.maxDistance →
        (state.withChunk chunk).resources = state.resources →
        (state.withChunk chunk).written =
          start ++
            Instruction.encode
              (jump.past (UInt16.ofNat (Instruction.totalLength skipped)) :: skipped) →
        onSuccess () (state.withChunk chunk))
    (error : ∀ problem, ¬ problem.isSyntactic → onError problem) :
    Guarantees (patchJump { operand := start.length + 1 }) state onSuccess onError := by
  rw [Instruction.encode_cons, ← List.append_assoc] at written
  refine guarantees_patchJump written ?_ fun limit => error (.limit limit) (by
    simp [CompileProblem.isSyntactic])
  intro chunk near pool code
  rw [Instruction.length_encode] at near code
  apply success chunk near (resources_withChunk_of pool)
  rw [written_withChunk, code, Instruction.encode_cons, List.append_assoc]

/-! ## Names -/

theorem guarantees_moduleSlot
    {name : String}
    {onSuccess : Nat → Compilation → Prop}
    (success :
      ∀ slot table,
        Generator.moduleSlot name state.resources =
          some (slot, (state.withTable table).resources) →
        onSuccess slot (state.withTable table))
    (error : ∀ problem, ¬ problem.isSyntactic → onError problem) :
    Guarantees (moduleSlot name) state onSuccess onError := by
  refine .bind ?_
  unfold Guarantees
  simp only
  rcases declared : state.table.declare name with ⟨slot? | slot, table⟩
  · exact error .tooManyModuleVariables (by simp [CompileProblem.isSyntactic])
  · apply success slot table
    simp [Generator.moduleSlot, resources, declared, withTable]

theorem guarantees_resolve
    {name : String}
    {onSuccess : Reference → Compilation → Prop}
    (success :
      ∀ reference table,
        Generator.reference state.surroundings name state.resources =
          some (reference, (state.withTable table).resources) →
        onSuccess reference (state.withTable table))
    (error : ∀ problem, ¬ problem.isSyntactic → onError problem) :
    Guarantees (resolve name) state onSuccess onError := by
  refine .bind (guarantees_look ?_)
  rcases resolved : state.draft.scope.resolve name with problem | (_ | slot)
  · exact guarantees_fail (error _ (by simp [CompileProblem.isSyntactic]))
  · refine .bind (guarantees_look ?_)
    by_cases captured :
        state.enclosing.any (fun draft => draft.scope.contains name) = true
    · rw [if_pos captured]
      exact guarantees_fail (error _ (by simp [CompileProblem.isSyntactic]))
    · rw [if_neg captured]
      refine .bind (guarantees_moduleSlot ?_ error)
      intro slot table declared
      apply success (.moduleSlot slot) table
      have free : (!state.enclosing.any fun draft => draft.scope.contains name) = true := by
        simpa using captured
      simp only [Generator.reference, surroundings, resolved, Generator.bind_apply,
        Generator.require_apply_of free, Option.bind_some, declared, Generator.pure_apply]
  · apply success (.localSlot slot) state.table
    simp only [Generator.reference, surroundings, resolved, Generator.pure_apply]
    rfl

theorem guarantees_checkWritable
    {reference : Reference}
    {onSuccess : Unit → Compilation → Prop}
    (success :
      Generator.requireWritable reference state.resources = some ((), state.resources) →
      onSuccess () state)
    (error : ∀ problem, ¬ problem.isSyntactic → onError problem) :
    Guarantees reference.checkWritable state onSuccess onError := by
  cases reference with
  | localSlot slot => exact .pure (success rfl)
  | moduleSlot slot =>
      refine .bind (guarantees_look ?_)
      split
      · exact guarantees_fail (error _ (by simp [CompileProblem.isSyntactic]))
      · rename_i allowed
        refine .pure (success ?_)
        simp only [not_and] at allowed
        simp [Generator.requireWritable, Generator.writable, resources]
        exact allowed

end Compiler

end ScriptEngine
