import ScriptEngine.Proofs.Compiler.LoopFlow

/-!
# Functions and classes

A function is compiled in a draft of its own.  When it is finished, it is well
typed and gets the next position in the heap, and the function around it goes on
where it stopped, with one more constant.

A method is attached to a class that stands under it on the stack.  That a
class stands there is followed by marks from the instruction that makes the
class to the last method.
-/

namespace ScriptEngine

open Syntax Compilation

namespace Compilation

/-- The state in which the parameters of a function are read. -/
def begun (state : Compilation) (name : String) (role : Role) : Compilation :=
  { state with
    draft :=
      { Draft.blank (some name) role with scope := (Draft.blank (some name) role).scope.enter }
    enclosing := state.draft :: state.enclosing }

/-- Parameters have been read since a function was begun. -/
def Parameters (start between : Compilation) : Prop :=
  ∃ position scope arity,
    between = { start with position, draft := { start.draft with scope, arity } } ∧
      scope.Settled ∧ 0 < scope.depth ∧ scope.locals.length = arity + 1

namespace Parameters

variable {start between : Compilation}

theorem begun (state : Compilation) (name : String) (role : Role) :
    Parameters (state.begun name role) (state.begun name role) := by
  refine ⟨_, _, 0, rfl, ?_, Nat.succ_pos _, rfl⟩
  refine (Scope.settled_reserving ?_).enter
  split
  · exact fun isVariable => isVariable.2 rfl
  · exact fun isVariable => isVariable.1 rfl

theorem advance (parameters : Parameters start between) : Parameters start between.advance := by
  obtain ⟨position, scope, arity, split, holds⟩ := parameters
  have moved := advance_eq between
  generalize between.advance.position = next at moved
  refine ⟨next, scope, arity, ?_, holds⟩
  rw [moved, split]

theorem sound (parameters : Parameters start between) (startSound : start.Sound) :
    between.Sound := by
  obtain ⟨position, scope, arity, rfl, -, deep, -⟩ := parameters
  exact ⟨startSound.resources, startSound.names, startSound.constants, startSound.finished,
    .inr deep⟩

theorem settled (parameters : Parameters start between) : between.draft.scope.Settled := by
  obtain ⟨position, scope, arity, rfl, settled, -⟩ := parameters
  exact settled

theorem height_eq (parameters : Parameters start between) :
    between.height = between.draft.arity + 1 := by
  obtain ⟨position, scope, arity, rfl, -, -, counted⟩ := parameters
  exact counted

end Parameters

theorem sound_begun
    {state : Compilation}
    (sound : state.Sound)
    (name : String)
    (role : Role) :
    (state.begun name role).Sound where
  resources := ⟨Chunk.remembers_empty, sound.resources.table⟩
  names := sound.names
  constants _ member := absurd member Chunk.not_mem_constants_empty
  finished := sound.finished
  nested := .inr (Nat.succ_pos _)

end Compilation

namespace Compiler

theorem parameter_compiles
    {start between : Compilation}
    (parameters : Parameters start between) :
    Guarantees Inner.parameter between (fun _ after => Parameters start after)
      (fun _ => True) := by
  -- The name is declared in the scope as it was, with one more parameter.
  have declares :
      ∀ name counted,
        (∃ position scope arity,
          counted =
            { start with position, draft := { start.draft with scope, arity := arity + 1 } } ∧
            scope.Settled ∧ 0 < scope.depth ∧ scope.locals.length = arity + 1) →
          Guarantees
            (do
              declareLocal name
              changeScope Scope.markInitialized)
            counted (fun _ after => Parameters start after) (fun _ => True) := by
    rintro name _ ⟨position, scope, arity, rfl, settled, deep, length⟩
    refine .bind (guarantees_declareLocal (fun room => ?_) fun _ => trivial)
    refine guarantees_change ⟨position, scope.declared name, arity + 1, rfl,
      (Scope.Declares.declared deep room name).settled settled, deep, ?_⟩
    exact congrArg (· + 1) length
  refine .bind (guarantees_look ?_)
  have counting :
      Guarantees
        (do
          change fun state =>
            { state with draft := { state.draft with arity := state.draft.arity + 1 } }
          declareLocal (← consumeIdentifier "parameter name")
          changeScope Scope.markInitialized)
        between (fun _ after => Parameters start after) (fun _ => True) := by
    refine .bind (guarantees_change ?_)
    refine .bind (guarantees_consumeIdentifier (fun name _ => ?_) fun _ => trivial)
    obtain ⟨position, scope, arity, rfl, holds⟩ := parameters
    refine declares name _ ?_
    generalize moving : Compilation.advance _ = moved
    rw [advance_eq] at moving
    exact ⟨_, scope, arity, moving.symm, holds⟩
  split
  · exact .bind (guarantees_failAtCurrent trivial)
  · exact counting

/-! ## Finished functions -/

/-- The function that a draft has become. -/
def draftedFunction (state : Compilation) : Function where
  name := state.draft.name
  arity := state.draft.arity
  chunk := state.draft.chunk
  home := state.home

/-- A draft whose code ends is a well-typed function. -/
theorem wellTyped_draftedFunction
    {ready done : Compilation}
    {instructions : List Instruction}
    (blank : ready.written = [])
    (counted : ready.height = ready.draft.arity + 1)
    (body : Adds ready done instructions)
    (ends : Ends done.context ready.height instructions) :
    (draftedFunction done).WellTyped done.table.size done.Knows := by
  obtain ⟨code, rfl, entry, typed⟩ := ends
  refine ⟨⟨code, ?_, ?_, typed⟩, body.sound.constants⟩
  · have written := body.written
    rwa [blank, List.nil_append] at written
  · show _ = some (Shape.plain (done.draft.arity + 1))
    rw [body.arity, ← counted]
    exact entry

/-- The state in which the function around a finished one goes on. -/
def resumed (state done : Compilation) : Compilation :=
  { done with
    draft := state.draft
    enclosing := state.enclosing
    finished := done.finished.push (draftedFunction done) }

theorem adds_resumed
    {state done : Compilation}
    (sound : state.Sound)
    (doneSound : done.Sound)
    (frame : (resumed state done).frame = state.frame)
    (slots : state.table.size ≤ done.table.size)
    (finished : state.finished.toList <+: done.finished.toList)
    (wellTyped : (draftedFunction done).WellTyped done.table.size done.Knows) :
    Adds state (resumed state done) [] := by
  have tokens : done.tokens = state.tokens := congrArg (fun state => state.tokens) frame
  have firstFunction : done.firstFunction = state.firstFunction :=
    congrArg (fun state => state.firstFunction) frame
  have size : (resumed state done).finished.size = done.finished.size + 1 :=
    Array.size_push _
  have first : (resumed state done).firstFunction = done.firstFunction := rfl
  have knows : ∀ id, done.Knows id → (resumed state done).Knows id := by
    intro id known
    unfold Knows at known ⊢
    omega
  have stateKnows : ∀ id, state.Knows id → (resumed state done).Knows id := by
    intro id known
    have length : state.finished.size ≤ done.finished.size := by simpa using finished.length_le
    unfold Knows at known ⊢
    omega
  refine ⟨frame, ⟨⟨sound.resources.pool, doneSound.resources.table⟩,
    doneSound.names, ?_, ?_, sound.nested⟩, ⟨List.prefix_refl _, slots⟩, ?_, ?_⟩
  · intro value member
    exact (sound.constants value member).mono stateKnows
  · intro function member
    rcases Array.mem_push.mp member with old | rfl
    · exact (doneSound.finished function old).mono (Nat.le_refl _) knows
    · exact wellTyped.mono (Nat.le_refl _) knows
  · show _ <+: (done.finished.push _).toList
    rw [Array.toList_push]
    exact finished.trans (List.prefix_append _ _)
  · simp [written, resumed]

theorem guarantees_finishFunction
    {state ready done : Compilation}
    {name : String}
    {role : Role}
    {instructions : List Instruction}
    {onError : CompileProblem → Prop}
    {onSuccess : Nat → Compilation → Prop}
    (sound : state.Sound)
    (parameters : Parameters (state.begun name role) ready)
    (body : Adds ready done instructions)
    (ends : Ends done.context ready.height instructions)
    (success :
      ∀ id after,
        Adds state after [] →
        after.Knows id →
        after.draft.scope = state.draft.scope →
          onSuccess id after) :
    Guarantees finishFunction done onSuccess onError := by
  have counted := parameters.height_eq
  obtain ⟨position, scope, arity, rfl, -⟩ := parameters
  have enclosing : done.enclosing = state.draft :: state.enclosing := body.enclosing
  have wellTyped := wellTyped_draftedFunction rfl counted body ends
  have frame : (resumed state done).frame = state.frame := by
    have same := congrArg (fun between => (resumed state between).frame) body.frame
    simpa [Compilation.frame, resumed, begun] using same
  have added := adds_resumed sound body.sound frame body.context.slots body.finished wellTyped
  have knows : (resumed state done).Knows (done.firstFunction + done.finished.size) := by
    have size : (resumed state done).finished.size = done.finished.size + 1 :=
      Array.size_push _
    have first : (resumed state done).firstFunction = done.firstFunction := rfl
    unfold Knows
    omega
  unfold Guarantees finishFunction
  simp only [enclosing]
  exact success _ _ added knows rfl

/-- A function has been pushed as a constant. -/
def PushesConstant (before after : Compilation) : Prop :=
  ∃ index,
    Adds before after [Generator.pushConstant index] ∧
      index < after.context.constants.size ∧ index < Chunk.maxConstants

theorem PushesConstant.compiles
    {before after : Compilation}
    (pushes : PushesConstant before after)
    {height : Nat}
    (positive : 0 < height) :
    ∃ instructions, Compiles before after height instructions (height + 1) := by
  obtain ⟨index, adds, inside, bounded⟩ := pushes
  exact ⟨_, adds, .pushConstant positive inside bounded⟩

theorem emitFunction_pushes
    {state : Compilation}
    {id : Nat}
    (sound : state.Sound)
    (known : state.Knows id) :
    Guarantees (emitConstant (.function id)) state
      (fun _ after => PushesConstant state after ∧ after.draft.scope = state.draft.scope)
      (fun _ => True) := by
  refine guarantees_emitConstant (fun instruction chunk generated writes => ?_) fun _ _ => trivial
  simp only [Generator.constant, Generator.bind_apply, Generator.pure_apply,
    Option.bind_eq_some_iff, Option.some.injEq, Prod.mk.injEq] at generated
  obtain ⟨⟨index, between⟩, found, rfl, same⟩ := generated
  unfold Generator.constantIndex at found
  split at found
  · rename_i position pool added
    cases found
    have adds := Chunk.addConstant_adds sound.resources.pool added
    have whole : Adds state (state.withChunk chunk) [Generator.pushConstant index] := by
      refine writes.addsConstants sound ?_ ?_ ?_
      · rw [← same]
        exact ⟨adds.remembers, sound.resources.table⟩
      · unfold Compilation.context
        rw [← same]
        exact ⟨adds.grows, Nat.le_refl _⟩
      · intro value member
        have inPool : value ∈ pool.constants := by
          have constants := congrArg (fun resources => resources.pool.constants) same
          simp only at constants
          rw [constants]
          exact member
        rcases adds.nothingElse value inPool with old | rfl
        · exact .inl old
        · exact .inr (.inr ⟨id, rfl, known⟩)
    refine ⟨⟨index, whole, ?_, adds.lt_max⟩, writes.scope⟩
    unfold Compilation.context
    rw [← same]
    exact adds.lt_size
  · cases found

section Declarations

variable {inner : Inner} (compiles : inner.Compiles)

include compiles

theorem function_compiles
    {state : Compilation}
    (sound : state.Sound)
    (name : String)
    (role : Role) :
    Guarantees (inner.function name role) state
      (fun _ after => PushesConstant state after ∧ after.draft.scope = state.draft.scope)
      (fun _ => True) := by
  have begunSound := sound_begun sound name role
  -- The parameters have been read.
  have finish :
      ∀ between,
        Parameters (state.begun name role) between →
          Guarantees
            (do
              consume .rightParen "')' after parameters"
              consume .leftBrace "'\x7b' before function body"
              inner.block
              emitReturn
              emitConstant (.function (← finishFunction)))
            between
            (fun _ after => PushesConstant state after ∧ after.draft.scope = state.draft.scope)
            (fun _ => True) := by
    intro between parameters
    refine .bind (guarantees_expect (fun _ _ _ => ?_) fun _ => trivial)
    refine .bind (guarantees_expect (fun _ _ _ => ?_) fun _ => trivial)
    have ready := parameters.advance.advance
    have readySound := ready.sound begunSound
    refine .bind ((block_compiles compiles readySound ready.settled).mono ?_ fun _ => id)
    rintro - blocked ⟨⟨block, blockCompiles⟩, declares⟩
    have positive : 0 < blocked.height := (declares.settled ready.settled).fits.positive
    refine .bind ((emitReturn_compiles blockCompiles.adds.sound positive).mono ?_ fun _ => id)
    rintro - done ⟨⟨returns, returnAdds, ends⟩, -⟩
    refine .bind (guarantees_finishFunction sound ready (blockCompiles.adds.trans returnAdds)
      (ends.prepend (blockCompiles.leads.extend returnAdds.context)) ?_)
    intro position resumed added known scope
    refine (emitFunction_pushes added.sound known).mono ?_ fun _ => id
    rintro - after ⟨⟨index, pushed, inside, bounded⟩, afterScope⟩
    exact ⟨⟨index, added.trans pushed, inside, bounded⟩, afterScope.trans scope⟩
  refine .bind (guarantees_change (.bind (guarantees_enterBlock ?_)))
  show Guarantees _ (state.begun name role) _ _
  refine .bind (guarantees_expect (fun _ _ _ => ?_) fun _ => trivial)
  have entered := (Parameters.begun state name role).advance
  refine .bind (guarantees_look ?_)
  split
  · exact finish _ entered
  · refine .bind ((guarantees_repeatInvariant (fun _ => Parameters (state.begun name role)) entered
      fun _ between parameters => ?_).mono (fun _ => finish) fun _ => id)
    refine .bind ((parameter_compiles parameters).mono (fun _ after read => ?_) fun _ => id)
    exact .bind (guarantees_matchKind (fun _ => .pure read.advance) fun _ => .pure read)

theorem functionDeclaration_compiles : CompilesDeclaration inner.functionDeclaration := by
  intro state sound _ settled
  have entered := adds_advance sound
  refine .bind (guarantees_consumeIdentifier (fun name _ => ?_) fun _ => trivial)
  refine .bind (guarantees_declareVariable entered.sound (fun binding declared awaits => ?_)
    fun _ => trivial)
  refine .bind ((function_compiles compiles awaits.adds.sound name .function).mono ?_ fun _ => id)
  rintro - valued ⟨pushes, scope⟩
  obtain ⟨instructions, value⟩ := pushes.compiles settled.fits.positive
  have done := defineVariable_compiles (by rwa [scope_advance]) awaits
    (by rw [height_advance]; exact value) scope
  exact done.mono (fun _ _ => .afterwards entered (scope_advance state)) fun _ => id

end Declarations

end Compiler

end ScriptEngine
