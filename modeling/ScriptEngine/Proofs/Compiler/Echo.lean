import ScriptEngine.Compilation.Script

/-!
# Compilations that differ in lines and room

Two compilations are in step if they agree in everything but the line table of the
outermost function (`Compiler.InStep`).  A step echoes another if it succeeds from
every state in step where the other does, with the same result, and the two are in
step afterwards (`Compiler.Echoes`).  The depth is the number of functions around the
present one; it is part of the relation because the lines of a nested function count:
they are stored with the finished function.

A routine echoes itself, and it also echoes itself with less room: whatever compiles
within a number of levels compiles in the same way within more of them
(`Compiler.Echoes.expressionWithin`, `Compiler.Echoes.codeWithin`).
-/

set_option synthInstance.maxSize 100000

namespace ScriptEngine

/-- The chunk with another line table. -/
def Chunk.withLines (chunk : Chunk) (runs : List LineStart) : Chunk :=
  { chunk with runs }

namespace Chunk

variable (chunk : Chunk) (runs : List LineStart)

theorem write_withLines (byte : UInt8) (line other : Nat) :
    ∃ later, (chunk.withLines runs).write byte other = (chunk.write byte line).withLines later :=
  ⟨_, rfl⟩

theorem writeAll_withLines (bytes : List UInt8) (line other : Nat) :
    ∃ later,
      (chunk.withLines runs).writeAll bytes other =
        (chunk.writeAll bytes line).withLines later := by
  induction bytes generalizing chunk runs with
  | nil => exact ⟨runs, rfl⟩
  | cons byte rest induction =>
      rcases chunk.write_withLines runs byte line other with ⟨later, same⟩
      show ∃ later, ((chunk.withLines runs).write byte other).writeAll rest other = _
      rw [same]
      exact induction (chunk.write byte line) later

theorem emit_withLines (instruction : Instruction) (line other : Nat) :
    ∃ later,
      (chunk.withLines runs).emit instruction other =
        (chunk.emit instruction line).withLines later :=
  chunk.writeAll_withLines runs instruction.bytes line other

theorem emitJump_withLines (operation : Opcode) (line : Nat) :
    ∃ later,
      (chunk.withLines runs).emitJump operation line =
        ((chunk.emitJump operation line).1, (chunk.emitJump operation line).2.withLines later) := by
  rcases chunk.write_withLines runs operation.toByte line line with ⟨later, same⟩
  unfold emitJump writeWord
  rw [same]
  rcases (chunk.write operation.toByte line).writeAll_withLines later _ line line with
    ⟨last, written⟩
  exact ⟨last, congrArg _ written⟩

theorem emitLoop_withLines (start line : Nat) :
    ∃ later,
      (chunk.withLines runs).emitLoop start line =
        ((chunk.emitLoop start line).1, (chunk.emitLoop start line).2.withLines later) := by
  rcases chunk.write_withLines runs Opcode.loop.toByte line line with ⟨later, same⟩
  unfold emitLoop
  rw [same]
  simp only
  have sameSize :
      ((chunk.write Opcode.loop.toByte line).withLines later).code.size =
        (chunk.write Opcode.loop.toByte line).code.size := rfl
  rw [sameSize]
  split
  · rcases (chunk.write Opcode.loop.toByte line).writeAll_withLines later _ line line with
      ⟨last, written⟩
    exact ⟨last, congrArg _ written⟩
  · exact ⟨later, rfl⟩

theorem patchJump_withLines (pending : PendingJump) :
    ∃ later,
      (chunk.withLines runs).patchJump pending =
        ((chunk.patchJump pending).1, (chunk.patchJump pending).2.withLines later) := by
  refine ⟨runs, ?_⟩
  unfold patchJump
  have sameSize : (chunk.withLines runs).code.size = chunk.code.size := rfl
  rw [sameSize]
  simp only
  split <;> rfl

theorem addConstant_withLines (constant : Constant) :
    ∃ later,
      (chunk.withLines runs).addConstant constant =
        ((chunk.addConstant constant).1, (chunk.addConstant constant).2.withLines later) := by
  refine ⟨runs, ?_⟩
  have sameFound :
      (chunk.withLines runs).findConstant? constant = chunk.findConstant? constant := by
    unfold findConstant?
    rcases constant.key? with _ | ⟨_ | _⟩ <;> rfl
  have sameSize : (chunk.withLines runs).entries.size = chunk.entries.size := rfl
  have samePush :
      (chunk.withLines runs).pushConstant constant =
        (chunk.pushConstant constant).withLines runs := by
    unfold pushConstant
    rcases constant.key? with _ | ⟨_ | _⟩ <;> rfl
  unfold addConstant
  rw [sameFound, sameSize, samePush]
  split
  · rfl
  · simp only
    split <;> rfl

end Chunk

/-- The draft with another line table. -/
def Draft.withLines (draft : Draft) (runs : List LineStart) : Draft :=
  { draft with chunk := draft.chunk.withLines runs }

namespace Compiler

/-- Drafts, innermost first, that differ in the lines of the outermost one only. -/
inductive DraftsInStep : Nat → Draft → List Draft → Draft → List Draft → Prop where
  | outermost (draft : Draft) (runs : List LineStart) :
      DraftsInStep 0 draft [] (draft.withLines runs) []
  | inner
      {depth : Nat}
      {outer other : Draft}
      {around others : List Draft}
      (inStep : DraftsInStep depth outer around other others)
      (draft : Draft) :
      DraftsInStep (depth + 1) draft (outer :: around) draft (other :: others)

namespace DraftsInStep

variable {depth : Nat} {draft other : Draft} {around others : List Draft}

theorem withLines (inStep : DraftsInStep depth draft around other others) :
    ∃ runs, other = draft.withLines runs := by
  cases inStep with
  | outermost draft runs => exact ⟨runs, rfl⟩
  | inner inStep draft => exact ⟨draft.chunk.runs, rfl⟩

/-- A question about the functions around that has nothing to do with lines. -/
theorem any
    (inStep : DraftsInStep depth draft around other others)
    {test : Draft → Bool}
    (blind : ∀ draft runs, test (Draft.withLines draft runs) = test draft) :
    others.any test = around.any test := by
  induction inStep with
  | outermost draft runs => rfl
  | inner inStep draft induction =>
      rcases inStep.withLines with ⟨runs, rfl⟩
      rw [List.any_cons, List.any_cons, blind, induction]

end DraftsInStep

/-- Compilations that differ in the lines of the outermost function only. -/
structure InStep (depth : Nat) (first second : Compilation) : Prop where
  drafts : DraftsInStep depth first.draft first.enclosing second.draft second.enclosing
  same : second = { first with draft := second.draft, enclosing := second.enclosing }

namespace InStep

variable {depth : Nat} {first second : Compilation}

theorem current (inStep : InStep depth first second) : second.current = first.current := by
  rw [inStep.same]
  rfl

theorem previous (inStep : InStep depth first second) : second.previous = first.previous := by
  rw [inStep.same]
  rfl

theorem remaining (inStep : InStep depth first second) : second.remaining = first.remaining := by
  rw [inStep.same]
  rfl

theorem table (inStep : InStep depth first second) : second.table = first.table := by
  rw [inStep.same]

/-- Nothing but the line table of the present function can tell the two apart. -/
theorem draft
    (inStep : InStep depth first second)
    (view : Draft → α)
    (blind : ∀ draft runs, view (Draft.withLines draft runs) = view draft) :
    view second.draft = view first.draft := by
  rcases inStep.drafts.withLines with ⟨runs, same⟩
  rw [same, blind]

/-- A change of everything but the drafts. -/
theorem around
    (inStep : InStep depth first second)
    (step : Compilation → Compilation)
    (apart :
      ∀ state draft enclosing,
        step { state with draft, enclosing } = { step state with draft, enclosing }) :
    InStep depth (step first) (step second) := by
  have kept :
      ∀ state : Compilation,
        (step state).draft = state.draft ∧ (step state).enclosing = state.enclosing := by
    intro state
    have same := apart state state.draft state.enclosing
    change step state = _ at same
    constructor
    · rw [same]
    · rw [same]
  constructor
  · rw [(kept first).1, (kept first).2, (kept second).1, (kept second).2]
    exact inStep.drafts
  · rw [(kept second).1, (kept second).2, ← apart, ← inStep.same]

/-- A change of the present draft that does the same whatever the lines are. -/
theorem withDraft
    (inStep : InStep depth first second)
    (step : Draft → Draft)
    (blind :
      ∀ draft runs, ∃ later, step (Draft.withLines draft runs) = (step draft).withLines later) :
    InStep depth { first with draft := step first.draft }
      { second with draft := step second.draft } := by
  rcases first with ⟨tokens, position, table, home, draft, enclosing, firstFunction, finished⟩
  rcases second with ⟨_, _, _, _, other, others, _, _⟩
  rcases inStep with ⟨drafts, same⟩
  cases same
  refine ⟨?_, rfl⟩
  dsimp only at drafts ⊢
  cases drafts with
  | outermost draft runs =>
      rcases blind draft runs with ⟨later, same⟩
      rw [same]
      exact .outermost _ later
  | inner inStep draft => exact .inner inStep _

end InStep

/-- The second step succeeds where the first does, with the same result and in step. -/
class Echoes (depth : Nat) (final : outParam Nat) (step other : Compiler α) : Prop where
  echo :
    ∀ {first second : Compilation},
      InStep depth first second →
        ∀ {value : α} {after : Compilation},
          step first = (.ok value, after) →
            ∃ echoed, other second = (.ok value, echoed) ∧ InStep final after echoed

namespace Echoes

variable {depth : Nat}

theorem andThen
    {between final : Nat}
    {step other : Compiler α}
    {next further : α → Compiler β}
    (start : Echoes depth between step other)
    (rest : ∀ value, Echoes between final (next value) (further value)) :
    Echoes depth final (step >>= next) (other >>= further) := by
  constructor
  intro first second inStep value after succeeds
  change StateT.bind step (ExceptT.bindCont next) first = _ at succeeds
  show ∃ echoed, StateT.bind other (ExceptT.bindCont further) second = _ ∧ _
  unfold StateT.bind at succeeds ⊢
  rcases outcome : step first with ⟨error | result, middle⟩
  · rw [outcome] at succeeds
    cases succeeds
  · rw [outcome] at succeeds
    rcases start.echo inStep outcome with ⟨echoed, same, further⟩
    rw [same]
    exact (rest result).echo further succeeds

instance bind
    {between final : Nat}
    {step other : Compiler α}
    {next further : α → Compiler β}
    [start : Echoes depth between step other]
    [rest : ∀ value, Echoes between final (next value) (further value)] :
    Echoes depth final (step >>= next) (other >>= further) :=
  andThen start rest

instance pure (value : α) : Echoes depth depth (pure value : Compiler α) (Pure.pure value) := by
  constructor
  rintro first second inStep _ _ ⟨⟩
  exact ⟨second, rfl, inStep⟩

instance choice
    {final : Nat}
    {condition : Prop}
    [Decidable condition]
    {step other next further : Compiler α}
    [chosen : Echoes depth final step other]
    [otherwise : Echoes depth final next further] :
    Echoes depth final (if condition then step else next)
      (if condition then other else further) := by
  split
  · exact chosen
  · exact otherwise

/-- A failure is no success. -/
theorem of_failure
    {step other : Compiler α}
    (fails : ∀ state, ∃ error after, step state = (.error error, after)) :
    Echoes depth depth step other := by
  constructor
  intro first second _ value after succeeds
  rcases fails first with ⟨error, stopped, same⟩
  rw [same] at succeeds
  cases succeeds

instance fail (problem : CompileProblem) (other : Compiler α) :
    Echoes depth depth (fail problem) other :=
  of_failure fun _ => ⟨_, _, rfl⟩

instance failAtCurrent (problem : CompileProblem) (other : Compiler α) :
    Echoes depth depth (failAtCurrent problem) other :=
  of_failure fun _ => ⟨_, _, rfl⟩

/-! ## Tokens -/

/-- A look at something other than lines. -/
theorem look
    {view : Compilation → α}
    (blind : ∀ {first second : Compilation}, InStep depth first second → view second = view first) :
    Echoes depth depth (look view) (look view) := by
  constructor
  rintro first second inStep _ _ ⟨⟩
  refine ⟨second, ?_, inStep⟩
  show (Except.ok (view second), second) = _
  rw [blind inStep]

theorem lookAtCurrent (view : Token → α) :
    Echoes depth depth (Compiler.look fun state => view state.current)
      (Compiler.look fun state => view state.current) :=
  look fun inStep => by rw [inStep.current]

theorem lookAtPrevious (view : Token → α) :
    Echoes depth depth (Compiler.look fun state => view state.previous)
      (Compiler.look fun state => view state.previous) :=
  look fun inStep => by rw [inStep.previous]

theorem lookAtDraft
    (view : Draft → α)
    (blind : ∀ draft runs, view (Draft.withLines draft runs) = view draft) :
    Echoes depth depth (Compiler.look fun state => view state.draft)
      (Compiler.look fun state => view state.draft) :=
  look fun inStep => inStep.draft view blind

theorem lookAround
    {test : Draft → Bool}
    (blind : ∀ draft runs, test (Draft.withLines draft runs) = test draft) :
    Echoes depth depth (Compiler.look fun state => state.enclosing.any test)
      (Compiler.look fun state => state.enclosing.any test) :=
  look fun inStep => inStep.drafts.any blind

instance advance : Echoes depth depth advance advance := by
  constructor
  rintro first second inStep _ _ ⟨⟩
  refine ⟨second.advance, rfl, inStep.around Compilation.advance ?_⟩
  intro state draft enclosing
  unfold Compilation.advance
  show (if state.current.kind.isEnd then _ else _) = _
  split <;> rfl

instance atMark (mark : Punctuation) : Echoes depth depth (atMark mark) (atMark mark) :=
  lookAtCurrent fun token => token.kind.isMark mark

instance atEnd : Echoes depth depth atEnd atEnd :=
  lookAtCurrent fun token => token.kind.isEnd

instance matchKind (test : TokenKind → Bool) :
    Echoes depth depth (matchKind test) (matchKind test) := by
  unfold Compiler.matchKind
  exact andThen (lookAtCurrent fun token => test token.kind) fun _ => inferInstance

instance matchMark (mark : Punctuation) :
    Echoes depth depth (matchMark mark) (matchMark mark) :=
  matchKind _

instance matchWord (word : Keyword) :
    Echoes depth depth (matchWord word) (matchWord word) :=
  matchKind _

instance consume (mark : Punctuation) (what : String) :
    Echoes depth depth (consume mark what) (consume mark what) := by
  unfold Compiler.consume
  infer_instance

instance consumeIdentifier (what : String) :
    Echoes depth depth (consumeIdentifier what) (consumeIdentifier what) := by
  unfold Compiler.consumeIdentifier
  refine andThen (lookAtCurrent fun token => token.kind) fun kind => ?_
  split <;> infer_instance

instance repeatAtMost
    {round other : α → Compiler (Bool × α)}
    [∀ value, Echoes depth depth (round value) (other value)]
    (bound : Nat)
    (start : α) :
    Echoes depth depth (repeatAtMost round bound start) (repeatAtMost other bound start) := by
  induction bound generalizing start with
  | zero => exact pure start
  | succ bound induction =>
      unfold Compiler.repeatAtMost
      infer_instance

instance repeatWhile
    {round other : α → Compiler (Bool × α)}
    [∀ value, Echoes depth depth (round value) (other value)]
    (start : α) :
    Echoes depth depth (repeatWhile round start) (repeatWhile other start) := by
  constructor
  intro first second inStep value after succeeds
  show ∃ echoed, Compiler.repeatAtMost other (second.remaining + 1) start second = _ ∧ _
  rw [inStep.remaining]
  exact (repeatAtMost (first.remaining + 1) start).echo inStep succeeds

/-! ## Code -/

/-- A change of the present draft that gives a result, whatever the lines are. -/
theorem of_draft
    (step : Draft → α × Draft)
    (blind :
      ∀ draft runs,
        ∃ later,
          step (Draft.withLines draft runs) = ((step draft).1, (step draft).2.withLines later)) :
    Echoes depth depth
      (fun state => (.ok (step state.draft).1, { state with draft := (step state.draft).2 }))
      (fun state => (.ok (step state.draft).1, { state with draft := (step state.draft).2 })) := by
  have blindResult : ∀ draft runs, (step (Draft.withLines draft runs)).1 = (step draft).1 := by
    intro draft runs
    rcases blind draft runs with ⟨later, same⟩
    rw [same]
  have blindDraft :
      ∀ draft runs,
        ∃ later, (step (Draft.withLines draft runs)).2 = (step draft).2.withLines later := by
    intro draft runs
    rcases blind draft runs with ⟨later, same⟩
    exact ⟨later, by rw [same]⟩
  constructor
  rintro first second inStep _ _ ⟨⟩
  refine ⟨_, ?_, inStep.withDraft (fun draft => (step draft).2) blindDraft⟩
  rw [inStep.draft (fun draft => (step draft).1) blindResult]

/-- A change of the present chunk. -/
theorem of_chunk
    (step : Chunk → α × Chunk)
    (blind :
      ∀ chunk runs,
        ∃ later,
          step (Chunk.withLines chunk runs) = ((step chunk).1, (step chunk).2.withLines later)) :
    Echoes depth depth
      (fun state =>
        (.ok (step state.draft.chunk).1,
          { state with draft := { state.draft with chunk := (step state.draft.chunk).2 } }))
      (fun state =>
        (.ok (step state.draft.chunk).1,
          { state with draft := { state.draft with chunk := (step state.draft.chunk).2 } })) := by
  apply of_draft fun draft => ((step draft.chunk).1, { draft with chunk := (step draft.chunk).2 })
  intro draft runs
  rcases blind draft.chunk runs with ⟨later, same⟩
  refine ⟨later, ?_⟩
  show ((step (draft.chunk.withLines runs)).1, _) = _
  rw [show (draft.withLines runs).chunk = draft.chunk.withLines runs from rfl, same]
  rfl

theorem changeScope (step : Scope → Scope) :
    Echoes depth depth (changeScope step) (changeScope step) :=
  of_draft (fun draft => ((), { draft with scope := step draft.scope })) fun _ runs => ⟨runs, rfl⟩

instance emitOn (line : Nat) (instruction : Instruction) :
    Echoes depth depth (emitOn line instruction) (emitOn line instruction) := by
  apply of_chunk fun chunk => ((), chunk.emit instruction line)
  intro chunk runs
  rcases chunk.emit_withLines runs instruction line line with ⟨later, same⟩
  exact ⟨later, congrArg _ same⟩

instance emit (instruction : Instruction) :
    Echoes depth depth (emit instruction) (emit instruction) :=
  andThen (lookAtPrevious Token.line) fun _ => inferInstance

instance emitAll (instructions : List Instruction) :
    Echoes depth depth (emitAll instructions) (emitAll instructions) := by
  induction instructions with
  | nil => exact pure ()
  | cons instruction rest induction =>
      show Echoes depth depth (Compiler.emit instruction >>= fun _ => Compiler.emitAll rest)
        (Compiler.emit instruction >>= fun _ => Compiler.emitAll rest)
      infer_instance

theorem limitedChunk
    {step : Chunk → Except ChunkLimit α × Chunk}
    (blind :
      ∀ chunk runs,
        ∃ later,
          step (Chunk.withLines chunk runs) = ((step chunk).1, (step chunk).2.withLines later)) :
    Echoes depth depth (limitedChunk step) (limitedChunk step) := by
  unfold Compiler.limitedChunk
  refine andThen (of_chunk step blind) fun result => ?_
  split <;> infer_instance

instance codeSize : Echoes depth depth codeSize codeSize :=
  lookAtDraft (fun draft => draft.chunk.code.size) fun _ _ => rfl

instance emitJump (operation : Opcode) :
    Echoes depth depth (emitJump operation) (emitJump operation) := by
  unfold Compiler.emitJump
  refine andThen (lookAtPrevious Token.line) fun line => ?_
  exact of_chunk (fun chunk => chunk.emitJump operation line) fun chunk runs =>
    chunk.emitJump_withLines runs operation line

instance patchJump (pending : PendingJump) :
    Echoes depth depth (patchJump pending) (patchJump pending) :=
  limitedChunk fun chunk runs => chunk.patchJump_withLines runs pending

instance emitLoop (start : Nat) : Echoes depth depth (emitLoop start) (emitLoop start) := by
  unfold Compiler.emitLoop
  refine andThen (lookAtPrevious Token.line) fun line => ?_
  exact limitedChunk fun chunk runs => chunk.emitLoop_withLines runs start line

instance constantIndex (value : Value) :
    Echoes depth depth (constantIndex value) (constantIndex value) :=
  limitedChunk fun chunk runs => chunk.addConstant_withLines runs (.ofValue value)

instance nameIndex (name : String) : Echoes depth depth (nameIndex name) (nameIndex name) := by
  unfold Compiler.nameIndex
  infer_instance

instance emitConstant (value : Value) :
    Echoes depth depth (emitConstant value) (emitConstant value) := by
  unfold Compiler.emitConstant
  infer_instance

instance emitReturn : Echoes depth depth emitReturn emitReturn := by
  unfold Compiler.emitReturn
  exact andThen (lookAtDraft Draft.role fun _ _ => rfl) fun _ => inferInstance

/-! ## Blocks and functions -/

instance enterBlock : Echoes depth depth enterBlock enterBlock :=
  changeScope _

instance leaveBlock : Echoes depth depth leaveBlock leaveBlock := by
  unfold Compiler.leaveBlock
  refine andThen ?_ fun count => emitAll _
  exact of_draft (fun draft => (draft.scope.leave.1, { draft with scope := draft.scope.leave.2 }))
    fun _ runs => ⟨runs, rfl⟩

/-- One function deeper. -/
instance beginFunction (name : String) (role : Role) :
    Echoes depth (depth + 1) (beginFunction name role) (beginFunction name role) := by
  constructor
  rintro ⟨tokens, position, table, home, draft, enclosing, firstFunction, finished⟩
    ⟨_, _, _, _, other, others, _, _⟩ ⟨drafts, same⟩ _ _ ⟨⟩
  cases same
  exact ⟨_, rfl, .inner drafts _, rfl⟩

/-- A nested function is finished with its lines. -/
instance finishFunction : Echoes (depth + 1) depth finishFunction finishFunction := by
  constructor
  rintro ⟨tokens, position, table, home, draft, enclosing, firstFunction, finished⟩
    ⟨_, _, _, _, other, others, _, _⟩ ⟨drafts, same⟩ value after succeeds
  cases same
  dsimp only at drafts
  cases drafts with
  | inner inStep draft =>
      cases succeeds
      exact ⟨_, rfl, inStep, rfl⟩

/-! ## Names -/

instance atModuleLevel : Echoes depth depth atModuleLevel atModuleLevel :=
  lookAtDraft (fun draft => decide (draft.role = .script) && decide (draft.scope.depth = 0))
    fun _ _ => rfl

instance moduleSlot (name : String) : Echoes depth depth (moduleSlot name) (moduleSlot name) := by
  unfold Compiler.moduleSlot
  have declares :
      Echoes depth depth
        (fun state =>
          (.ok (state.table.declare name).1, { state with table := (state.table.declare name).2 }) :
          Compiler (Option Nat))
        (fun state =>
          (.ok (state.table.declare name).1,
            { state with table := (state.table.declare name).2 })) := by
    constructor
    rintro first second inStep _ _ ⟨⟩
    have declared := inStep.around
      (fun state => { state with table := (state.table.declare name).2 }) fun _ _ _ => rfl
    refine ⟨_, ?_, declared⟩
    rw [inStep.table]
  refine andThen declares fun slot? => ?_
  split <;> infer_instance

instance checkWritable (slot : Nat) :
    Echoes depth depth (checkWritable slot) (checkWritable slot) := by
  unfold Compiler.checkWritable
  refine andThen (look fun inStep => ?_) fun _ => inferInstance
  rw [inStep.table]

instance declareLocal (name : String) :
    Echoes depth depth (declareLocal name) (declareLocal name) := by
  unfold Compiler.declareLocal
  refine andThen (lookAtDraft (fun draft => draft.scope.declare name) fun _ _ => rfl)
    fun result => ?_
  split
  · exact changeScope _
  · infer_instance

instance declareVariable (name : String) :
    Echoes depth depth (declareVariable name) (declareVariable name) := by
  unfold Compiler.declareVariable
  infer_instance

instance defineVariable (binding : Binding) :
    Echoes depth depth (defineVariable binding) (defineVariable binding) := by
  cases binding with
  | moduleSlot slot => exact emit _
  | newLocal => exact changeScope _

instance resolve (name : String) : Echoes depth depth (resolve name) (resolve name) := by
  unfold Compiler.resolve
  refine andThen (lookAtDraft (fun draft => draft.scope.resolve name) fun _ _ => rfl)
    fun result => ?_
  split
  · infer_instance
  · infer_instance
  · exact andThen (lookAround fun _ _ => rfl) fun _ => inferInstance

instance referenceCheckWritable (reference : Reference) :
    Echoes depth depth reference.checkWritable reference.checkWritable := by
  cases reference with
  | moduleSlot slot => exact checkWritable slot
  | localSlot slot => exact pure ()

/-! ## Expressions -/

section Expressions

variable
  {operand other : OperandCompiler}
  [∀ depth least, Echoes depth depth (operand least) (other least)]

instance whole : Echoes depth depth (whole operand) (whole other) := by
  unfold Compiler.whole
  infer_instance

instance commaSeparated
    {afterEach : Nat → Compiler Unit}
    [∀ count, Echoes depth depth (afterEach count) (afterEach count)] :
    Echoes depth depth (commaSeparated operand afterEach) (commaSeparated other afterEach) := by
  unfold Compiler.commaSeparated
  infer_instance

instance argumentList : Echoes depth depth (argumentList operand) (argumentList other) := by
  unfold Compiler.argumentList
  infer_instance

instance grouping : Echoes depth depth (grouping operand) (grouping other) := by
  unfold Compiler.grouping
  infer_instance

instance arrayLiteral : Echoes depth depth (arrayLiteral operand) (arrayLiteral other) := by
  unfold Compiler.arrayLiteral
  infer_instance

instance namedVariable (name : String) (canAssign : Bool) :
    Echoes depth depth (namedVariable operand name canAssign)
      (namedVariable other name canAssign) := by
  unfold Compiler.namedVariable
  infer_instance

instance receiver : Echoes depth depth receiver receiver := by
  unfold Compiler.receiver
  have inside :
      Echoes depth depth (Compiler.look fun state => state.draft.role.hasReceiver)
        (Compiler.look fun state => state.draft.role.hasReceiver) :=
    lookAtDraft (fun draft => draft.role.hasReceiver) fun _ _ => rfl
  have outside :
      Echoes depth depth
        (Compiler.look fun state => state.enclosing.any fun draft => draft.role.hasReceiver)
        (Compiler.look fun state => state.enclosing.any fun draft => draft.role.hasReceiver) :=
    lookAround fun _ _ => rfl
  infer_instance

instance leadingForm (canAssign : Bool) (form : LeadingForm) :
    Echoes depth depth (leadingForm operand canAssign form) (leadingForm other canAssign form) := by
  cases form <;> unfold Compiler.leadingForm <;> infer_instance

instance conjunction : Echoes depth depth (conjunction operand) (conjunction other) := by
  unfold Compiler.conjunction
  infer_instance

instance disjunction : Echoes depth depth (disjunction operand) (disjunction other) := by
  unfold Compiler.disjunction
  infer_instance

instance property (canAssign : Bool) :
    Echoes depth depth (property operand canAssign) (property other canAssign) := by
  unfold Compiler.property
  infer_instance

instance subscript (canAssign : Bool) :
    Echoes depth depth (subscript operand canAssign) (subscript other canAssign) := by
  unfold Compiler.subscript
  infer_instance

instance trailingForm (canAssign : Bool) (form : TrailingForm) :
    Echoes depth depth (trailingForm operand canAssign form)
      (trailingForm other canAssign form) := by
  cases form <;> unfold Compiler.trailingForm <;> infer_instance

instance nextTrailing? (least : Precedence) :
    Echoes depth depth (nextTrailing? least) (nextTrailing? least) :=
  lookAtCurrent fun token =>
    token.kind.trailing?.filter fun form => decide (least.rank ≤ form.precedence.rank)

/-- The forms after an operand, one in every round. -/
instance trailingRound (canAssign : Bool) (least : Precedence) :
    Echoes depth depth
      (do
        match ← Compiler.nextTrailing? least with
        | none => return (false, ())
        | some form =>
          Compiler.advance
          Compiler.trailingForm operand canAssign form
          return (true, ()))
      (do
        match ← Compiler.nextTrailing? least with
        | none => return (false, ())
        | some form =>
          Compiler.advance
          Compiler.trailingForm other canAssign form
          return (true, ())) := by
  refine andThen inferInstance fun form? => ?_
  split <;> infer_instance

instance operators (least : Precedence) :
    Echoes depth depth (operators operand least) (operators other least) := by
  unfold Compiler.operators
  refine andThen inferInstance fun _ => ?_
  refine andThen (lookAtPrevious fun token => token.kind.leading?) fun form? => ?_
  split <;> infer_instance

end Expressions

/-- What is compiled within a number of levels is compiled in the same way within more. -/
theorem expressionWithin
    {levels more : Nat}
    (room : levels ≤ more)
    (depth : Nat)
    (least : Precedence) :
    Echoes depth depth (expressionWithin levels least) (expressionWithin more least) := by
  induction levels generalizing more depth least with
  | zero => exact failAtCurrent _ _
  | succ levels induction =>
      cases more with
      | zero => cases room
      | succ more =>
          have inside := induction (Nat.le_of_succ_le_succ room)
          exact operators least

/-! ## Statements and declarations -/

section Statements

variable
  {inner other : Inner}
  [∀ depth least, Echoes depth depth (inner.operand least) (other.operand least)]
  [∀ depth form, Echoes depth depth (inner.code form) (other.code form)]

instance expression : Echoes depth depth inner.expression other.expression :=
  whole

instance statement : Echoes depth depth inner.statement other.statement := by
  unfold Inner.statement
  infer_instance

instance block : Echoes depth depth inner.block other.block := by
  unfold Inner.block
  infer_instance

instance parameter : Echoes depth depth Inner.parameter Inner.parameter := by
  have counts :
      Echoes depth depth
        (Compiler.change fun state =>
          { state with draft := { state.draft with arity := state.draft.arity + 1 } })
        (Compiler.change fun state =>
          { state with draft := { state.draft with arity := state.draft.arity + 1 } }) :=
    of_draft (fun draft => ((), { draft with arity := draft.arity + 1 })) fun _ runs => ⟨runs, rfl⟩
  have initializes :
      Echoes depth depth (Compiler.changeScope Scope.markInitialized)
        (Compiler.changeScope Scope.markInitialized) :=
    changeScope _
  unfold Inner.parameter
  exact andThen (lookAtDraft Draft.arity fun _ _ => rfl) fun _ => inferInstance

instance function (name : String) (role : Role) :
    Echoes depth depth (inner.function name role) (other.function name role) := by
  unfold Inner.function
  infer_instance

instance method : Echoes depth depth inner.method other.method := by
  unfold Inner.method
  infer_instance

instance classDeclaration : Echoes depth depth inner.classDeclaration other.classDeclaration := by
  unfold Inner.classDeclaration
  infer_instance

instance functionDeclaration :
    Echoes depth depth inner.functionDeclaration other.functionDeclaration := by
  unfold Inner.functionDeclaration
  infer_instance

instance variableDeclaration :
    Echoes depth depth inner.variableDeclaration other.variableDeclaration := by
  unfold Inner.variableDeclaration
  infer_instance

instance importedVariable (moduleIndex : UInt16) :
    Echoes depth depth (Inner.importedVariable moduleIndex)
      (Inner.importedVariable moduleIndex) := by
  unfold Inner.importedVariable
  infer_instance

instance importDeclaration :
    Echoes depth depth Inner.importDeclaration Inner.importDeclaration := by
  unfold Inner.importDeclaration
  refine andThen (lookAtCurrent fun token => token.kind) fun kind => ?_
  split <;> infer_instance

instance printStatement : Echoes depth depth inner.printStatement other.printStatement := by
  unfold Inner.printStatement
  infer_instance

instance expressionStatement :
    Echoes depth depth inner.expressionStatement other.expressionStatement := by
  unfold Inner.expressionStatement
  infer_instance

instance ifStatement : Echoes depth depth inner.ifStatement other.ifStatement := by
  unfold Inner.ifStatement
  infer_instance

instance whileStatement : Echoes depth depth inner.whileStatement other.whileStatement := by
  unfold Inner.whileStatement
  infer_instance

instance forInitializer : Echoes depth depth inner.forInitializer other.forInitializer := by
  unfold Inner.forInitializer
  infer_instance

instance forCondition : Echoes depth depth inner.forCondition other.forCondition := by
  unfold Inner.forCondition
  infer_instance

instance forIncrement (start : Nat) :
    Echoes depth depth (inner.forIncrement start) (other.forIncrement start) := by
  unfold Inner.forIncrement
  infer_instance

instance forStatement : Echoes depth depth inner.forStatement other.forStatement := by
  unfold Inner.forStatement
  refine andThen inferInstance fun _ => andThen inferInstance fun _ =>
    andThen inferInstance fun _ => andThen inferInstance fun start =>
      andThen inferInstance fun leave? => ?_
  cases leave? <;> infer_instance

instance returnStatement : Echoes depth depth inner.returnStatement other.returnStatement := by
  have role :
      Echoes depth depth (Compiler.look fun state => state.draft.role)
        (Compiler.look fun state => state.draft.role) :=
    lookAtDraft Draft.role fun _ _ => rfl
  unfold Inner.returnStatement
  infer_instance

instance statementBody : Echoes depth depth inner.statementBody other.statementBody := by
  unfold Inner.statementBody
  infer_instance

instance declarationBody : Echoes depth depth inner.declarationBody other.declarationBody := by
  unfold Inner.declarationBody
  infer_instance

instance body (form : CodeForm) : Echoes depth depth (inner.body form) (other.body form) := by
  cases form with
  | declaration => exact declarationBody
  | statement => exact statementBody

end Statements

/-- The same holds of statements and declarations. -/
theorem codeWithin
    {levels more : Nat}
    (room : levels ≤ more)
    (depth : Nat)
    (form : CodeForm) :
    Echoes depth depth (codeWithin levels form) (codeWithin more form) := by
  induction levels generalizing more depth form with
  | zero => exact failAtCurrent _ _
  | succ levels induction =>
      cases more with
      | zero => cases room
      | succ more =>
          have less := Nat.le_of_succ_le_succ room
          have operands := expressionWithin less
          have inside := induction less
          exact body form

end Echoes

end Compiler

end ScriptEngine
