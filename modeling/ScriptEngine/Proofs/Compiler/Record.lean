import ScriptEngine.Proofs.Code.Lines
import ScriptEngine.Proofs.Compiler.Effect
import ScriptEngine.Proofs.Compiler.Guarantee

/-!
# The record of compiled code

The chunks that the compiler writes are built by appending instructions on lines, by
adding constants and by closing jumps that have been appended before
(`recorded_of_compile`).  `Compiler.Records` is an effect that every routine has; while
jumps wait for their distances, it says that they stay where they are.

Which instructions are appended can be limited by a `Policy`, which may depend on the table
of the module.  It has to allow every instruction that does not assign a variable of the
module, and the assignments to the variables that can be assigned.  Where slot zero is the
class of arrays, no function assigns it (`arrayClass_spared_of_compile`).
-/

set_option synthInstance.maxSize 100000

namespace ScriptEngine

/-- A function whose code has been built by appending instructions on lines. -/
def Function.Recorded (function : Function) : Prop :=
  ∃ history, function.chunk.Emits history

/-- Its instructions have a property as well. -/
def Function.RecordedAs (allows : Instruction → Prop) (function : Function) : Prop :=
  ∃ history, function.chunk.Emits history ∧ ∀ entry ∈ history, allows entry.1

/-- The jumps stand among the instructions of a history. -/
def Chunk.Holds (history : List (Instruction × Nat)) (waiting : List PendingJump) : Prop :=
  ∀ jump ∈ waiting, jump.IsIn (history.map Prod.fst)

theorem Chunk.Holds.append
    {history : List (Instruction × Nat)}
    {waiting : List PendingJump}
    (holds : Holds history waiting)
    (more : List (Instruction × Nat)) :
    Holds (history ++ more) waiting := by
  intro jump member
  rw [List.map_append]
  exact (holds jump member).append _

/-- A backward jump is appended like any other instruction. -/
theorem Chunk.emitLoop_eq
    {chunk after : Chunk}
    {start line : Nat}
    {result : Unit}
    (written : chunk.emitLoop start line = (.ok result, after)) :
    ∃ distance, after = chunk.emit (.loop distance) line := by
  unfold emitLoop at written
  simp only at written
  split at written
  · cases written
    exact ⟨_, rfl⟩
  · cases written

namespace Compiler

/-- Which instructions may be appended while the table of the module has a property. -/
structure Policy where
  allows : Instruction → Prop
  table : Module → Prop

/-- A slot can be assigned if it is not that of the class of arrays. -/
def Policy.Assigns (policy : Policy) (slot : Nat) : Prop :=
  policy.allows (.setModule (UInt16.ofNat slot)) ∧ policy.allows (.defineModule (UInt16.ofNat slot))

/-- A slot whose assignment is allowed wherever it is not refused. -/
def Policy.Knows (policy : Policy) (slot : Nat) : Prop :=
  ∀ table : Module,
    policy.table table →
    ¬ (slot = arraySlot ∧ table.variableName? slot = some "Array") →
      policy.Assigns slot

/-- A policy that the compiler follows. -/
class Policy.Followed (policy : Policy) : Prop where
  unassigning : ∀ instruction : Instruction, instruction.assignsModule = false →
    policy.allows instruction
  declare : ∀ table name, policy.table table → policy.table (table.declare name).2
  knows : ∀ table name slot,
    policy.table table → (table.declare name).1 = some slot → policy.Knows slot

/-- What a declaration binds can be assigned. -/
class Policy.Binds (policy : Policy) (binding : Binding) : Prop where
  assigns : ∀ slot, binding = .moduleSlot slot → policy.Assigns slot

/-- A part of a compilation has kept the record, while jumps wait for their distances. -/
structure Prolongs (policy : Policy) (waiting : List PendingJump) (before after : Compilation) :
    Prop where
  table : policy.table after.table
  enclosing : after.enclosing = before.enclosing
  appended :
    ∀ history,
      before.draft.chunk.Emits history →
      Chunk.Holds history waiting →
        ∃ more,
          after.draft.chunk.Emits (history ++ more) ∧ ∀ entry ∈ more, policy.allows entry.1
  finished :
    (∀ function ∈ before.finished, function.RecordedAs policy.allows) →
      ∀ function ∈ after.finished, function.RecordedAs policy.allows

namespace Prolongs

variable
  {policy : Policy}
  {waiting : List PendingJump}
  {before between after : Compilation}

/-- The code of the present function has not changed, or it was built further. -/
theorem of_history
    (table : policy.table after.table)
    (enclosing : after.enclosing = before.enclosing)
    (finished : after.finished = before.finished)
    (appended :
      ∀ history,
        before.draft.chunk.Emits history →
        Chunk.Holds history waiting →
          ∃ more,
            after.draft.chunk.Emits (history ++ more) ∧ ∀ entry ∈ more, policy.allows entry.1) :
    Prolongs policy waiting before after where
  table := table
  enclosing := enclosing
  appended := appended
  finished := by
    rw [finished]
    exact id

theorem of_same
    (table : policy.table after.table)
    (enclosing : after.enclosing = before.enclosing)
    (finished : after.finished = before.finished)
    (chunk : after.draft.chunk = before.draft.chunk) :
    Prolongs policy waiting before after := by
  refine of_history table enclosing finished fun history emits _ => ⟨[], ?_, List.forall_mem_nil _⟩
  rw [chunk, List.append_nil]
  exact emits

/-- An allowed instruction is appended. -/
theorem of_emit
    {state : Compilation}
    (table : policy.table state.table)
    {instruction : Instruction}
    (allowed : policy.allows instruction)
    (line : Nat) :
    Prolongs policy waiting state
      { state with
        draft := { state.draft with chunk := state.draft.chunk.emit instruction line } } :=
  of_history table rfl rfl fun _ emits _ =>
    ⟨_, emits.emit instruction line, List.forall_mem_singleton.mpr allowed⟩

theorem trans
    (first : Prolongs policy waiting before between)
    (second : Prolongs policy waiting between after) :
    Prolongs policy waiting before after where
  table := second.table
  enclosing := second.enclosing.trans first.enclosing
  appended := by
    intro history emits holds
    rcases first.appended history emits holds with ⟨middle, there, middleAllowed⟩
    rcases second.appended _ there (holds.append middle) with ⟨more, here, moreAllowed⟩
    exact ⟨middle ++ more, List.append_assoc history middle more ▸ here,
      List.forall_mem_append.mpr ⟨middleAllowed, moreAllowed⟩⟩
  finished := second.finished ∘ first.finished

/-- Fewer jumps are waiting. -/
theorem wait
    {more : List PendingJump}
    (prolongs : Prolongs policy waiting before after)
    (fewer : ∀ jump ∈ waiting, jump ∈ more) :
    Prolongs policy more before after where
  table := prolongs.table
  enclosing := prolongs.enclosing
  appended history emits holds :=
    prolongs.appended history emits fun jump member => holds jump (fewer jump member)
  finished := prolongs.finished

end Prolongs

/-- A step that succeeds keeps the record. -/
def Records (policy : Policy) (waiting : List PendingJump) : Effect :=
  fun before problem after =>
    problem = none → policy.table before.table → Prolongs policy waiting before after

namespace Records

variable {policy : Policy} {waiting : List PendingJump}

/-- Only what happens if the step succeeds matters. -/
theorem of_ok
    {step : Compiler α}
    (keeps :
      ∀ {state after : Compilation} {value : α},
        policy.table state.table →
        step state = (.ok value, after) →
          Prolongs policy waiting state after) :
    Has (Records policy waiting) step := by
  constructor
  intro state
  rcases outcome : step state with ⟨error | value, after⟩
  · exact nofun
  · exact fun _ table => keeps table outcome

/-- A step that cannot succeed. -/
theorem of_failure
    {step : Compiler α}
    (fails : ∀ state value after, step state ≠ (.ok value, after)) :
    Has (Records policy waiting) step :=
  of_ok fun _ succeeds => absurd succeeds (fails _ _ _)

theorem prolongs_of_ok
    {step : Compiler α}
    (records : Has (Records policy waiting) step)
    {state after : Compilation}
    {value : α}
    (succeeds : step state = (.ok value, after))
    (table : policy.table state.table) :
    Prolongs policy waiting state after := by
  have kept := records.has state
  rw [succeeds] at kept
  exact kept rfl table

variable [followed : policy.Followed]

theorem allows_returnedDefault (role : Role) : policy.allows (returnedDefault role) := by
  unfold returnedDefault
  split <;> exact followed.unassigning _ rfl

instance guarded : (Records policy waiting).Guarded where
  nothing _ _ table := .of_same table rfl rfl rfl
  andThen first second none table :=
    (first rfl table).trans (second none (first rfl table).table)
  advance state _ table := by
    have same : state.advance.table = state.table := by
      rw [Compilation.advance]
      split <;> rfl
    apply Prolongs.of_same (same ▸ table) <;> · rw [Compilation.advance]; split <;> rfl
  stop _ _ _ := nofun
  emit state instruction unassigning _ table :=
    .of_emit table (followed.unassigning instruction unassigning.unassigning) _
  emitReturn state _ table := by
    rw [emitReturn_eq]
    have returned : Prolongs policy waiting state _ :=
      .of_emit table (allows_returnedDefault state.draft.role) state.previous.line
    exact returned.trans (.of_emit returned.table (followed.unassigning .leave rfl) _)
  constant state value _ table :=
    .of_history table rfl rfl fun history emits _ =>
      ⟨[], by rw [List.append_nil]; exact emits.constant _, List.forall_mem_nil _⟩
  redraft _ _ same _ _ table := .of_same table rfl rfl same
  declare state name _ table := .of_same (followed.declare state.table name table) rfl rfl rfl

omit followed in
/-- An allowed instruction is appended. -/
theorem emit {instruction : Instruction} (allowed : policy.allows instruction) :
    Has (Records policy waiting) (emit instruction) :=
  ⟨fun _ _ table => .of_emit table allowed _⟩

instance emitOn (line : Nat) : Has (Records policy waiting) (emitOn line .pop) :=
  ⟨fun _ _ table => .of_emit table (followed.unassigning .pop rfl) line⟩

instance emitLeave : Has (Records policy waiting) (Compiler.emit .leave) :=
  emit (followed.unassigning .leave rfl)

/-! ## Variables of the module -/

/-- The slot of a name is known in what follows. -/
theorem bindModuleSlot
    {name : String}
    {next : Nat → Compiler β}
    (rest : ∀ slot, policy.Knows slot → Has (Records policy waiting) (next slot)) :
    Has (Records policy waiting) (moduleSlot name >>= next) := by
  refine of_ok fun {state after value} table succeeds => ?_
  rcases exists_of_bind_ok succeeds with ⟨slot, declared, finds, continues⟩
  have kept : Prolongs policy waiting state declared :=
    prolongs_of_ok (Has.moduleSlot name) finds table
  have isSlot : (state.table.declare name).1 = some slot := by
    unfold Compiler.moduleSlot at finds
    rcases exists_of_bind_ok finds with ⟨slot?, between, isDeclared, given⟩
    have same : (state.table.declare name).1 = slot? := by
      cases isDeclared
      rfl
    rw [same]
    cases slot? with
    | none => cases given
    | some found =>
        cases given
        rfl
  exact kept.trans
    (prolongs_of_ok (rest slot (followed.knows state.table name slot table isSlot)) continues
      kept.table)

/-- What is known and not refused can be assigned in what follows. -/
theorem bindCheckWritable
    {slot : Nat}
    (knows : policy.Knows slot)
    {next : Unit → Compiler β}
    (rest : policy.Assigns slot → Has (Records policy waiting) (next ())) :
    Has (Records policy waiting) (checkWritable slot >>= next) := by
  refine of_ok fun {state after value} table succeeds => ?_
  rcases exists_of_bind_ok succeeds with ⟨_, checked, checks, continues⟩
  have kept : Prolongs policy waiting state checked :=
    prolongs_of_ok (Has.checkWritable slot) checks table
  refine kept.trans (prolongs_of_ok (rest (knows state.table table fun refused => ?_)) continues
    kept.table)
  unfold Compiler.checkWritable at checks
  rcases exists_of_bind_ok checks with ⟨name?, between, isName, passes⟩
  cases isName
  rw [if_pos refused] at passes
  cases passes

/-- What a declaration binds can be assigned in what follows. -/
theorem bindDeclared
    {name : String}
    {next : Binding → Compiler β}
    (rest : ∀ binding, policy.Binds binding → Has (Records policy waiting) (next binding)) :
    Has (Records policy waiting) (declareVariable name >>= next) := by
  unfold Compiler.declareVariable Compiler.atModuleLevel
  rw [bind_assoc]
  refine @Has.bind _ _ _ _ _ _ (Has.look _) fun atLevel => ?_
  split
  · rw [bind_assoc]
    refine bindModuleSlot fun slot knows => ?_
    rw [bind_assoc]
    refine bindCheckWritable knows fun assigns => ?_
    rw [pure_bind]
    exact rest _ ⟨by rintro _ ⟨⟩; exact assigns⟩
  · rw [bind_assoc]
    refine @Has.bind _ _ _ _ _ _ (Has.declareLocal name) fun _ => ?_
    rw [pure_bind]
    exact rest _ ⟨nofun⟩

instance defineVariable (binding : Binding) [binds : policy.Binds binding] :
    Has (Records policy waiting) (defineVariable binding) := by
  cases binding with
  | moduleSlot slot => exact emit (binds.assigns slot rfl).2
  | newLocal => exact Has.changeScope _

/-- A variable is used, or it is assigned after a check. -/
instance namedVariable
    {operand : OperandCompiler}
    [∀ least, Has (Records policy waiting) (operand least)]
    (name : String)
    (canAssign : Bool) :
    Has (Records policy waiting) (namedVariable operand name canAssign) := by
  unfold Compiler.namedVariable Compiler.resolve
  rw [bind_assoc]
  refine @Has.bind _ _ _ _ _ _ (Has.look _) fun resolved => ?_
  have assigned (reference : Reference)
      (checked :
        ∀ {next : Unit → Compiler Unit},
          (policy.allows reference.write → Has (Records policy waiting) (next ())) →
            Has (Records policy waiting) (reference.checkWritable >>= next)) :
      Has (Records policy waiting) (do
        if ← (if canAssign then matchMark .equal else Pure.pure false) then
          reference.checkWritable
          whole operand
          Compiler.emit reference.write
        else
          Compiler.emit reference.read) := by
    refine @Has.bind _ _ _ _ _ _ inferInstance fun assigns => ?_
    split
    · refine checked fun allowed => ?_
      exact @Has.bind _ _ _ _ _ _ inferInstance fun _ => emit allowed
    · infer_instance
  split
  · exact of_failure fun _ _ _ => nofun
  · rename_i slot
    rw [pure_bind]
    refine assigned (.localSlot slot) fun rest => ?_
    exact rest (followed.unassigning _ rfl)
  · rw [bind_assoc]
    refine @Has.bind _ _ _ _ _ _ (Has.look _) fun captured => ?_
    split
    · exact of_failure fun _ _ _ => nofun
    · rw [bind_assoc]
      refine bindModuleSlot fun slot knows => ?_
      rw [pure_bind]
      exact assigned (.moduleSlot slot) fun rest =>
        bindCheckWritable knows fun assigns => rest assigns.1

section Declarations

variable {inner : Inner} [∀ least, Has (Records policy waiting) (inner.operand least)]

instance variableDeclaration : Has (Records policy waiting) inner.variableDeclaration := by
  unfold Inner.variableDeclaration
  refine @Has.bind _ _ _ _ _ _ inferInstance fun name => bindDeclared fun binding binds => ?_
  infer_instance

instance forInitializer : Has (Records policy waiting) inner.forInitializer := by
  unfold Inner.forInitializer
  infer_instance

omit [∀ least, Has (Records policy waiting) (inner.operand least)]

instance importedVariable (moduleIndex : UInt16) :
    Has (Records policy waiting) (Inner.importedVariable moduleIndex) := by
  unfold Inner.importedVariable
  refine @Has.bind _ _ _ _ _ _ inferInstance fun name => ?_
  refine @Has.bind _ _ _ _ _ _ inferInstance fun index => bindDeclared fun binding binds => ?_
  infer_instance

instance importDeclaration : Has (Records policy waiting) Inner.importDeclaration := by
  unfold Inner.importDeclaration
  refine @Has.bind _ _ _ _ _ _ (Has.look _) fun kind => ?_
  split
  · refine @Has.bind _ _ _ _ _ _ inferInstance fun _ => ?_
    refine @Has.bind _ _ _ _ _ _ inferInstance fun moduleIndex => ?_
    refine @Has.bind _ _ _ _ _ _ inferInstance fun _ => ?_
    refine @Has.bind _ _ _ _ _ _ inferInstance fun _ => ?_
    refine @Has.bind _ _ _ _ _ _ inferInstance fun named => ?_
    split
    · refine @Has.bind _ _ _ _ _ _ inferInstance fun localName => ?_
      refine bindDeclared fun binding binds => ?_
      infer_instance
    · infer_instance
  · infer_instance

end Declarations

/-! ## Jumps -/

instance emitLoop (start : Nat) : Has (Records policy waiting) (emitLoop start) := by
  have loops (line : Nat) :
      Has (Records policy waiting) (limitedChunk fun chunk => chunk.emitLoop start line) := by
    refine of_ok fun table succeeds => ?_
    rcases limitedChunk_eq_ok succeeds with ⟨chunk, written, rfl⟩
    rcases Chunk.emitLoop_eq written with ⟨distance, rfl⟩
    exact .of_emit table (followed.unassigning (.loop distance) rfl) line
  unfold Compiler.emitLoop
  infer_instance

/-- A jump that is appended waits in what follows. -/
theorem bindJump
    (kind : ForwardJump)
    {next : PendingJump → Compiler β}
    (rest : ∀ jump, Has (Records policy (jump :: waiting)) (next jump)) :
    Has (Records policy waiting) (emitJump kind.opcode >>= next) := by
  refine of_ok fun {state after value} table succeeds => ?_
  have opens :
      emitJump kind.opcode state =
        (.ok { operand := state.draft.chunk.code.size + 1 },
          state.withChunk
            (state.draft.chunk.emit (kind.past Chunk.openDistance) state.previous.line)) := by
    have written := state.draft.chunk.emitJump_eq kind state.previous.line
    show (Except.ok (state.draft.chunk.emitJump kind.opcode state.previous.line).1,
      state.withChunk (state.draft.chunk.emitJump kind.opcode state.previous.line).2) = _
    rw [written]
  rw [bind_of_ok opens] at succeeds
  have kept : Prolongs policy (_ :: waiting) _ after := prolongs_of_ok (rest _) succeeds table
  refine ⟨kept.table, kept.enclosing, fun history emits holds => ?_, kept.finished⟩
  have opened := emits.emit (kind.past Chunk.openDistance) state.previous.line
  have place := emits.size
  have waits :
      Chunk.Holds (history ++ [(kind.past Chunk.openDistance, state.previous.line)])
        ({ operand := state.draft.chunk.code.size + 1 } :: waiting) := by
    intro jump member
    rcases List.mem_cons.mp member with rfl | old
    · refine ⟨history.map Prod.fst, kind, Chunk.openDistance, [], ?_, congrArg (· + 1) place⟩
      rw [List.map_append]
      rfl
    · exact holds.append _ jump old
  rcases kept.appended _ opened waits with ⟨more, built, allowed⟩
  refine ⟨_ :: more, by rwa [List.append_assoc] at built, ?_⟩
  refine List.forall_mem_cons.mpr ⟨followed.unassigning _ ?_, allowed⟩
  cases kind <;> rfl

instance bindAlways
    {next : PendingJump → Compiler β}
    [rest : ∀ jump, Has (Records policy (jump :: waiting)) (next jump)] :
    Has (Records policy waiting) (emitJump .jump >>= next) :=
  bindJump .always rest

instance bindIfFalse
    {next : PendingJump → Compiler β}
    [rest : ∀ jump, Has (Records policy (jump :: waiting)) (next jump)] :
    Has (Records policy waiting) (emitJump .jumpIfFalse >>= next) :=
  bindJump .ifFalse rest

instance patchJump (jump : PendingJump) [waits : Waits jump waiting] :
    Has (Records policy waiting) (patchJump jump) := by
  refine of_ok fun table succeeds => ?_
  rcases limitedChunk_eq_ok succeeds with ⟨chunk, closed, rfl⟩
  refine .of_history table rfl rfl fun history emits holds => ⟨[], ?_, List.forall_mem_nil _⟩
  rw [List.append_nil]
  exact emits.close (holds jump waits.member) closed

/-- What keeps the record keeps it also while a jump waits. -/
instance (priority := low) wait
    {step : Compiler α}
    [records : Has (Records policy []) step]
    (jump : PendingJump) :
    Has (Records policy (jump :: waiting)) step :=
  of_ok fun table succeeds => (prolongs_of_ok records succeeds table).wait nofun

/-! ## Functions -/

/-- Parameters and body of a function. -/
def functionCode (inner : Inner) : Compiler Unit := do
  enterBlock
  consume .leftParen "'(' after function name"
  unless ← atMark .rightParen do
    repeatWhile (fun _ => do
      Inner.parameter
      return (← matchMark .comma, ())) ()
  consume .rightParen "')' after parameters"
  consume .leftBrace "'\x7b' before function body"
  inner.block
  emitReturn

theorem function_eq (inner : Inner) (name : String) (role : Role) :
    inner.function name role = (do
      beginFunction name role
      functionCode inner
      emitConstant (.function (← finishFunction))) := by
  unfold Inner.function functionCode
  simp only [bind_assoc]
  refine bind_congr fun _ => bind_congr fun _ => bind_congr fun _ => bind_congr fun closed => ?_
  split <;> simp only [bind_assoc]

omit followed in
/-- A function begins with a blank record, and the one around it goes on with its own. -/
theorem nested
    {name : String}
    {role : Role}
    {code : Compiler Unit}
    (records : Has (Records policy []) code)
    {next : Nat → Compiler α}
    (rest : ∀ id, Has (Records policy waiting) (next id)) :
    Has (Records policy waiting) (do
      beginFunction name role
      code
      next (← finishFunction)) := by
  refine of_ok fun {state after value} table succeeds => ?_
  rcases exists_of_bind_ok succeeds with ⟨_, begun, begins, succeeds⟩
  rcases exists_of_bind_ok succeeds with ⟨_, written, writes, succeeds⟩
  rcases exists_of_bind_ok succeeds with ⟨id, finished, finishes, continues⟩
  cases begins
  have kept := prolongs_of_ok records writes table
  have ended : finished.table = written.table := by
    unfold Compiler.finishFunction at finishes
    simp only at finishes
    split at finishes <;> cases finishes <;> rfl
  refine Prolongs.trans ?_ (prolongs_of_ok (rest id) continues (ended ▸ kept.table))
  have around : written.enclosing = state.draft :: state.enclosing := kept.enclosing
  unfold Compiler.finishFunction at finishes
  simp only [around] at finishes
  cases finishes
  refine ⟨kept.table, rfl, fun history emits _ => ⟨[], ?_, List.forall_mem_nil _⟩, ?_⟩
  · rw [List.append_nil]
    exact emits
  · intro earlier function member
    rcases Array.mem_push.mp member with old | rfl
    · exact kept.finished earlier function old
    · exact kept.appended [] .blank nofun

/-! ## Loops -/

section Clauses

variable {inner : Inner} [∀ least, Has (Records policy []) (inner.operand least)]

/-- The jump out of a loop, if there is one, waits in what follows. -/
theorem bindCondition
    {next : Option PendingJump → Compiler β}
    (forever : Has (Records policy []) (next none))
    (leaving : ∀ jump, Has (Records policy [jump]) (next (some jump))) :
    Has (Records policy []) (inner.forCondition >>= next) := by
  unfold Inner.forCondition
  rw [bind_assoc]
  refine @Has.bind _ _ _ _ _ _ inferInstance fun found => ?_
  split
  · rw [pure_bind]
    exact forever
  · simp only [bind_assoc, pure_bind]
    infer_instance

omit [∀ least, Has (Records policy []) (inner.operand least)] in
instance forIncrement
    [∀ least, Has (Records policy waiting) (inner.operand least)]
    (start : Nat) :
    Has (Records policy waiting) (inner.forIncrement start) := by
  unfold Inner.forIncrement
  infer_instance

end Clauses

/-- A function begins with a blank record. -/
instance function
    {inner : Inner}
    [∀ form, Has (Records policy []) (inner.code form)]
    (name : String)
    (role : Role) :
    Has (Records policy waiting) (inner.function name role) := by
  rw [function_eq]
  refine nested ?_ fun id => inferInstance
  unfold functionCode
  infer_instance

/-! ## All routines -/

/-- A method is appended to what attaches it. -/
instance method
    {inner : Inner}
    [∀ form, Has (Records policy []) (inner.code form)] :
    Has (Records policy waiting) inner.method := by
  unfold Inner.method
  have attached (condition : Bool) (index : UInt16) :
      Has (Records policy waiting)
        (Compiler.emit (if condition then .staticMethod index else .method index)) := by
    refine emit (followed.unassigning _ ?_)
    split <;> rfl
  infer_instance

instance complete : (Records policy []).Complete where
  namedVariable operands name canAssign := namedVariable name canAssign
  conjunction operands := by
    unfold Compiler.conjunction
    infer_instance
  disjunction operands := by
    unfold Compiler.disjunction
    infer_instance
  classDeclaration operands code := by
    unfold Inner.classDeclaration
    refine @Has.bind _ _ _ _ _ _ inferInstance fun name => ?_
    refine @Has.bind _ _ _ _ _ _ inferInstance fun index => bindDeclared fun binding binds => ?_
    infer_instance
  functionDeclaration operands code := by
    unfold Inner.functionDeclaration
    refine @Has.bind _ _ _ _ _ _ inferInstance fun name => bindDeclared fun binding binds => ?_
    infer_instance
  variableDeclaration operands := variableDeclaration
  importDeclaration := importDeclaration
  ifStatement operands code := by
    unfold Inner.ifStatement
    infer_instance
  whileStatement operands code := by
    unfold Inner.whileStatement
    infer_instance
  forStatement operands code := by
    unfold Inner.forStatement
    refine @Has.bind _ _ _ _ _ _ inferInstance fun _ => ?_
    refine @Has.bind _ _ _ _ _ _ inferInstance fun _ => ?_
    refine @Has.bind _ _ _ _ _ _ inferInstance fun _ => ?_
    refine @Has.bind _ _ _ _ _ _ inferInstance fun start => ?_
    refine bindCondition ?_ fun jump => ?_
    · infer_instance
    · infer_instance
  returnStatement operands := by
    unfold Inner.returnStatement
    infer_instance

instance expressionWithin (levels : Nat) (least : Precedence) :
    Has (Records policy []) (expressionWithin levels least) := by
  induction levels generalizing least with
  | zero => exact ⟨fun _ => nofun⟩
  | succ levels induction => exact Has.operators least

instance codeWithin (levels : Nat) (form : CodeForm) :
    Has (Records policy []) (codeWithin levels form) := by
  induction levels generalizing form with
  | zero => exact ⟨fun _ => nofun⟩
  | succ levels induction => exact Has.body form

/-- All functions of a text are recorded. -/
theorem script
    {levels : Nat}
    {mode : CompileMode}
    {state after : Compilation}
    {result : Unit}
    (table : policy.table state.table)
    (outermost : state.enclosing = [])
    (blank : state.draft.chunk = {})
    (earlier : ∀ function ∈ state.finished, function.RecordedAs policy.allows)
    (succeeds : script levels mode state = (.ok result, after)) :
    ∀ function ∈ after.finished, function.RecordedAs policy.allows := by
  have finishes :
      ∀ {ended final : Compilation} {given : Unit},
        Prolongs policy [] state ended →
        (do
          let _ ← finishFunction : Compiler Unit) ended = (.ok given, final) →
          ∀ function ∈ final.finished, function.RecordedAs policy.allows := by
    intro ended final given kept finished function member
    have built := kept.appended [] (blank ▸ .blank) nofun
    rcases exists_of_bind_ok finished with ⟨id, last, closes, done⟩
    cases done
    unfold Compiler.finishFunction at closes
    simp only [kept.enclosing, outermost] at closes
    cases closes
    rcases Array.mem_push.mp member with old | rfl
    · exact kept.finished earlier function old
    · exact built
  unfold Compiler.script at succeeds
  rcases exists_of_bind_ok succeeds with ⟨pending, read, reads, rest⟩
  have kept := prolongs_of_ok (inferInstance : Has (Records policy []) _) reads table
  split at rest
  · rcases exists_of_bind_ok rest with ⟨_, ended, leaves, finished⟩
    exact finishes (kept.trans (prolongs_of_ok emitLeave leaves kept.table)) finished
  · rcases exists_of_bind_ok rest with ⟨_, ended, returns, finished⟩
    exact finishes (kept.trans (prolongs_of_ok inferInstance returns kept.table)) finished

end Records

namespace Policy

/-- Anything may be appended. -/
def any : Policy where
  allows := fun _ => True
  table := fun _ => True

instance : any.Followed where
  unassigning _ _ := trivial
  declare _ _ _ := trivial
  knows _ _ _ _ _ := fun _ _ _ => ⟨trivial, trivial⟩

end Policy

end Compiler

theorem recordedAs_of_compile
    {policy : Compiler.Policy}
    [policy.Followed]
    {mode : CompileMode}
    {source : String}
    {table : Module}
    (obeyed : policy.table table)
    {home firstFunction : Nat}
    {functions : Array Function}
    (success : (compile mode source table home firstFunction).functions = .ok functions) :
    ∀ function ∈ functions, function.RecordedAs policy.allows := by
  unfold compile at success
  split at success
  · cases success
  · rename_i tokens _
    unfold Compiler.compileTokens at success
    split at success
    · rename_i final outcome
      cases success
      exact Compiler.Records.script obeyed rfl rfl
        (fun function member => absurd member (Array.not_mem_empty function)) outcome
    · cases success

/-- The functions of a text that compiles have been built by appending instructions on lines. -/
theorem recorded_of_compile
    {mode : CompileMode}
    {source : String}
    {table : Module}
    {home firstFunction : Nat}
    {functions : Array Function}
    (success : (compile mode source table home firstFunction).functions = .ok functions) :
    ∀ function ∈ functions, function.Recorded := by
  intro function member
  have anything : Compiler.Policy.any.table table := trivial
  rcases recordedAs_of_compile anything success function member with ⟨history, emits, -⟩
  exact ⟨history, emits⟩

/-! ## The slot of the class of arrays -/

/-- An instruction that does not assign slot zero of the module. -/
def Instruction.SparesArrayClass (instruction : Instruction) : Prop :=
  instruction ≠ .setModule 0 ∧ instruction ≠ .defineModule 0

theorem Instruction.sparesArrayClass_of_unassigning
    {instruction : Instruction}
    (unassigning : instruction.assignsModule = false) :
    instruction.SparesArrayClass := by
  constructor <;> rintro rfl <;> cases unassigning

/-- Slot zero of a module is called `Array`. -/
structure Module.HoldsArrayClass (table : Module) : Prop where
  indexed : table.Indexed
  named : table.variableName? 0 = some "Array"

namespace Compiler

/-- Slot zero is not assigned where it is called `Array`. -/
def Policy.sparing : Policy where
  allows := Instruction.SparesArrayClass
  table := Module.HoldsArrayClass

instance : Policy.sparing.Followed where
  unassigning _ unassigning := Instruction.sparesArrayClass_of_unassigning unassigning
  declare table name holds := by
    refine ⟨holds.indexed.declare name, ?_⟩
    have inside := (Array.getElem?_eq_some_iff.mp holds.named).1
    rcases table.declare_cases name with ⟨_, -, same⟩ | ⟨-, -, same⟩ | ⟨-, -, same⟩
    · rw [same]
      exact holds.named
    · rw [same]
      show (table.names.push name)[0]? = _
      rw [Array.getElem?_push, if_neg (Nat.ne_of_lt inside)]
      exact holds.named
    · rw [same]
      exact holds.named
  knows table name slot holds declared := by
    intro other otherHolds notRefused
    have bounded : slot < Module.maxVariables := by
      have indexed := holds.indexed.declare name
      have found : (table.declare name).2.find? name = some slot :=
        Module.find?_of_declare (Prod.ext declared rfl)
      exact Nat.lt_of_lt_of_le (indexed.inside name slot found) indexed.bounded
    have notZero : UInt16.ofNat slot ≠ 0 := by
      intro isZero
      have same : slot = 0 := by
        have converted := toNat_ofNat_of_near (Nat.le_of_lt_succ bounded)
        rw [isZero] at converted
        exact converted.symm
      exact notRefused ⟨same, same ▸ otherHolds.named⟩
    exact ⟨⟨fun same => notZero (Instruction.setModule.inj same), nofun⟩,
      ⟨nofun, fun same => notZero (Instruction.defineModule.inj same)⟩⟩

end Compiler

/-- Where slot zero is called `Array`, no function of a text assigns it. -/
theorem arrayClass_spared_of_compile
    {mode : CompileMode}
    {source : String}
    {table : Module}
    (holds : table.HoldsArrayClass)
    {home firstFunction : Nat}
    {functions : Array Function}
    (success : (compile mode source table home firstFunction).functions = .ok functions) :
    ∀ function ∈ functions, function.RecordedAs Instruction.SparesArrayClass :=
  @recordedAs_of_compile Compiler.Policy.sparing _ _ _ _ holds _ _ _ success

end ScriptEngine
