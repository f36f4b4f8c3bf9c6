import ScriptEngine.Compilation.Script

/-!
# Effects that every routine of the compiler has

An `Effect` relates the state before a step of a compilation to its outcome: the problem
it stops with, if there is one, and the state afterwards.  An effect is sequential if the
primitive steps have it and sequences pass it on; it is structured if the routines have
it that write jumps, begin functions, return or attach methods.  Then all routines have it
as soon as the operands and the code inside them do (`Compiler.Has`).  An effect that these
steps have one by one is structured without more (`Effect.Stepwise`), in particular one that
says nothing about the code that is written (`Effect.Lawful`).

What refuses too deep a nesting is not among the routines, because the limit is drawn
where they are tied together.
-/

set_option synthInstance.maxSize 100000

namespace ScriptEngine

/-- Whether a problem is the depth of a text. -/
def CompileProblem.isTooDeep : CompileProblem → Bool
  | expressionTooDeep | codeTooDeep => true
  | _ => false

/-- A problem other than the depth of a text. -/
class CompileProblem.Shallow (problem : CompileProblem) : Prop where
  shallow : problem.isTooDeep = false

namespace CompileProblem.Shallow

instance (what : String) : Shallow (.expected what) := ⟨rfl⟩
instance : Shallow .invalidAssignmentTarget := ⟨rfl⟩
instance : Shallow .tooManyParameters := ⟨rfl⟩
instance : Shallow .tooManyArguments := ⟨rfl⟩
instance : Shallow .valueFromInitializer := ⟨rfl⟩
instance : Shallow .tooManyModuleVariables := ⟨rfl⟩
instance : Shallow .arrayRedefined := ⟨rfl⟩
instance (problem : ScopeProblem) : Shallow (.scope problem) := ⟨rfl⟩
instance (name : String) : Shallow (.capture name) := ⟨rfl⟩
instance : Shallow .thisOutsideClass := ⟨rfl⟩
instance (reached : ChunkLimit) : Shallow (.limit reached) := ⟨rfl⟩

end CompileProblem.Shallow

/--
Whether an instruction means the same wherever it is appended.  What a return gives and what
is attached as a method depends on the instructions before it, and a jump has a target.
-/
def Instruction.standsAlone : Instruction → Bool
  | leave | method _ | jump _ | jumpIfFalse _ | loop _ => false
  | _ => true

/-- An instruction that means the same wherever it is appended. -/
class Instruction.StandsAlone (instruction : Instruction) : Prop where
  alone : instruction.standsAlone = true

/-- Whether an instruction assigns a variable of the module. -/
def Instruction.assignsModule : Instruction → Bool
  | setModule _ | defineModule _ => true
  | _ => false

/-- An instruction that stands alone and assigns no variable of the module. -/
class Instruction.Unassigning (instruction : Instruction) : Prop where
  alone : instruction.standsAlone = true
  unassigning : instruction.assignsModule = false

namespace Instruction.Unassigning

instance : Unassigning .pushNull := ⟨rfl, rfl⟩
instance : Unassigning .pop := ⟨rfl, rfl⟩
instance : Unassigning .print := ⟨rfl, rfl⟩
instance : Unassigning .getIndex := ⟨rfl, rfl⟩
instance : Unassigning .setIndex := ⟨rfl, rfl⟩
instance (index : UInt8) : Unassigning (.constant index) := ⟨rfl, rfl⟩
instance (index : UInt16) : Unassigning (.constantLong index) := ⟨rfl, rfl⟩
instance (slot : UInt8) : Unassigning (.getLocal slot) := ⟨rfl, rfl⟩
instance (slot : UInt16) : Unassigning (.getModule slot) := ⟨rfl, rfl⟩
instance (count : UInt8) : Unassigning (.call count) := ⟨rfl, rfl⟩
instance (index : UInt16) (count : UInt8) : Unassigning (.invoke index count) := ⟨rfl, rfl⟩
instance (index : UInt16) : Unassigning (.makeClass index) := ⟨rfl, rfl⟩
instance (index : UInt16) : Unassigning (.getProperty index) := ⟨rfl, rfl⟩
instance (index : UInt16) : Unassigning (.setProperty index) := ⟨rfl, rfl⟩
instance (index : UInt16) : Unassigning (.importModule index) := ⟨rfl, rfl⟩

instance (operator : UnaryOperator) : Unassigning operator.instruction := by
  cases operator <;> exact ⟨rfl, rfl⟩

instance (reference : Compiler.Reference) : Unassigning reference.read := by
  cases reference <;> exact ⟨rfl, rfl⟩

end Instruction.Unassigning

namespace Instruction.StandsAlone

instance of_unassigning
    {instruction : Instruction}
    [unassigning : instruction.Unassigning] :
    StandsAlone instruction :=
  ⟨unassigning.alone⟩

instance (slot : UInt16) : StandsAlone (.defineModule slot) := ⟨rfl⟩

instance (reference : Compiler.Reference) : StandsAlone reference.write := by
  cases reference <;> exact ⟨rfl⟩

end Instruction.StandsAlone

theorem BinaryOperator.unassigning_of_mem
    {operator : BinaryOperator}
    {instruction : Instruction}
    (member : instruction ∈ operator.instructions) :
    instruction.Unassigning := by
  have alone : operator.instructions.all Instruction.standsAlone = true := by
    cases operator <;> rfl
  have unassigning : operator.instructions.all (!·.assignsModule) = true := by
    cases operator <;> rfl
  exact ⟨List.all_eq_true.mp alone instruction member,
    by simpa using List.all_eq_true.mp unassigning instruction member⟩

/-- A form whose instruction, if it consists of one, stands alone and assigns no variable. -/
class LeadingForm.Unassigning (form : LeadingForm) : Prop where
  literal : ∀ instruction, form = .literal instruction → instruction.Unassigning

theorem TokenKind.unassigning_of_leading
    {kind : TokenKind}
    {form : LeadingForm}
    (leads : kind.leading? = some form) :
    form.Unassigning := by
  constructor
  rintro instruction rfl
  unfold leading? at leads
  split at leads <;> cases leads <;> exact ⟨rfl, rfl⟩

namespace Compiler

/-- What a step can do: the state before it, its problem if it fails, and the state after it. -/
abbrev Effect := Compilation → Option CompileProblem → Compilation → Prop

/-- The problem of an outcome. -/
def problem? : Except CompileError α → Option CompileProblem
  | .ok _ => none
  | .error error => some error.problem

/-- The instruction that pushes the value of a return without one. -/
def returnedDefault (role : Role) : Instruction :=
  if role = .initializer then .getLocal 0 else .pushNull

theorem emitReturn_eq :
    emitReturn = (do
      emit (returnedDefault (← look (·.draft.role)))
      emit .leave) := by
  unfold emitReturn returnedDefault
  refine bind_congr fun role => ?_
  split <;> rfl

/-- An effect that sequences pass on. -/
class Effect.Composable (effect : Effect) : Prop where
  nothing : ∀ state, effect state none state
  andThen :
    ∀ {before between after : Compilation} {problem : Option CompileProblem},
      effect before none between → effect between problem after → effect before problem after

/--
An effect that sequences pass on and that the primitive steps have which do not assign
variables of the module.
-/
class Effect.Guarded (effect : Effect) : Prop extends effect.Composable where
  advance : ∀ state, effect state none state.advance
  stop : ∀ state (problem : CompileProblem), problem.isTooDeep = false →
    effect state (some problem) state
  emit : ∀ state (instruction : Instruction), instruction.Unassigning →
    effect state none
      { state with
        draft :=
          { state.draft with
            chunk := state.draft.chunk.emit instruction state.previous.line } }
  emitReturn : ∀ state, effect state none (emitReturn state).2
  constant : ∀ state value,
    effect state none
      { state with
        draft :=
          { state.draft with chunk := (state.draft.chunk.addConstant (.ofValue value)).2 } }
  redraft : ∀ state draft, draft.chunk = state.draft.chunk → draft.role = state.draft.role →
    effect state none { state with draft }
  declare : ∀ state name, effect state none { state with table := (state.table.declare name).2 }

/-- An effect that the primitive steps have and that sequences pass on. -/
class Effect.Sequential (effect : Effect) : Prop extends effect.Composable where
  advance : ∀ state, effect state none state.advance
  stop : ∀ state (problem : CompileProblem), problem.isTooDeep = false →
    effect state (some problem) state
  /-- An instruction is appended that comes from the token that was read last. -/
  emit : ∀ state (instruction : Instruction), instruction.StandsAlone →
    effect state none
      { state with
        draft :=
          { state.draft with
            chunk := state.draft.chunk.emit instruction state.previous.line } }
  emitReturn : ∀ state, effect state none (emitReturn state).2
  constant : ∀ state value,
    effect state none
      { state with
        draft :=
          { state.draft with chunk := (state.draft.chunk.addConstant (.ofValue value)).2 } }
  /-- What is known about the present function changes, but not its code and its role. -/
  redraft : ∀ state draft, draft.chunk = state.draft.chunk → draft.role = state.draft.role →
    effect state none { state with draft }
  declare : ∀ state name, effect state none { state with table := (state.table.declare name).2 }

/-- A step that has an effect in every state. -/
class Has (effect : Effect) (step : Compiler α) : Prop where
  has : ∀ state, effect state (problem? (step state).1) (step state).2

namespace Has

section Composable

variable {effect : Effect} [composable : effect.Composable]

instance bind
    {first : Compiler α}
    {next : α → Compiler β}
    [start : Has effect first]
    [rest : ∀ value, Has effect (next value)] :
    Has effect (first >>= next) := by
  constructor
  intro state
  show
    effect state (problem? (StateT.bind first (ExceptT.bindCont next) state).1)
      (StateT.bind first (ExceptT.bindCont next) state).2
  have earlier := start.has state
  unfold StateT.bind
  rcases outcome : first state with ⟨error | value, between⟩
  · rw [outcome] at earlier
    exact earlier
  · rw [outcome] at earlier
    exact composable.andThen earlier ((rest value).has between)

instance pure (value : α) : Has effect (pure value : Compiler α) :=
  ⟨composable.nothing⟩

instance choice
    {condition : Prop}
    [Decidable condition]
    {first second : Compiler α}
    [Has effect first]
    [Has effect second] :
    Has effect (if condition then first else second) := by
  split <;> infer_instance

instance look (view : Compilation → α) : Has effect (look view) :=
  ⟨composable.nothing⟩

end Composable

section Guarded

variable {effect : Effect} [guarded : effect.Guarded]

/-- A step that changes what is known about the present function, but not its code. -/
theorem of_redraft
    {step : Compiler α}
    (redrafts :
      ∀ state, ∃ value draft,
        step state = (.ok value, { state with draft }) ∧
          draft.chunk = state.draft.chunk ∧ draft.role = state.draft.role) :
    Has effect step := by
  constructor
  intro state
  rcases redrafts state with ⟨value, draft, outcome, sameChunk, sameRole⟩
  rw [outcome]
  exact guarded.redraft state draft sameChunk sameRole

/-! ## Tokens -/

omit guarded in
/-- What follows a look at a token has to be examined only for the forms that tokens begin. -/
theorem lookLeading
    {next : Option LeadingForm → Compiler β}
    (nothing : Has effect (next none))
    (rest : ∀ form, form.Unassigning → Has effect (next (some form))) :
    Has effect (Compiler.look (·.previous.kind.leading?) >>= next) := by
  constructor
  intro state
  show
    effect state (problem? (next state.previous.kind.leading? state).1)
      (next state.previous.kind.leading? state).2
  rcases leads : state.previous.kind.leading? with _ | form
  · exact nothing.has state
  · exact (rest form (TokenKind.unassigning_of_leading leads)).has state

instance fail (problem : CompileProblem) [shallow : problem.Shallow] :
    Has effect (fail problem : Compiler α) :=
  ⟨fun state => guarded.stop state problem shallow.shallow⟩

instance failAtCurrent (problem : CompileProblem) [shallow : problem.Shallow] :
    Has effect (failAtCurrent problem : Compiler α) :=
  ⟨fun state => guarded.stop state problem shallow.shallow⟩

instance advance : Has effect advance :=
  ⟨guarded.advance⟩

instance matchKind (test : TokenKind → Bool) : Has effect (matchKind test) := by
  unfold Compiler.matchKind
  infer_instance

instance matchMark (mark : Punctuation) : Has effect (matchMark mark) :=
  matchKind _

instance matchWord (word : Keyword) : Has effect (matchWord word) :=
  matchKind _

instance atMark (mark : Punctuation) : Has effect (atMark mark) :=
  look _

instance atEnd : Has effect atEnd :=
  look _

instance consume (mark : Punctuation) (what : String) : Has effect (consume mark what) := by
  unfold Compiler.consume
  infer_instance

instance consumeIdentifier (what : String) : Has effect (consumeIdentifier what) := by
  unfold Compiler.consumeIdentifier
  refine @bind _ _ _ _ _ _ _ fun kind => ?_
  split <;> infer_instance

instance repeatAtMost
    {round : α → Compiler (Bool × α)}
    [∀ value, Has effect (round value)]
    (bound : Nat)
    (start : α) :
    Has effect (repeatAtMost round bound start) := by
  induction bound generalizing start with
  | zero => exact pure start
  | succ bound induction =>
      unfold Compiler.repeatAtMost
      infer_instance

instance repeatWhile
    {round : α → Compiler (Bool × α)}
    [∀ value, Has effect (round value)]
    (start : α) :
    Has effect (repeatWhile round start) :=
  ⟨fun state => (repeatAtMost (state.remaining + 1) start).has state⟩

/-! ## Code -/

instance emit (instruction : Instruction) [unassigning : instruction.Unassigning] :
    Has effect (emit instruction) :=
  ⟨fun state => guarded.emit state instruction unassigning⟩

theorem emitAll
    (instructions : List Instruction)
    (unassigning : ∀ instruction ∈ instructions, instruction.Unassigning) :
    Has effect (emitAll instructions) := by
  induction instructions with
  | nil => exact pure ()
  | cons instruction rest induction =>
      have first := unassigning instruction List.mem_cons_self
      have others := induction fun other member =>
        unassigning other (List.mem_cons_of_mem _ member)
      show Has effect (Compiler.emit instruction >>= fun _ => Compiler.emitAll rest)
      infer_instance

/-- A change of the code that can run into a limit. -/
theorem limitedChunk
    {step : Chunk → Except ChunkLimit α × Chunk}
    (changes :
      ∀ state : Compilation,
        effect state none
          { state with draft := { state.draft with chunk := (step state.draft.chunk).2 } }) :
    Has effect (limitedChunk step) := by
  unfold Compiler.limitedChunk
  refine @bind _ _ _ _ _ _ ⟨changes⟩ fun result => ?_
  split <;> infer_instance

instance codeSize : Has effect codeSize :=
  look _

instance constantIndex (value : Value) : Has effect (constantIndex value) :=
  limitedChunk fun state => guarded.constant state value

instance nameIndex (name : String) : Has effect (nameIndex name) := by
  unfold Compiler.nameIndex
  infer_instance

instance emitConstant (value : Value) : Has effect (emitConstant value) := by
  unfold Compiler.emitConstant
  infer_instance

instance emitReturn : Has effect emitReturn := by
  constructor
  intro state
  have succeeds : problem? (Compiler.emitReturn state).1 = none := by
    rw [emitReturn_eq]
    rfl
  rw [succeeds]
  exact guarded.emitReturn state

instance changeScope (step : Scope → Scope) : Has effect (changeScope step) :=
  of_redraft fun _ => ⟨_, _, rfl, rfl, rfl⟩

instance enterBlock : Has effect enterBlock :=
  changeScope _

instance leaveBlock : Has effect leaveBlock := by
  unfold Compiler.leaveBlock
  refine @bind _ _ _ _ _ _ (of_redraft fun _ => ⟨_, _, rfl, rfl, rfl⟩) fun count => ?_
  exact emitAll _ fun instruction member => List.eq_of_mem_replicate member ▸ inferInstance

/-! ## Names -/

instance moduleSlot (name : String) : Has effect (moduleSlot name) := by
  unfold Compiler.moduleSlot
  refine @bind _ _ _ _ _ _ ⟨fun state => guarded.declare state name⟩ fun slot? => ?_
  split <;> infer_instance

instance checkWritable (slot : Nat) : Has effect (checkWritable slot) := by
  unfold Compiler.checkWritable
  infer_instance

instance declareLocal (name : String) : Has effect (declareLocal name) := by
  unfold Compiler.declareLocal
  refine @bind _ _ _ _ _ _ _ fun result => ?_
  split <;> infer_instance

instance declareVariable (name : String) : Has effect (declareVariable name) := by
  unfold Compiler.declareVariable Compiler.atModuleLevel
  infer_instance

instance resolve (name : String) : Has effect (resolve name) := by
  unfold Compiler.resolve
  refine @bind _ _ _ _ _ _ _ fun result => ?_
  split <;> infer_instance

instance referenceCheckWritable (reference : Reference) :
    Has effect reference.checkWritable := by
  cases reference with
  | moduleSlot slot => exact checkWritable slot
  | localSlot slot => exact pure ()

/-! ## Expressions -/

section Expressions

variable {operand : OperandCompiler} [∀ least, Has effect (operand least)]

instance whole : Has effect (whole operand) := by
  unfold Compiler.whole
  infer_instance

instance commaSeparated
    {afterEach : Nat → Compiler Unit}
    [∀ count, Has effect (afterEach count)] :
    Has effect (commaSeparated operand afterEach) := by
  unfold Compiler.commaSeparated
  infer_instance

instance argumentList : Has effect (argumentList operand) := by
  unfold Compiler.argumentList
  infer_instance

instance grouping : Has effect (grouping operand) := by
  unfold Compiler.grouping
  infer_instance

instance arrayLiteral : Has effect (arrayLiteral operand) := by
  unfold Compiler.arrayLiteral
  infer_instance

instance receiver : Has effect receiver := by
  unfold Compiler.receiver
  infer_instance

instance property (canAssign : Bool) : Has effect (property operand canAssign) := by
  unfold Compiler.property
  infer_instance

instance subscript (canAssign : Bool) : Has effect (subscript operand canAssign) := by
  unfold Compiler.subscript
  infer_instance

end Expressions

/-! ## Statements and declarations -/

section Statements

variable
  {inner : Inner}
  [∀ least, Has effect (inner.operand least)]
  [∀ form, Has effect (inner.code form)]

instance expression : Has effect inner.expression :=
  whole

instance statement : Has effect inner.statement := by
  unfold Inner.statement
  infer_instance

instance block : Has effect inner.block := by
  unfold Inner.block
  infer_instance

instance parameter : Has effect Inner.parameter := by
  have counted :
      Has effect
        (Compiler.change fun state =>
          { state with draft := { state.draft with arity := state.draft.arity + 1 } }) :=
    of_redraft fun _ => ⟨_, _, rfl, rfl, rfl⟩
  unfold Inner.parameter
  infer_instance

instance printStatement : Has effect inner.printStatement := by
  unfold Inner.printStatement
  infer_instance

instance expressionStatement : Has effect inner.expressionStatement := by
  unfold Inner.expressionStatement
  infer_instance

instance evaluatedStatement
    (levels : Nat)
    [∀ least, Has effect (expressionWithin levels least)] :
    Has effect (evaluatedStatement levels) := by
  unfold Compiler.evaluatedStatement
  infer_instance

end Statements

end Guarded

section Sequential

variable {effect : Effect} [sequential : effect.Sequential]

instance guarded_of_sequential : effect.Guarded where
  advance := sequential.advance
  stop := sequential.stop
  emit state instruction unassigning := sequential.emit state instruction ⟨unassigning.alone⟩
  emitReturn := sequential.emitReturn
  constant := sequential.constant
  redraft := sequential.redraft
  declare := sequential.declare

/-! ## Assignments to variables of the module -/

instance emitAlone (instruction : Instruction) [alone : instruction.StandsAlone] :
    Has effect (Compiler.emit instruction) :=
  ⟨fun state => sequential.emit state instruction alone⟩

instance defineVariable (binding : Binding) : Has effect (defineVariable binding) := by
  cases binding with
  | moduleSlot slot => exact emitAlone _
  | newLocal => exact changeScope _

instance namedVariable
    {operand : OperandCompiler}
    [∀ least, Has effect (operand least)]
    (name : String)
    (canAssign : Bool) :
    Has effect (namedVariable operand name canAssign) := by
  unfold Compiler.namedVariable
  infer_instance

instance importedVariable (moduleIndex : UInt16) :
    Has effect (Inner.importedVariable moduleIndex) := by
  unfold Inner.importedVariable
  infer_instance

instance importDeclaration : Has effect Inner.importDeclaration := by
  unfold Inner.importDeclaration
  refine @bind _ _ _ _ _ _ _ fun kind => ?_
  split <;> infer_instance

section Statements

variable
  {inner : Inner}
  [∀ least, Has effect (inner.operand least)]

instance variableDeclaration : Has effect inner.variableDeclaration := by
  unfold Inner.variableDeclaration
  infer_instance

instance forInitializer : Has effect inner.forInitializer := by
  unfold Inner.forInitializer
  infer_instance

end Statements

end Sequential

end Has

/-! ## Jumps, functions, returns and methods -/

/--
An effect that also the routines have that write jumps, begin functions, return or attach
methods.
-/
class Effect.Structured (effect : Effect) : Prop extends effect.Sequential where
  conjunction :
    ∀ {operand : OperandCompiler},
      (∀ least, Has effect (operand least)) → Has effect (conjunction operand)
  disjunction :
    ∀ {operand : OperandCompiler},
      (∀ least, Has effect (operand least)) → Has effect (disjunction operand)
  ifStatement :
    ∀ {inner : Inner},
      (∀ least, Has effect (inner.operand least)) →
      (∀ form, Has effect (inner.code form)) → Has effect inner.ifStatement
  whileStatement :
    ∀ {inner : Inner},
      (∀ least, Has effect (inner.operand least)) →
      (∀ form, Has effect (inner.code form)) → Has effect inner.whileStatement
  forStatement :
    ∀ {inner : Inner},
      (∀ least, Has effect (inner.operand least)) →
      (∀ form, Has effect (inner.code form)) → Has effect inner.forStatement
  function :
    ∀ {inner : Inner},
      (∀ least, Has effect (inner.operand least)) →
      (∀ form, Has effect (inner.code form)) →
        ∀ name role, Has effect (inner.function name role)
  method :
    ∀ {inner : Inner},
      (∀ least, Has effect (inner.operand least)) →
      (∀ form, Has effect (inner.code form)) → Has effect inner.method
  returnStatement :
    ∀ {inner : Inner},
      (∀ least, Has effect (inner.operand least)) → Has effect inner.returnStatement

/--
A guarded effect that also the routines have that assign variables of the module, write jumps,
begin functions or return.
-/
class Effect.Complete (effect : Effect) : Prop extends effect.Guarded where
  namedVariable :
    ∀ {operand : OperandCompiler},
      (∀ least, Has effect (operand least)) →
        ∀ name canAssign, Has effect (namedVariable operand name canAssign)
  conjunction :
    ∀ {operand : OperandCompiler},
      (∀ least, Has effect (operand least)) → Has effect (conjunction operand)
  disjunction :
    ∀ {operand : OperandCompiler},
      (∀ least, Has effect (operand least)) → Has effect (disjunction operand)
  classDeclaration :
    ∀ {inner : Inner},
      (∀ least, Has effect (inner.operand least)) →
      (∀ form, Has effect (inner.code form)) → Has effect inner.classDeclaration
  functionDeclaration :
    ∀ {inner : Inner},
      (∀ least, Has effect (inner.operand least)) →
      (∀ form, Has effect (inner.code form)) → Has effect inner.functionDeclaration
  variableDeclaration :
    ∀ {inner : Inner},
      (∀ least, Has effect (inner.operand least)) → Has effect inner.variableDeclaration
  importDeclaration : Has effect Inner.importDeclaration
  ifStatement :
    ∀ {inner : Inner},
      (∀ least, Has effect (inner.operand least)) →
      (∀ form, Has effect (inner.code form)) → Has effect inner.ifStatement
  whileStatement :
    ∀ {inner : Inner},
      (∀ least, Has effect (inner.operand least)) →
      (∀ form, Has effect (inner.code form)) → Has effect inner.whileStatement
  forStatement :
    ∀ {inner : Inner},
      (∀ least, Has effect (inner.operand least)) →
      (∀ form, Has effect (inner.code form)) → Has effect inner.forStatement
  returnStatement :
    ∀ {inner : Inner},
      (∀ least, Has effect (inner.operand least)) → Has effect inner.returnStatement

namespace Has

section Structured

variable
  {effect : Effect}
  [structured : effect.Structured]
  {inner : Inner}
  [operands : ∀ least, Has effect (inner.operand least)]
  [code : ∀ form, Has effect (inner.code form)]

instance function (name : String) (role : Role) : Has effect (inner.function name role) :=
  structured.function operands code name role

instance method : Has effect inner.method :=
  structured.method operands code

instance classDeclaration : Has effect inner.classDeclaration := by
  unfold Inner.classDeclaration
  infer_instance

instance functionDeclaration : Has effect inner.functionDeclaration := by
  unfold Inner.functionDeclaration
  infer_instance

omit operands code in
instance complete_of_structured : effect.Complete where
  namedVariable _ name canAssign := namedVariable name canAssign
  conjunction := structured.conjunction
  disjunction := structured.disjunction
  classDeclaration _ _ := classDeclaration
  functionDeclaration _ _ := functionDeclaration
  variableDeclaration _ := variableDeclaration
  importDeclaration := importDeclaration
  ifStatement := structured.ifStatement
  whileStatement := structured.whileStatement
  forStatement := structured.forStatement
  returnStatement := structured.returnStatement

end Structured

/-! ## All routines -/

section Complete

variable {effect : Effect} [complete : effect.Complete]

section Expressions

variable {operand : OperandCompiler} [operands : ∀ least, Has effect (operand least)]

instance conjunction : Has effect (conjunction operand) :=
  complete.conjunction operands

instance disjunction : Has effect (disjunction operand) :=
  complete.disjunction operands

instance leadingForm
    (canAssign : Bool)
    (form : LeadingForm)
    [proper : form.Unassigning] :
    Has effect (leadingForm operand canAssign form) := by
  cases form <;> unfold Compiler.leadingForm
  case literal instruction =>
    have unassigning := proper.literal instruction rfl
    infer_instance
  case named name => exact complete.namedVariable operands name _
  all_goals infer_instance

instance trailingForm (canAssign : Bool) (form : TrailingForm) :
    Has effect (trailingForm operand canAssign form) := by
  cases form <;> unfold Compiler.trailingForm
  case binary operator =>
    refine @bind _ _ _ _ _ _ (operands _) fun _ => ?_
    exact emitAll _ fun instruction => BinaryOperator.unassigning_of_mem
  all_goals infer_instance

/-- The forms after an operand, one in every round. -/
instance trailingRound (canAssign : Bool) (least : Precedence) :
    Has effect
      (do
        match ← nextTrailing? least with
        | none => return (false, ())
        | some form =>
          Compiler.advance
          Compiler.trailingForm operand canAssign form
          return (true, ())) := by
  refine @bind _ _ _ _ _ _ (look _) fun form? => ?_
  split <;> infer_instance

instance operators (least : Precedence) : Has effect (operators operand least) := by
  unfold Compiler.operators
  exact @bind _ _ _ _ _ _ _ fun _ => lookLeading inferInstance fun form proper => inferInstance

end Expressions

section Statements

variable
  {inner : Inner}
  [operands : ∀ least, Has effect (inner.operand least)]
  [code : ∀ form, Has effect (inner.code form)]

instance ifStatement : Has effect inner.ifStatement :=
  complete.ifStatement operands code

instance whileStatement : Has effect inner.whileStatement :=
  complete.whileStatement operands code

instance forStatement : Has effect inner.forStatement :=
  complete.forStatement operands code

omit code in
instance returnStatement : Has effect inner.returnStatement :=
  complete.returnStatement operands

instance body (form : CodeForm) : Has effect (inner.body form) := by
  cases form <;> unfold Inner.body
  · have classes := complete.classDeclaration operands code
    have functions := complete.functionDeclaration operands code
    have variableDeclarations := complete.variableDeclaration operands
    have imports := complete.importDeclaration
    unfold Inner.declarationBody
    infer_instance
  · unfold Inner.statementBody
    infer_instance

end Statements

instance topLevel
    {levels : Nat}
    [∀ least, Has effect (expressionWithin levels least)]
    [∀ form, Has effect (codeWithin levels form)]
    [∀ line, Has effect (emitOn line .pop)]
    (mode : CompileMode)
    (pending : Option Nat) :
    Has effect (topLevel levels mode pending) := by
  unfold Compiler.topLevel Compiler.atExpressionStatement
  cases pending <;> infer_instance

end Complete

end Has

/-! ## Effects of steps one by one -/

/-- An effect that the primitive steps have, whatever instruction is appended. -/
class Effect.Uniform (effect : Effect) : Prop where
  nothing : ∀ state, effect state none state
  andThen :
    ∀ {before between after : Compilation} {problem : Option CompileProblem},
      effect before none between → effect between problem after → effect before problem after
  advance : ∀ state, effect state none state.advance
  stop : ∀ state (problem : CompileProblem), problem.isTooDeep = false →
    effect state (some problem) state
  emit : ∀ state (instruction : Instruction),
    effect state none
      { state with
        draft :=
          { state.draft with
            chunk := state.draft.chunk.emit instruction state.previous.line } }
  constant : ∀ state value,
    effect state none
      { state with
        draft :=
          { state.draft with chunk := (state.draft.chunk.addConstant (.ofValue value)).2 } }
  redraft : ∀ state draft, draft.chunk = state.draft.chunk → effect state none { state with draft }
  declare : ∀ state name, effect state none { state with table := (state.table.declare name).2 }

namespace Has

variable {effect : Effect} [uniform : effect.Uniform]

instance sequential_of_uniform : effect.Sequential where
  nothing := uniform.nothing
  andThen := uniform.andThen
  advance := uniform.advance
  stop := uniform.stop
  emit state instruction _ := uniform.emit state instruction
  emitReturn state := by
    rw [emitReturn_eq]
    exact uniform.andThen (uniform.emit state _) (uniform.emit _ .leave)
  constant := uniform.constant
  redraft state draft same _ := uniform.redraft state draft same
  declare := uniform.declare

instance emitAny (instruction : Instruction) : Has effect (Compiler.emit instruction) :=
  ⟨fun state => uniform.emit state instruction⟩

end Has

/--
An effect that also the steps have that write a jump, begin a function or finish one, each
of them by itself.
-/
class Effect.Stepwise (effect : Effect) : Prop extends effect.Uniform where
  emitJump : ∀ operation, Has effect (emitJump operation)
  patchJump : ∀ pending, Has effect (patchJump pending)
  emitLoop : ∀ start, Has effect (emitLoop start)
  beginFunction : ∀ name role, Has effect (beginFunction name role)
  finishFunction : Has effect finishFunction

namespace Has

variable {effect : Effect} [stepwise : effect.Stepwise]

instance emitJump (operation : Opcode) : Has effect (emitJump operation) :=
  stepwise.emitJump operation

instance patchJump (pending : PendingJump) : Has effect (patchJump pending) :=
  stepwise.patchJump pending

instance emitLoop (start : Nat) : Has effect (emitLoop start) :=
  stepwise.emitLoop start

instance beginFunction (name : String) (role : Role) : Has effect (beginFunction name role) :=
  stepwise.beginFunction name role

instance finishFunction : Has effect finishFunction :=
  stepwise.finishFunction

section Clauses

variable
  {inner : Inner}
  [∀ least, Has effect (inner.operand least)]
  [∀ form, Has effect (inner.code form)]

instance forCondition : Has effect inner.forCondition := by
  unfold Inner.forCondition
  infer_instance

instance forIncrement (start : Nat) : Has effect (inner.forIncrement start) := by
  unfold Inner.forIncrement
  infer_instance

end Clauses

instance structured_of_stepwise : effect.Structured where
  conjunction operands := by
    unfold Compiler.conjunction
    infer_instance
  disjunction operands := by
    unfold Compiler.disjunction
    infer_instance
  ifStatement operands code := by
    unfold Inner.ifStatement
    infer_instance
  whileStatement operands code := by
    unfold Inner.whileStatement
    infer_instance
  forStatement operands code := by
    unfold Inner.forStatement
    refine @bind _ _ _ _ _ _ _ fun _ => @bind _ _ _ _ _ _ _ fun _ => @bind _ _ _ _ _ _ _ fun _ =>
      @bind _ _ _ _ _ _ _ fun start => @bind _ _ _ _ _ _ _ fun leave? => ?_
    cases leave? <;> infer_instance
  function operands code name role := by
    unfold Inner.function
    infer_instance
  method operands code := by
    unfold Inner.method Inner.function
    infer_instance
  returnStatement operands := by
    unfold Inner.returnStatement
    infer_instance

end Has

/-! ## Effects that say nothing about the code -/

/-- An effect that all changes of the functions have that are being compiled. -/
class Effect.Lawful (effect : Effect) : Prop where
  nothing : ∀ state, effect state none state
  andThen :
    ∀ {before between after : Compilation} {problem : Option CompileProblem},
      effect before none between → effect between problem after → effect before problem after
  advance : ∀ state, effect state none state.advance
  stop : ∀ state (problem : CompileProblem), problem.isTooDeep = false →
    effect state (some problem) state
  write : ∀ state draft enclosing, effect state none { state with draft, enclosing }
  declare : ∀ state name, effect state none { state with table := (state.table.declare name).2 }
  finish : ∀ state, effect state none (finishFunction state).2

namespace Has

variable {effect : Effect} [lawful : effect.Lawful]

instance uniform_of_lawful : effect.Uniform where
  nothing := lawful.nothing
  andThen := lawful.andThen
  advance := lawful.advance
  stop := lawful.stop
  emit state _ := lawful.write state _ _
  constant state _ := lawful.write state _ _
  redraft state draft _ := lawful.write state draft _
  declare := lawful.declare

/-- A step that changes only the functions that have been begun. -/
theorem of_writes
    {step : Compiler α}
    (writes :
      ∀ state, ∃ value draft enclosing,
        step state = (.ok value, { state with draft, enclosing })) :
    Has effect step := by
  constructor
  intro state
  rcases writes state with ⟨value, draft, enclosing, outcome⟩
  rw [outcome]
  exact lawful.write state draft enclosing

instance stepwise_of_lawful : effect.Stepwise where
  emitJump operation := by
    unfold Compiler.emitJump
    exact @bind _ _ _ _ _ _ _ fun _ => of_writes fun _ => ⟨_, _, _, rfl⟩
  patchJump pending := limitedChunk fun state => lawful.write state _ _
  emitLoop start := by
    unfold Compiler.emitLoop
    exact @bind _ _ _ _ _ _ _ fun _ => limitedChunk fun state => lawful.write state _ _
  beginFunction name role := of_writes fun _ => ⟨_, _, _, rfl⟩
  finishFunction := by
    constructor
    intro state
    have finished := lawful.finish state
    have succeeds : problem? (Compiler.finishFunction state).1 = none := by
      unfold Compiler.finishFunction
      simp only
      split <;> rfl
    rw [succeeds]
    exact finished

instance emitOn (line : Nat) (instruction : Instruction) : Has effect (emitOn line instruction) :=
  of_writes fun _ => ⟨_, _, _, rfl⟩

instance script
    {levels : Nat}
    [∀ least, Has effect (expressionWithin levels least)]
    [∀ form, Has effect (codeWithin levels form)]
    (mode : CompileMode) :
    Has effect (script levels mode) := by
  unfold Compiler.script
  infer_instance

end Has

end Compiler

end ScriptEngine
