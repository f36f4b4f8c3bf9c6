import ScriptEngine.Proofs.Compiler.Following

/-!
# Every routine that is observed follows its routine of the compiler

One instance of `Observed.Follows` for every routine, in the order in which the compiler
defines them, then the recursion and whole texts (`Observed.script_follows`).
-/

set_option synthInstance.maxSize 100000

namespace ScriptEngine.Observed

open Compiler (Reference CodeForm OperandCompiler Inner Has Paces maxNesting)

namespace Follows

variable
  {relation : Session.Relation}
  [steps : Session.Steps relation]
  {depth : Nat}

/-! ## Tokens -/

instance advance : Follows relation depth advance Compiler.advance :=
  observe _

instance matchKind (test : TokenKind → Bool) :
    Follows relation depth (matchKind test) (Compiler.matchKind test) := by
  unfold Observed.matchKind Compiler.matchKind
  infer_instance

instance matchMark (mark : Punctuation) :
    Follows relation depth (matchMark mark) (Compiler.matchMark mark) :=
  matchKind _

instance matchWord (word : Keyword) :
    Follows relation depth (matchWord word) (Compiler.matchWord word) :=
  matchKind _

instance atMark (mark : Punctuation) :
    Follows relation depth (atMark mark) (Compiler.atMark mark) :=
  observe _

instance atEnd : Follows relation depth atEnd Compiler.atEnd :=
  observe _

instance consume (mark : Punctuation) (what : String) :
    Follows relation depth (consume mark what) (Compiler.consume mark what) := by
  unfold Observed.consume Compiler.consume
  infer_instance

instance consumeIdentifier (what : String) :
    Follows relation depth (consumeIdentifier what) (Compiler.consumeIdentifier what) := by
  unfold Observed.consumeIdentifier Compiler.consumeIdentifier
  refine @bind _ _ _ _ _ _ _ _ _ _ fun kind => ?_
  cases kind with
  | identifier name => exact @bind _ _ _ _ _ _ _ _ _ _ fun _ => pure name
  | _ => exact observe _

instance emit (instruction : Instruction) :
    Follows relation depth (emit instruction) (Compiler.emit instruction) :=
  observe _

/-! ## Blocks, functions and declarations -/

/-- Leaving a block does not fail. -/
theorem leaveBlock_succeeds (state : Compilation) :
    (Compiler.leaveBlock state).1 = .ok () := by
  have all (count : Nat) (state : Compilation) :
      (Compiler.emitAll (List.replicate count .pop) state).1 = .ok () := by
    induction count generalizing state with
    | zero => rfl
    | succ count induction => exact induction _
  exact all _ _

/-- Finishing a function does not fail. -/
theorem finishFunction_succeeds (state : Compilation) :
    ∃ id, (Compiler.finishFunction state).1 = .ok id := by
  unfold Compiler.finishFunction
  simp only
  split <;> exact ⟨_, rfl⟩

section Passages

variable {relations : Session.Relations} [passage : Session.Passage relations]

/-- What declares nothing is a routine as any other. -/
instance (priority := low) weaken
    {observed : Observed α}
    {plain : Compiler α}
    [follows : Follows relations.steady depth observed plain] :
    Follows relations.passes depth observed plain := by
  constructor
  intro session atDepth rounds enough
  rcases follows.follows session atDepth rounds enough with
    ⟨after, runs, state, sameDepth, fewer, passed⟩
  exact ⟨after, runs, state, sameDepth, fewer, passage.weaken passed⟩

instance inBlock
    {routine : Observed Unit}
    {plain : Compiler Unit}
    [inside : Follows relations.passes depth routine plain] :
    Follows relations.steady depth (inBlock routine) (do
      Compiler.enterBlock
      plain
      Compiler.leaveBlock) := by
  constructor
  rintro session rfl
  exact between rfl (fun state => ⟨(), leaveBlock_succeeds state⟩) inside
    fun _ _ => passage.block

instance inFunction
    (name : String)
    (role : Role)
    {routine : Observed Unit}
    {plain : Compiler Unit}
    [inside : Follows relations.passes depth routine plain] :
    Follows relations.steady depth (inFunction name role routine) (do
      (do
        Compiler.beginFunction name role
        Compiler.enterBlock)
      plain
      Compiler.finishFunction) := by
  constructor
  rintro session rfl
  exact between rfl finishFunction_succeeds inside fun _ _ => passage.function name role

theorem declaringLocal
    (name : String)
    {initializer : Observed Unit}
    {plain : Compiler Unit}
    (inside : Follows relations.steady depth initializer plain) :
    Follows relations.passes depth (declaringLocal name initializer) (do
      Compiler.declareLocal name
      plain
      Compiler.changeScope Scope.markInitialized) := by
  constructor
  rintro session rfl
  rcases outcome : (Compiler.declareLocal name session.state).1 with error | _
  · intro rounds _
    have observed :
        record (fun outcome => .localDeclaration name (Compiler.problem? outcome))
            (Compiler.declareLocal name) rounds session =
          some (.error error, session.declaringLocal name) := by
      show some ((Compiler.declareLocal name session.state).1, session.declaringLocal name) = _
      rw [outcome]
    have refused :
        Compiler.declareLocal name session.state =
          (.error error, (session.declaringLocal name).state) :=
      Prod.ext outcome rfl
    rw [Compiler.bind_of_error refused]
    have paces : Has (Paces 0 0) (Compiler.declareLocal name) := inferInstance
    exact ⟨_, bind_of_error observed, rfl, rfl,
      Compiler.remaining_le_of_paces (paces.has session.state),
        passage.refuse session name error outcome⟩
  · refine between outcome (fun _ => ⟨(), rfl⟩) inside fun problem after passed => ?_
    refine passage.declare name outcome ?_
    unfold Session.declaringLocal
    rw [outcome]
    exact passed

instance declaring
    (name : String)
    {initializer : Observed Unit}
    {plain : Compiler Unit}
    [inside : Follows relations.steady depth initializer plain] :
    Follows relations.passes depth (declaring name initializer) (do
      let binding ← Compiler.declareVariable name
      plain
      Compiler.defineVariable binding) := by
  have grouped :
      (do
        let binding ← Compiler.declareVariable name
        plain
        Compiler.defineVariable binding) = (do
      if ← Compiler.atModuleLevel then
        let slot ← Compiler.moduleSlot name
        Compiler.checkWritable slot
        plain
        Compiler.emit (.defineModule (UInt16.ofNat slot))
      else
        Compiler.declareLocal name
        plain
        Compiler.changeScope Scope.markInitialized) := by
    unfold Compiler.declareVariable
    simp only [bind_assoc]
    refine bind_congr fun isModule => ?_
    split <;> simp only [bind_assoc, pure_bind] <;> rfl
  rw [grouped]
  constructor
  intro session atDepth
  refine (observe Compiler.atModuleLevel).follows session atDepth |>.bind ?_
  intro between isModule same sameDepth
  have unchanged : session.state = between.state := (Prod.mk.inj same).2
  rw [unchanged] at same
  cases isModule with
  | true =>
      have level := congrArg Prod.fst same
      refine FollowsFrom.bind (of_record (passage.declareInModule between name level)) ?_
      intro last slot _ depthAfter
      have rest :
          Follows relations.passes depth
            (do
              Observed.observe (Compiler.checkWritable slot)
              initializer
              Observed.emit (.defineModule (UInt16.ofNat slot)))
            (do
              Compiler.checkWritable slot
              plain
              Compiler.emit (.defineModule (UInt16.ofNat slot))) :=
        inferInstance
      exact rest.follows last (depthAfter.trans (sameDepth.trans atDepth))
  | false => exact (declaringLocal name inside).follows between (sameDepth.trans atDepth)

/-- A declaration that other steps follow. -/
instance declaringThen
    (name : String)
    {initializer : Observed Unit}
    {plain : Compiler Unit}
    {next : Unit → Observed α}
    {plainNext : Unit → Compiler α}
    [inside : Follows relations.steady depth initializer plain]
    [rest : ∀ value, Follows relations.passes depth (next value) (plainNext value)] :
    Follows relations.passes depth (Observed.declaring name initializer >>= next) (do
      let binding ← Compiler.declareVariable name
      plain
      let value ← Compiler.defineVariable binding
      plainNext value) := by
  have grouped :
      (do
        let binding ← Compiler.declareVariable name
        plain
        let value ← Compiler.defineVariable binding
        plainNext value) =
        (do
          let binding ← Compiler.declareVariable name
          plain
          Compiler.defineVariable binding) >>= plainNext := by
    simp only [bind_assoc]
  rw [grouped]
  infer_instance

end Passages

/-! ## Rounds that read a token -/

/-- Unless the input has ended, a step reads a token if it succeeds. -/
structure ReadsToken (step : Compiler α) : Prop where
  reads :
    ∀ {state after : Compilation} {result : α},
      ¬ state.current.kind.isEnd → step state = (.ok result, after) →
        after.remaining < state.remaining

theorem readsToken_advance
    {next : Unit → Compiler α}
    (paces : Has (Paces 0 2) (next ())) :
    ReadsToken (Compiler.advance >>= next) := by
  constructor
  intro state after result unfinished succeeds
  have passed := paces.has state.advance
  have continues : next () state.advance = (.ok result, after) := succeeds
  rw [continues] at passed
  exact Nat.lt_of_le_of_lt (Compiler.remaining_le_of_paces passed)
    (Compiler.remaining_advance unfinished)

theorem readsToken_bind
    {first : Compiler α}
    {next : α → Compiler β}
    (reads : ReadsToken first)
    (paces : ∀ value, Has (Paces 0 2) (next value)) :
    ReadsToken (first >>= next) := by
  constructor
  intro state after result unfinished succeeds
  rcases Compiler.exists_of_bind_ok succeeds with ⟨value, between, runs, continues⟩
  have passed := (paces value).has between
  rw [continues] at passed
  exact Nat.lt_of_le_of_lt (Compiler.remaining_le_of_paces passed) (reads.reads unfinished runs)

theorem readsToken_matchKind
    {test : TokenKind → Bool}
    {found otherwise : Compiler α}
    (paces : Has (Paces 0 2) found)
    (reads : ReadsToken otherwise) :
    ReadsToken
      (Compiler.matchKind test >>= fun isFound => if isFound then found else otherwise) := by
  constructor
  intro state after result unfinished succeeds
  rcases Compiler.exists_of_bind_ok succeeds with ⟨isFound, between, matched, continues⟩
  rw [Compiler.matchKind_apply] at matched
  split at matched
  · cases matched
    have passed := paces.has state.advance
    rw [show found state.advance = (.ok result, after) from continues] at passed
    exact Nat.lt_of_le_of_lt (Compiler.remaining_le_of_paces passed)
      (Compiler.remaining_advance unfinished)
  · cases matched
    exact reads.reads unfinished continues

instance readsAfter
    {step : Compiler α}
    {next : α → Compiler (Bool × β)}
    [paces : Has (Paces 0 2) step]
    [rest : ∀ value, Reads (next value)] :
    Reads (step >>= next) := by
  constructor
  intro state after result goesOn
  rcases Compiler.exists_of_bind_ok goesOn with ⟨value, between, runs, continues⟩
  have first := paces.has state
  rw [runs] at first
  exact Nat.lt_of_lt_of_le ((rest value).reads continues) (Compiler.remaining_le_of_paces first)

instance readsMark (mark : Punctuation) (value : α) :
    Reads (do return (← Compiler.matchMark mark, value)) := by
  constructor
  intro state after result goesOn
  rcases Compiler.exists_of_bind_ok goesOn with ⟨found, between, matched, continues⟩
  cases continues
  change Compiler.matchKind _ state = _ at matched
  rw [Compiler.matchKind_apply] at matched
  split at matched
  · rename_i present
    cases matched
    refine Compiler.remaining_advance fun ended => ?_
    cases kind : state.current.kind with
    | endOfInput =>
        rw [kind] at present
        cases present
    | _ =>
        rw [kind] at ended
        cases ended
  · cases matched

instance readsNothing (value : α) : Reads (Pure.pure (false, value)) :=
  ⟨nofun⟩

/-! ## Expressions -/

section Expressions

variable
  {operand : Operand}
  {plain : OperandCompiler}
  [operands : ∀ least, Follows relation depth (operand least) (plain least)]
  [paces : ∀ least, Has (Paces 0 2) (plain least)]

instance whole : Follows relation depth (whole operand) (Compiler.whole plain) :=
  operands _

instance commaSeparated
    {afterEach : Nat → Compiler Unit}
    [∀ count, Has Compiler.Stays (afterEach count)]
    [∀ count, Has (Paces 0 2) (afterEach count)] :
    Follows relation depth (commaSeparated operand afterEach)
      (Compiler.commaSeparated plain afterEach) := by
  unfold Observed.commaSeparated Compiler.commaSeparated
  infer_instance

instance argumentList :
    Follows relation depth (argumentList operand) (Compiler.argumentList plain) := by
  unfold Observed.argumentList Compiler.argumentList
  infer_instance

omit paces in
instance grouping : Follows relation depth (grouping operand) (Compiler.grouping plain) := by
  unfold Observed.grouping Compiler.grouping
  infer_instance

instance arrayLiteral :
    Follows relation depth (arrayLiteral operand) (Compiler.arrayLiteral plain) := by
  unfold Observed.arrayLiteral Compiler.arrayLiteral
  infer_instance

omit paces in
instance namedVariable (name : String) (canAssign : Bool) :
    Follows relation depth (namedVariable operand name canAssign)
      (Compiler.namedVariable plain name canAssign) := by
  unfold Observed.namedVariable Compiler.namedVariable
  infer_instance

instance leadingForm (canAssign : Bool) (form : LeadingForm) :
    Follows relation depth (leadingForm operand canAssign form)
      (Compiler.leadingForm plain canAssign form) := by
  cases form <;> unfold Observed.leadingForm Compiler.leadingForm <;> infer_instance

omit paces in
instance conjunction :
    Follows relation depth (conjunction operand) (Compiler.conjunction plain) := by
  unfold Observed.conjunction Compiler.conjunction
  infer_instance

omit paces in
instance disjunction :
    Follows relation depth (disjunction operand) (Compiler.disjunction plain) := by
  unfold Observed.disjunction Compiler.disjunction
  infer_instance

instance property (canAssign : Bool) :
    Follows relation depth (property operand canAssign) (Compiler.property plain canAssign) := by
  unfold Observed.property Compiler.property
  infer_instance

omit paces in
instance subscript (canAssign : Bool) :
    Follows relation depth (subscript operand canAssign) (Compiler.subscript plain canAssign) := by
  unfold Observed.subscript Compiler.subscript
  infer_instance

instance trailingForm (canAssign : Bool) (form : TrailingForm) :
    Follows relation depth (trailingForm operand canAssign form)
      (Compiler.trailingForm plain canAssign form) := by
  cases form <;> unfold Observed.trailingForm Compiler.trailingForm <;> infer_instance

omit operands in
/-- No form after an operand begins with the end of the input, so its first token is read. -/
theorem readsTrailing (canAssign : Bool) (least : Precedence) :
    Reads (do
      match ← Compiler.nextTrailing? least with
      | none => return (false, ())
      | some form =>
        Compiler.advance
        Compiler.trailingForm plain canAssign form
        return (true, ())) := by
  constructor
  intro state after result goesOn
  rcases Compiler.exists_of_bind_ok goesOn with ⟨form?, _, same, continues⟩
  cases form? with
  | none => cases continues
  | some form =>
      rcases Prod.mk.inj same with ⟨found, rfl⟩
      have tightEnough := Except.ok.inj found
      have unfinished : ¬ state.current.kind.isEnd := by
        intro ended
        have nothing : state.current.kind.trailing? = none := by
          cases kind : state.current.kind with
          | endOfInput => rfl
          | _ =>
              rw [kind] at ended
              cases ended
        simp only [nothing] at tightEnough
        cases tightEnough
      have rest :
          Has (Paces 0 2) (do
            Compiler.trailingForm plain canAssign form
            return (true, ())) :=
        inferInstance
      exact (readsToken_advance rest).reads unfinished continues

instance operators (least : Precedence) :
    Follows relation depth (operators operand least) (Compiler.operators plain least) := by
  unfold Observed.operators Compiler.operators
  refine @bind _ _ _ _ _ _ _ _ _ advance fun _ =>
    @bind _ _ _ _ _ _ _ _ _ (observe _) fun leading? => ?_
  cases leading? with
  | none => exact observe _
  | some form =>
      have trailing :
          Follows relation depth
            (Observed.loop (fun _ => do
              match ← Observed.observe (Compiler.nextTrailing? least) with
              | none => return (false, ())
              | some form =>
                Observed.advance
                Observed.trailingForm operand (decide (least = .assignment)) form
                return (true, ())) ())
            (Compiler.repeatWhile (fun _ => do
              match ← Compiler.nextTrailing? least with
              | none => return (false, ())
              | some form =>
                Compiler.advance
                Compiler.trailingForm plain (decide (least = .assignment)) form
                return (true, ())) ()) := by
        refine @loop _ _ _ _ _ _ (fun _ => @bind _ _ _ _ _ _ _ _ _ (observe _) fun form? => ?_)
          (fun _ => ?_) _
        · cases form? with
          | none => exact pure _
          | some form => infer_instance
        · exact readsTrailing _ _
      infer_instance

end Expressions

/-! ## Statements and declarations -/

/-- A round that goes on unless a closing brace or the end of the input is next. -/
theorem readsUnlessClosed
    {step : Compiler Unit}
    (reads : ReadsToken step) :
    Reads (do
      if (← Compiler.atMark .rightBrace) || (← Compiler.atEnd) then
        return (false, ())
      else
        step
        return (true, ())) := by
  constructor
  intro state after result goesOn
  by_cases closed : (state.current.kind.isMark .rightBrace || state.current.kind.isEnd) = true
  · change (if _ then _ else _ : Compiler _) state = _ at goesOn
    rw [if_pos closed] at goesOn
    cases goesOn
  · change (if _ then _ else _ : Compiler _) state = _ at goesOn
    rw [if_neg closed] at goesOn
    rcases Compiler.exists_of_bind_ok goesOn with ⟨_, between, runs, continues⟩
    cases continues
    refine reads.reads (fun ended => closed ?_) runs
    rw [ended, Bool.or_true]

/-- A declaration reads a token unless the input has ended. -/
class ReadsDeclarations (inner : Inner) : Prop where
  declaration : ReadsToken (inner.code .declaration)

section Statements

variable {relations : Session.Relations} [passage : Session.Passage relations]

instance parameter : Follows relations.passes depth Inside.parameter Inner.parameter := by
  unfold Inside.parameter Inner.parameter
  have counted :
      Has Compiler.Stays
        (Compiler.change fun state =>
          { state with draft := { state.draft with arity := state.draft.arity + 1 } }) :=
    ⟨fun _ => .of_draft _ rfl rfl⟩
  have declares (name : String) :
      Follows relations.passes depth (Observed.declaringLocal name (return ())) (do
        Compiler.declareLocal name
        Compiler.changeScope Scope.markInitialized) :=
    declaringLocal name (pure () : Follows relations.steady depth (return ()) (return ()))
  infer_instance

instance importedVariable (moduleIndex : UInt16) :
    Follows relations.passes depth (Inside.importedVariable moduleIndex)
      (Inner.importedVariable moduleIndex) := by
  unfold Inside.importedVariable Inner.importedVariable
  refine @bind _ _ _ _ _ _ _ _ _ inferInstance fun name =>
    @bind _ _ _ _ _ _ _ _ _ inferInstance fun index => ?_
  have declares :
      Follows relations.passes depth
        (Observed.declaring name do
          Observed.emit (.importModule moduleIndex)
          Observed.emit (.getProperty index))
        (do
          let binding ← Compiler.declareVariable name
          (do
            Compiler.emit (.importModule moduleIndex)
            Compiler.emit (.getProperty index))
          Compiler.defineVariable binding) :=
    declaring name
  simpa only [bind_assoc] using declares

instance importDeclaration :
    Follows relations.passes depth Inside.importDeclaration Inner.importDeclaration := by
  unfold Inside.importDeclaration Inner.importDeclaration
  refine @bind _ _ _ _ _ _ _ _ _ (observe _) fun kind => ?_
  cases kind with
  | string moduleName =>
      refine @bind _ _ _ _ _ _ _ _ _ advance fun _ => ?_
      infer_instance
  | _ => exact observe _

variable
  {inside : Inside}
  {inner : Inner}
  [operands : ∀ least, Follows relations.steady depth (inside.operand least) (inner.operand least)]
  [statements : Follows relations.steady depth (inside.code .statement) (inner.code .statement)]
  [declarations : Follows relations.passes depth (inside.code .declaration)
    (inner.code .declaration)]
  [operandPaces : ∀ least, Has (Paces 0 2) (inner.operand least)]
  [codePaces : ∀ form, Has (Paces 0 2) (inner.code form)]
  [reads : ReadsDeclarations inner]

instance expression : Follows relations.steady depth inside.expression inner.expression :=
  whole

instance statement : Follows relations.steady depth inside.statement inner.statement :=
  statements

instance block : Follows relations.passes depth inside.block inner.block := by
  unfold Inside.block Inner.block
  have rounds := readsUnlessClosed reads.declaration
  infer_instance

instance function (name : String) (role : Role) :
    Follows relations.steady depth (inside.function name role) (inner.function name role) := by
  unfold Inside.function
  have grouped :
      inner.function name role = (do
        let id ← (do
          (do
            Compiler.beginFunction name role
            Compiler.enterBlock)
          (do
            Compiler.consume .leftParen "'(' after function name"
            unless ← Compiler.atMark .rightParen do
              Compiler.repeatWhile (fun _ => do
                Inner.parameter
                return (← Compiler.matchMark .comma, ())) ()
            Compiler.consume .rightParen "')' after parameters"
            Compiler.consume .leftBrace "'\x7b' before function body"
            inner.block
            Compiler.emitReturn)
          Compiler.finishFunction)
        Compiler.emitConstant (.function id)) := by
    unfold Inner.function
    simp only [bind_assoc]
    refine bind_congr fun _ => bind_congr fun _ => bind_congr fun _ => bind_congr fun closed => ?_
    split <;> simp only [bind_assoc]
  rw [grouped]
  infer_instance

instance method : Follows relations.steady depth inside.method inner.method := by
  unfold Inside.method Inner.method
  infer_instance

omit operandPaces codePaces reads in
/-- An identifier is not the end of the input. -/
theorem consumeIdentifier_reads
    {what name : String}
    {state after : Compilation}
    (succeeds : Compiler.consumeIdentifier what state = (.ok name, after)) :
    after.remaining < state.remaining := by
  rcases Compiler.consumeIdentifier_eq_ok succeeds with ⟨kind, rfl⟩
  exact Compiler.remaining_advance (by rw [kind]; exact Bool.false_ne_true)

omit reads in
/-- A method has a name. -/
theorem method_reads : ReadsToken inner.method := by
  constructor
  intro state after _ _ succeeds
  rcases Compiler.exists_of_bind_ok succeeds with ⟨isStatic, between, matched, continues⟩
  have first : Has (Paces 0 2) (Compiler.matchWord .staticWord) := inferInstance
  have reached := first.has state
  rw [matched] at reached
  refine Nat.lt_of_lt_of_le ?_ (Compiler.remaining_le_of_paces reached)
  rcases Compiler.exists_of_bind_ok continues with ⟨name, named, consumed, rest⟩
  have others :
      Has (Paces 0 2) (do
        let index ← Compiler.nameIndex name
        inner.function name (Inner.methodRole isStatic name)
        Compiler.emit (if isStatic then .staticMethod index else .method index)) :=
    inferInstance
  have passed := others.has named
  rw [rest] at passed
  refine Nat.lt_of_le_of_lt (Compiler.remaining_le_of_paces passed) ?_
  exact consumeIdentifier_reads consumed

instance classDeclaration :
    Follows relations.passes depth inside.classDeclaration inner.classDeclaration := by
  unfold Inside.classDeclaration Inner.classDeclaration
  have rounds := readsUnlessClosed (method_reads : ReadsToken inner.method)
  infer_instance

instance functionDeclaration :
    Follows relations.passes depth inside.functionDeclaration inner.functionDeclaration := by
  unfold Inside.functionDeclaration Inner.functionDeclaration
  infer_instance

instance variableDeclaration :
    Follows relations.passes depth inside.variableDeclaration inner.variableDeclaration := by
  unfold Inside.variableDeclaration
  have grouped :
      inner.variableDeclaration = (do
        let name ← Compiler.consumeIdentifier "variable name"
        let binding ← Compiler.declareVariable name
        (do
          if ← Compiler.matchMark .equal then
            inner.expression
          else
            Compiler.emit .pushNull
          Compiler.consume .semicolon "';' after variable declaration")
        Compiler.defineVariable binding) := by
    unfold Inner.variableDeclaration
    simp only [bind_assoc]
    refine bind_congr fun name => bind_congr fun binding => bind_congr fun isGiven => ?_
    split <;> simp only [bind_assoc]
  rw [grouped]
  infer_instance

instance printStatement :
    Follows relations.steady depth inside.printStatement inner.printStatement := by
  unfold Inside.printStatement Inner.printStatement
  infer_instance

instance expressionStatement :
    Follows relations.steady depth inside.expressionStatement inner.expressionStatement := by
  unfold Inside.expressionStatement Inner.expressionStatement
  infer_instance

instance ifStatement : Follows relations.steady depth inside.ifStatement inner.ifStatement := by
  unfold Inside.ifStatement Inner.ifStatement
  infer_instance

instance whileStatement :
    Follows relations.steady depth inside.whileStatement inner.whileStatement := by
  unfold Inside.whileStatement Inner.whileStatement
  infer_instance

instance forInitializer :
    Follows relations.passes depth inside.forInitializer inner.forInitializer := by
  unfold Inside.forInitializer Inner.forInitializer
  infer_instance

instance forCondition : Follows relations.steady depth inside.forCondition inner.forCondition := by
  unfold Inside.forCondition Inner.forCondition
  infer_instance

instance forIncrement (start : Nat) :
    Follows relations.steady depth (inside.forIncrement start) (inner.forIncrement start) := by
  unfold Inside.forIncrement Inner.forIncrement
  infer_instance

instance forStatement : Follows relations.steady depth inside.forStatement inner.forStatement := by
  unfold Inside.forStatement
  have grouped :
      inner.forStatement = (do
        Compiler.enterBlock
        (do
          Compiler.consume .leftParen "'(' after 'for'"
          inner.forInitializer
          let start ← Compiler.codeSize
          let leave? ← inner.forCondition
          let again ← inner.forIncrement start
          inner.statement
          Compiler.emitLoop again
          match leave? with
          | none => Pure.pure ()
          | some leave => do
            Compiler.patchJump leave
            Compiler.emit .pop)
        Compiler.leaveBlock) := by
    unfold Inner.forStatement
    simp only [bind_assoc]
    refine bind_congr fun _ => bind_congr fun _ => bind_congr fun _ => bind_congr fun start =>
      bind_congr fun leave? => ?_
    cases leave? <;> simp only [bind_assoc, pure_bind]
  rw [grouped]
  refine @inBlock _ _ _ _ _ (@bind _ _ _ _ _ _ _ _ _ inferInstance fun _ =>
    @bind _ _ _ _ _ _ _ _ _ inferInstance fun _ => @bind _ _ _ _ _ _ _ _ _ inferInstance fun _ =>
      @bind _ _ _ _ _ _ _ _ _ inferInstance fun leave? => ?_)
  cases leave? <;> infer_instance

instance returnStatement :
    Follows relations.steady depth inside.returnStatement inner.returnStatement := by
  unfold Inside.returnStatement Inner.returnStatement
  infer_instance

instance declarationBody :
    Follows relations.passes depth inside.declarationBody inner.declarationBody := by
  unfold Inside.declarationBody Inner.declarationBody
  infer_instance

instance statementBody :
    Follows relations.steady depth inside.statementBody inner.statementBody := by
  unfold Inside.statementBody Inner.statementBody
  infer_instance

end Statements

/-! ## The recursion -/

instance expression_paces (levels : Nat) (least : Precedence) :
    Has (Paces 0 2) (Compiler.expressionWithin levels least) :=
  (Compiler.expressionWithin_paces levels least).weaken (by omega)

instance code_paces (levels : Nat) (form : CodeForm) :
    Has (Paces 0 2) (Compiler.codeWithin levels form) := by
  refine (Compiler.codeWithin_paces levels form).weaken ?_
  cases form <;> simp only [CodeForm.opened] <;> omega

/-- An operand reads a token. -/
theorem expression_reads (levels : Nat) (least : Precedence) :
    ReadsToken (Compiler.expressionWithin levels least) := by
  cases levels with
  | zero => exact ⟨by rintro _ _ _ _ ⟨⟩⟩
  | succ levels =>
      refine readsToken_advance (?_ : Has (Paces 0 2) _)
      exact Has.lookLeading inferInstance fun form proper => inferInstance

/-- Code reads a token. -/
theorem code_reads (levels : Nat) (form : CodeForm) :
    ReadsToken (Compiler.codeWithin levels form) := by
  induction levels generalizing form with
  | zero => exact ⟨by rintro _ _ _ _ ⟨⟩⟩
  | succ levels induction =>
      unfold Compiler.codeWithin
      generalize isInner :
        ({ operand := Compiler.expressionWithin levels, code := Compiler.codeWithin levels } :
          Inner) =
          inner
      have operands (least : Precedence) : Has (Paces 0 2) (inner.operand least) := by
        rw [← isInner]
        infer_instance
      have codes (form : CodeForm) : Has (Paces 0 2) (inner.code form) := by
        rw [← isInner]
        infer_instance
      cases form with
      | declaration =>
          have statement : ReadsToken inner.statement := by
            rw [← isInner]
            exact induction .statement
          unfold Inner.body Inner.declarationBody
          refine readsToken_matchKind inferInstance (readsToken_matchKind inferInstance ?_)
          exact readsToken_matchKind inferInstance (readsToken_matchKind inferInstance statement)
      | statement =>
          have expression : ReadsToken inner.expression := by
            rw [← isInner]
            exact expression_reads levels .assignment
          have block :
              Has (Paces 0 2) (do
                Compiler.enterBlock
                inner.block
                Compiler.leaveBlock) :=
            inferInstance
          have rest : ReadsToken inner.expressionStatement :=
            readsToken_bind expression fun _ => inferInstance
          unfold Inner.body Inner.statementBody
          refine readsToken_matchKind inferInstance (readsToken_matchKind inferInstance ?_)
          refine readsToken_matchKind inferInstance (readsToken_matchKind inferInstance ?_)
          exact readsToken_matchKind inferInstance (readsToken_matchKind block rest)

/-- An operand follows the compiler with as many levels as the counter has left. -/
theorem expressionAfter
    (calls : Nat)
    {depth : Nat}
    (enough : maxNesting - depth < calls)
    (least : Precedence) :
    Follows relation depth (expressionAfter calls least)
      (Compiler.expressionWithin (maxNesting - depth) least) := by
  induction calls generalizing depth least with
  | zero => exact absurd enough (Nat.not_lt_zero _)
  | succ calls induction =>
      unfold Observed.expressionAfter
      rcases Nat.lt_or_ge depth maxNesting with room | full
      · have inside := fun least => induction (by omega : maxNesting - (depth + 1) < calls) least
        have levels : maxNesting - depth = maxNesting - (depth + 1) + 1 := by omega
        rw [levels]
        exact nested room (operators least)
      · rw [Nat.sub_eq_zero_of_le full]
        exact nested_refused full

section Texts

variable {relations : Session.Relations} [passage : Session.Passage relations]

/-- Code follows the compiler with as many levels as the counter has left. -/
theorem codeAfter
    (calls : Nat)
    {depth : Nat}
    (enough : maxNesting - depth < calls) :
    Follows relations.steady depth (codeAfter calls .statement)
        (Compiler.codeWithin (maxNesting - depth) .statement) ∧
      Follows relations.passes depth (codeAfter calls .declaration)
        (Compiler.codeWithin (maxNesting - depth) .declaration) := by
  induction calls generalizing depth with
  | zero => exact absurd enough (Nat.not_lt_zero _)
  | succ calls induction =>
      unfold Observed.codeAfter
      rcases Nat.lt_or_ge depth maxNesting with room | full
      · have fewer : maxNesting - (depth + 1) < calls := by omega
        rcases induction fewer with ⟨statements, declarations⟩
        have operands (least : Precedence) :
            Follows relations.steady (depth + 1) (Observed.expressionAfter calls least)
              (Compiler.expressionWithin (maxNesting - (depth + 1)) least) :=
          expressionAfter calls fewer least
        have levels : maxNesting - depth = maxNesting - (depth + 1) + 1 := by omega
        rw [levels]
        have reads :
            ReadsDeclarations
              { operand := Compiler.expressionWithin (maxNesting - (depth + 1))
                code := Compiler.codeWithin (maxNesting - (depth + 1)) } :=
          ⟨code_reads _ _⟩
        exact ⟨nested room statementBody, nested room declarationBody⟩
      · rw [Nat.sub_eq_zero_of_le full]
        exact ⟨nested_refused full, nested_refused full⟩

/-! ## Whole texts -/

theorem evaluatedStatement
    {calls : Nat}
    (enough : maxNesting - 0 < calls) :
    Follows relations.passes 0 (evaluatedStatement calls)
      (Compiler.evaluatedStatement maxNesting) := by
  have operands (least : Precedence) :
      Follows relations.passes 0 (Observed.expressionAfter calls least)
        (Compiler.expressionWithin maxNesting least) :=
    expressionAfter calls enough least
  unfold Observed.evaluatedStatement Compiler.evaluatedStatement
  infer_instance

/-- A statement or declaration of a text reads a token. -/
instance topLevel_reads (levels : Nat) (mode : CompileMode) (pending : Option Nat) :
    Reads (Compiler.topLevel levels mode pending) := by
  constructor
  intro state after result goesOn
  by_cases ended : state.current.kind.isEnd = true
  · change (if _ then _ else _ : Compiler _) state = _ at goesOn
    rw [if_pos ended] at goesOn
    cases goesOn
  · change (if _ then _ else _ : Compiler _) state = _ at goesOn
    rw [if_neg ended] at goesOn
    have evaluated :
        ReadsToken (do return (true, some (← Compiler.evaluatedStatement levels))) := by
      refine readsToken_bind (readsToken_bind (expression_reads levels _) fun _ => ?_) fun _ => ?_
      · infer_instance
      · infer_instance
    have declared :
        ReadsToken (do
          Compiler.codeWithin levels .declaration
          return (true, (none : Option Nat))) :=
      readsToken_bind (code_reads levels _) fun _ => inferInstance
    have rest :
        ReadsToken (do
          if mode = .eval ∧ (← Compiler.atExpressionStatement) then
            return (true, some (← Compiler.evaluatedStatement levels))
          else
            Compiler.codeWithin levels .declaration
            return (true, none)) := by
      constructor
      intro state after result unfinished succeeds
      rcases Compiler.exists_of_bind_ok succeeds with ⟨isExpression, _, looks, continues⟩
      cases looks
      split at continues
      · exact evaluated.reads unfinished continues
      · exact declared.reads unfinished continues
    cases pending with
    | none => exact rest.reads ended goesOn
    | some line =>
        -- That a value is dropped first does not change the place in the text.
        rcases Compiler.exists_of_bind_ok goesOn with ⟨_, _, drops, continues⟩
        cases drops
        exact Nat.lt_of_lt_of_le (rest.reads (by exact ended) continues) (Nat.le_refl _)

theorem topLevel
    {calls : Nat}
    (enough : maxNesting - 0 < calls)
    (mode : CompileMode)
    (pending : Option Nat) :
    Follows relations.passes 0 (topLevel calls mode pending)
      (Compiler.topLevel maxNesting mode pending) := by
  have code :
      Follows relations.passes 0 (Observed.codeAfter calls .declaration)
        (Compiler.codeWithin maxNesting .declaration) :=
    (codeAfter calls enough).2
  have evaluated :
      Follows relations.passes 0 (Observed.evaluatedStatement calls)
        (Compiler.evaluatedStatement maxNesting) :=
    evaluatedStatement enough
  unfold Observed.topLevel Compiler.topLevel
  cases pending <;> infer_instance

end Texts

end Follows

/--
A text that is observed ends with the outcome of the compiler.  What routines pass on holds up
to the end of the code, and if there was no error, the function of the text is finished then.
-/
theorem script_follows
    (relations : Session.Relations)
    [passage : Session.Passage relations]
    {calls rounds : Nat}
    (mode : CompileMode)
    {session : Session}
    (top : session.depth = 0)
    (enoughCalls : maxNesting < calls)
    (enoughRounds : session.state.remaining < rounds) :
    ∃ outcome written after,
      script calls mode rounds session = some (outcome, after) ∧
        Compiler.script maxNesting mode session.state = (outcome, after.state) ∧
        relations.passes session (Compiler.problem? outcome) written ∧
        written.depth = 0 ∧
        after = if (Compiler.problem? outcome).isSome then written else written.ending := by
  have topLevels (pending : Option Nat) :
      Follows relations.passes 0 (Observed.topLevel calls mode pending) _ :=
    .topLevel enoughCalls mode pending
  let plain : Compiler Unit := do
    let pending ← Compiler.repeatWhile (Compiler.topLevel maxNesting mode) none
    if pending.isSome then
      Compiler.emit .leave
    else
      Compiler.emitReturn
  have code : Follows relations.passes 0 (textCode calls mode) plain := by
    unfold textCode
    infer_instance
  have parts :
      Compiler.script maxNesting mode = (do
        plain
        let _ ← Compiler.finishFunction) := by
    simp only [Compiler.script, plain, bind_assoc]
    refine bind_congr fun pending => ?_
    split <;> rfl
  rcases code.follows session top rounds enoughRounds with ⟨written, runs, state, depth, -, passed⟩
  rw [parts]
  unfold script
  rcases outcome : plain session.state with ⟨error | value, reached⟩
  · rw [outcome] at runs state passed
    change written.state = reached at state
    subst state
    rw [bind_of_error runs, Compiler.bind_of_error outcome]
    exact ⟨_, written, written, rfl, rfl, passed, depth.trans top, rfl⟩
  · rw [outcome] at runs state passed
    change written.state = reached at state
    subst state
    rw [bind_of_ok runs, Compiler.bind_of_ok outcome]
    rcases Follows.finishFunction_succeeds written.state with ⟨id, finishes⟩
    have ends :
        (do let _ ← Compiler.finishFunction : Compiler Unit) written.state =
          (.ok (), written.ending.state) :=
      Compiler.bind_of_ok (Prod.ext finishes rfl)
    refine ⟨.ok (), written, written.ending, ?_, ends, passed, depth.trans top, rfl⟩
    show some (_, written.reach _) = _
    rw [ends]
    rfl

end ScriptEngine.Observed
