import ScriptEngine.Proofs.Compiler.Echo
import ScriptEngine.Proofs.Compiler.Verification

/-!
# Evaluation mode against run mode

A text that compiles in run mode compiles in evaluation mode.  In run mode an
expression statement is compiled two levels deeper and its value is popped at once; in
evaluation mode it is popped when something follows it.  Between two statements the
two compilations are therefore in step once the value that may still be on the stack
has been popped (`Compiler.topLevel_evaluates`).

At the end of the text the body returns that value in evaluation mode and null in run
mode, and this is the only difference (`compile_evaluates`).
-/

namespace ScriptEngine

/-- Whether an expression statement can begin with the token: it begins nothing else. -/
def TokenKind.beginsExpression (kind : TokenKind) : Bool :=
  !kind.startsStatement && !kind.isMark .leftBrace

theorem TokenKind.isWord_of_not_startsStatement
    {kind : TokenKind}
    {word : Keyword}
    (other : kind.startsStatement = false)
    (starts : word.startsStatement = true) :
    kind.isWord word = false := by
  cases kind with
  | keyword found =>
      apply beq_eq_false_iff_ne.mpr
      rintro rfl
      cases other.symm.trans starts
  | _ => rfl

/-- The state without the value that an expression statement has left on the stack. -/
def Compilation.dropping (state : Compilation) : Option Nat → Compilation
  | none => state
  | some line => state.withChunk (state.draft.chunk.emit .pop line)

namespace Compiler

open Compilation

/-! ## Expression statements -/

/-- What begins with no other word and no brace is compiled as an expression statement. -/
theorem codeWithin_of_beginsExpression
    {levels : Nat}
    {state after : Compilation}
    (begins : state.current.kind.beginsExpression = true)
    (compiles : codeWithin levels .declaration state = (.ok (), after)) :
    ∃ less ≤ levels,
      Inner.expressionStatement { operand := expressionWithin less, code := codeWithin less }
        state = (.ok (), after) := by
  rcases Bool.and_eq_true_iff.mp begins with ⟨noWord, noBrace⟩
  have brace : TokenKind.isMark .leftBrace state.current.kind = false :=
    Bool.not_eq_eq_eq_not.mp noBrace
  have declines :
      ∀ {word : Keyword} {chosen others : Compiler Unit},
        word.startsStatement = true →
          (do
            if ← matchWord word then
              chosen
            else
              others : Compiler Unit) state = others state := by
    intro word chosen others starts
    apply bind_matchKind_of_not
    exact TokenKind.isWord_of_not_startsStatement (Bool.not_eq_eq_eq_not.mp noWord) starts
  cases levels with
  | zero => cases compiles
  | succ levels =>
      change Inner.declarationBody _ state = _ at compiles
      unfold Inner.declarationBody at compiles
      rw [declines rfl, declines rfl, declines rfl, declines rfl] at compiles
      cases levels with
      | zero => cases compiles
      | succ less =>
          change Inner.statementBody _ state = _ at compiles
          unfold Inner.statementBody at compiles
          rw [declines rfl, declines rfl, declines rfl, declines rfl, declines rfl] at compiles
          unfold matchMark at compiles
          rw [bind_matchKind_of_not brace] at compiles
          exact ⟨less, Nat.le_add_right less 2, compiles⟩

/-- Popping a value leaves compilations in step, whatever lines they give to it. -/
theorem InStep.dropping
    {first second : Compilation}
    (inStep : InStep 0 first second)
    (line other : Nat) :
    InStep 0 (first.withChunk (first.draft.chunk.emit .pop line))
      (second.dropping (some other)) := by
  rcases first with ⟨tokens, position, table, home, draft, enclosing, firstFunction, finished⟩
  rcases second with ⟨_, _, _, _, last, others, _, _⟩
  rcases inStep with ⟨drafts, same⟩
  cases same
  dsimp only at drafts
  cases drafts with
  | outermost draft runs =>
      rcases draft.chunk.emit_withLines runs .pop line other with ⟨later, same⟩
      refine ⟨?_, rfl⟩
      have popped :
          { draft.withLines runs with chunk := (draft.withLines runs).chunk.emit .pop other } =
            Draft.withLines { draft with chunk := draft.chunk.emit .pop line } later :=
        congrArg (fun chunk => { draft with chunk }) same
      show DraftsInStep 0 _ [] { draft.withLines runs with
        chunk := (draft.withLines runs).chunk.emit .pop other } []
      rw [popped]
      exact .outermost _ later

/-- In evaluation mode an expression statement leaves its value, and needs no semicolon. -/
theorem evaluatedStatement_echoes
    {less levels : Nat}
    (room : less ≤ levels)
    {run eval after : Compilation}
    (inStep : InStep 0 run eval)
    (compiles :
      Inner.expressionStatement { operand := expressionWithin less, code := codeWithin less }
        run = (.ok (), after)) :
    ∃ line done,
      evaluatedStatement levels eval = (.ok line, done) ∧
        InStep 0 after (done.dropping (some line)) := by
  rcases exists_of_bind_ok compiles with ⟨_, valued, expression, closes⟩
  rcases exists_of_bind_ok closes with ⟨_, closed, consumes, pops⟩
  rcases consume_eq_ok consumes with ⟨semicolon, rfl⟩
  rcases (Echoes.expressionWithin room 0 .assignment).echo inStep expression with
    ⟨echoed, succeeds, alike⟩
  have evaluates : whole (expressionWithin levels) eval = (.ok (), echoed) := succeeds
  rcases Echoes.advance.echo alike (rfl : advance valued = (.ok (), valued.advance)) with
    ⟨_, ⟨⟩, further⟩
  cases pops
  refine ⟨echoed.previous.line, echoed.advance, ?_, further.dropping _ _⟩
  unfold evaluatedStatement
  have isSemicolon : echoed.current.kind.isMark .semicolon = true := by
    rw [alike.current]
    exact semicolon
  rw [bind_of_ok evaluates]
  show (matchMark .semicolon >>= _) echoed = _
  rw [bind_of_ok (matchMark_of_isMark isSemicolon)]
  rfl

/-! ## The statements of a text -/

theorem atEnd_apply
    {state : Compilation}
    {ended : Bool}
    (isEnd : state.current.kind.isEnd = ended) :
    atEnd state = (.ok ended, state) :=
  congrArg (fun ended => (Except.ok ended, state)) isEnd

/-- One round of `topLevel` in run mode. -/
theorem topLevel_run
    (levels : Nat)
    {state : Compilation}
    (unfinished : state.current.kind.isEnd = false) :
    topLevel levels .run none state =
      (codeWithin levels .declaration >>= fun _ => pure (true, none)) state := by
  unfold topLevel
  rw [bind_of_ok (atEnd_apply unfinished)]
  rfl

theorem topLevel_of_isEnd
    (levels : Nat)
    (mode : CompileMode)
    (pending : Option Nat)
    {state : Compilation}
    (ended : state.current.kind.isEnd = true) :
    topLevel levels mode pending state = (.ok (false, pending), state) := by
  unfold topLevel
  rw [bind_of_ok (atEnd_apply ended)]
  rfl

/-- In evaluation mode the value that is still on the stack is dropped first. -/
theorem topLevel_eval
    (levels : Nat)
    (pending : Option Nat)
    {state : Compilation}
    (unfinished : state.current.kind.isEnd = false) :
    topLevel levels .eval pending state =
      (if (state.dropping pending).current.kind.beginsExpression = true then
        evaluatedStatement levels >>= fun line => pure (true, some line)
      else
        codeWithin levels .declaration >>= fun _ => pure (true, none))
        (state.dropping pending) := by
  unfold topLevel
  rw [bind_of_ok (atEnd_apply unfinished)]
  cases pending with
  | none =>
      show (if CompileMode.eval = .eval ∧ state.current.kind.beginsExpression = true then
        evaluatedStatement levels >>= fun line => pure (true, some line)
      else codeWithin levels .declaration >>= fun _ => pure (true, none)) state = _
      rw [if_congr (and_iff_right rfl) rfl rfl]
      rfl
  | some line =>
      show (if CompileMode.eval = .eval ∧
          (state.dropping (some line)).current.kind.beginsExpression = true then
        evaluatedStatement levels >>= fun line => pure (true, some line)
      else codeWithin levels .declaration >>= fun _ => pure (true, none))
        (state.dropping (some line)) = _
      rw [if_congr (and_iff_right rfl) rfl rfl]

/--
One statement or declaration of a text in run mode; the kind of the token with which it begins.
-/
def opening (levels : Nat) (latest : Option TokenKind) : Compiler (Bool × Option TokenKind) := do
  if ← atEnd then
    return (false, latest)
  else
    let kind ← look (·.current.kind)
    codeWithin levels .declaration
    return (true, some kind)

theorem opening_of_isEnd
    (levels : Nat)
    (latest : Option TokenKind)
    {state : Compilation}
    (ended : state.current.kind.isEnd = true) :
    opening levels latest state = (.ok (false, latest), state) := by
  unfold opening
  rw [bind_of_ok (atEnd_apply ended)]
  rfl

theorem opening_of_not_isEnd
    {levels : Nat}
    (latest : Option TokenKind)
    {state after : Compilation}
    (unfinished : state.current.kind.isEnd = false)
    (compiles : codeWithin levels .declaration state = (.ok (), after)) :
    opening levels latest state = (.ok (true, some state.current.kind), after) := by
  unfold opening
  rw [bind_of_ok (atEnd_apply unfinished)]
  show (codeWithin levels .declaration >>= fun _ => pure (true, some state.current.kind)) state = _
  rw [bind_of_ok compiles]
  rfl

/--
The two compilations between two statements: they are in step once the value that is
still on the stack in evaluation mode has been dropped, and there is one exactly if the
latest statement was an expression.
-/
structure Abreast
    (run eval : Compilation)
    (pending : Option Nat)
    (latest : Option TokenKind) : Prop where
  inStep : InStep 0 run (eval.dropping pending)
  pending : pending.isSome = latest.any TokenKind.beginsExpression

namespace Abreast

variable
  {levels : Nat}
  {run eval after : Compilation}
  {pending : Option Nat}
  {latest : Option TokenKind}

theorem current (abreast : Abreast run eval pending latest) : eval.current = run.current := by
  have same := abreast.inStep.current
  cases pending with
  | none => exact same
  | some line => exact same

/-- A statement that compiles in run mode compiles in evaluation mode. -/
theorem topLevel
    (abreast : Abreast run eval pending latest)
    (unfinished : run.current.kind.isEnd = false)
    (compiles : codeWithin levels .declaration run = (.ok (), after)) :
    ∃ rest done,
      topLevel levels .eval pending eval = (.ok (true, rest), done) ∧
        Abreast after done rest (some run.current.kind) := by
  have alsoUnfinished : eval.current.kind.isEnd = false := by
    rw [abreast.current]
    exact unfinished
  rw [topLevel_eval levels pending alsoUnfinished, abreast.inStep.current]
  split
  · rename_i begins
    rcases codeWithin_of_beginsExpression begins compiles with ⟨less, room, statement⟩
    rcases evaluatedStatement_echoes room abreast.inStep statement with
      ⟨line, done, evaluates, inStep⟩
    refine ⟨some line, done, ?_, inStep, begins.symm⟩
    rw [bind_of_ok evaluates]
    rfl
  · rename_i begins
    rcases (Echoes.codeWithin (Nat.le_refl levels) 0 .declaration).echo abreast.inStep compiles with
      ⟨done, succeeds, inStep⟩
    refine ⟨none, done, ?_, inStep, (Bool.eq_false_of_not_eq_true begins).symm⟩
    rw [bind_of_ok succeeds]
    rfl

/-- Statements that compile in run mode compile in evaluation mode. -/
theorem repeatAtMost
    (bound : Nat)
    {value : Option Nat}
    (abreast : Abreast run eval pending latest)
    (succeeds :
      repeatAtMost (Compiler.topLevel levels .run) bound none run = (.ok value, after)) :
    ∃ rest done last,
      repeatAtMost (Compiler.topLevel levels .eval) bound pending eval = (.ok rest, done) ∧
        repeatAtMost (opening levels) bound latest run = (.ok last, after) ∧
        Abreast after done rest last ∧
        value = none := by
  induction bound generalizing run eval pending latest with
  | zero =>
      cases succeeds
      exact ⟨pending, eval, latest, rfl, rfl, abreast, rfl⟩
  | succ bound induction =>
      rcases exists_of_bind_ok succeeds with ⟨⟨goesOn, result⟩, between, round, continues⟩
      show ∃ rest done last, (Compiler.topLevel levels .eval pending >>= _) eval = _ ∧
        (opening levels latest >>= _) run = _ ∧ _
      cases ended : run.current.kind.isEnd with
      | true =>
          have alsoEnded : eval.current.kind.isEnd = true := by
            rw [abreast.current]
            exact ended
          rw [topLevel_of_isEnd levels .run none ended] at round
          cases round
          cases continues
          rw [bind_of_ok (topLevel_of_isEnd levels .eval pending alsoEnded),
            bind_of_ok (opening_of_isEnd levels latest ended)]
          exact ⟨pending, eval, latest, rfl, rfl, abreast, rfl⟩
      | false =>
          rw [topLevel_run levels ended] at round
          rcases exists_of_bind_ok round with ⟨_, next, compiles, returns⟩
          cases returns
          rcases abreast.topLevel ended compiles with ⟨rest, done, evaluates, further⟩
          rw [bind_of_ok evaluates, bind_of_ok (opening_of_not_isEnd latest ended compiles)]
          exact induction further continues

end Abreast

/-- The kind of the token with which the last statement of a text begins, if there is one. -/
def lastOpening (levels : Nat) : Compiler (Option TokenKind) :=
  repeatWhile (opening levels) none

end Compiler

/-! ## The bodies -/

/-- Functions that differ in nothing but their code and the lines it comes from. -/
structure Function.SameButCode (first second : Function) : Prop where
  name : second.name = first.name
  arity : second.arity = first.arity
  home : second.home = first.home
  pool : second.chunk.pool = first.chunk.pool

/-- The last statement of a source text is an expression statement. -/
def EndsInExpression (source : String) (table : Module) (home firstFunction : Nat) : Prop :=
  ∃ tokens kind final,
    Token.scan source = .ok tokens ∧
      Compiler.lastOpening Compiler.maxNesting
          (Compiler.start tokens table home firstFunction) = (.ok (some kind), final) ∧
      kind.beginsExpression = true

/--
The bodies of a text in run mode and in evaluation mode: the one drops the value of an
expression statement at the end and returns null where the other returns the value.
-/
structure Bodies (endsInExpression : Prop) (run eval : Function) : Prop where
  same : run.SameButCode eval
  differ :
    endsInExpression →
      ∃ common,
        run.chunk.code.toList = Instruction.encode (common ++ [.pop, .pushNull, .leave]) ∧
          eval.chunk.code.toList = Instruction.encode (common ++ [.leave])
  agree : ¬ endsInExpression → eval.chunk.code = run.chunk.code

namespace Function.SameButCode

variable {first second third : Function}

theorem symm (same : first.SameButCode second) : second.SameButCode first :=
  ⟨same.name.symm, same.arity.symm, same.home.symm, same.pool.symm⟩

theorem trans (same : first.SameButCode second) (also : second.SameButCode third) :
    first.SameButCode third :=
  ⟨also.name.trans same.name, also.arity.trans same.arity, also.home.trans same.home,
    also.pool.trans same.pool⟩

end Function.SameButCode

namespace Compiler

open Compilation

theorem DraftsInStep.nothingAround
    {draft other : Draft}
    {around others : List Draft}
    (inStep : DraftsInStep 0 draft around other others) :
    around = [] ∧ others = [] := by
  cases inStep with
  | outermost draft runs => exact ⟨rfl, rfl⟩

/-- Functions of compilations in step differ in lines only. -/
theorem InStep.draftedFunction
    {first second : Compilation}
    (inStep : InStep 0 first second) :
    (draftedFunction first).SameButCode (draftedFunction second) ∧
      (draftedFunction second).chunk.code = (draftedFunction first).chunk.code where
  left :=
    { name := inStep.draft Draft.name fun _ _ => rfl
      arity := inStep.draft Draft.arity fun _ _ => rfl
      home := by
        show second.home = first.home
        rw [inStep.same]
      pool := inStep.draft (fun draft => draft.chunk.pool) fun _ _ => rfl }
  right := inStep.draft (fun draft => draft.chunk.code) fun _ _ => rfl

/-- Outside initialisers a return without a value returns null. -/
theorem emitReturn_of_script
    {state : Compilation}
    (isScript : state.draft.role = .script) :
    ∃ done, emitReturn state = (.ok (), done) ∧ Appends state done [.pushNull, .leave] := by
  have pushes := Appends.emit state .pushNull state.previous.line
  refine ⟨_, ?_, pushes.trans (.emit _ .leave state.previous.line)⟩
  unfold emitReturn
  have looks : look (·.draft.role) state = (.ok .script, state) :=
    congrArg (fun role => (Except.ok role, state)) isScript
  rw [bind_of_ok looks]
  rfl

/-- The end of a text: the body is the last function that is finished. -/
theorem finish_of_outermost
    {state : Compilation}
    (outermost : state.enclosing = []) :
    (do
      let _ ← finishFunction : Compiler Unit) state = (.ok (), resumed state state) := by
  rw [bind_of_ok (finishFunction_of_outermost outermost)]
  rfl

/-- Code is all that is appended. -/
theorem sameButCode_of_appends
    {before after : Compilation}
    {instructions : List Instruction}
    (appends : Appends before after instructions) :
    (draftedFunction before).SameButCode (draftedFunction after) where
  name := congrArg (fun state => state.draft.name) appends.writes.skeleton
  arity := congrArg (fun state => state.draft.arity) appends.writes.skeleton
  home := congrArg (fun state => state.home) appends.writes.skeleton
  pool := congrArg Syntax.Resources.pool appends.resources

/-- The same text in both modes, from the state before the first token. -/
theorem script_evaluates
    {levels : Nat}
    {start final : Compilation}
    (sound : start.Sound)
    (settled : start.draft.scope.Settled)
    (outside : start.draft.scope.depth = 0)
    (blank : start.written = [])
    (isScript : start.draft.role = .script)
    (outermost : start.enclosing = [])
    (succeeds : script levels .run start = (.ok (), final)) :
    ∃ (nested : Array Function) (run eval : Function) (evaluated : Compilation)
      (latest : Option TokenKind) (last : Compilation),
      final.finished = nested.push run ∧
        script levels .eval start = (.ok (), evaluated) ∧
        evaluated.finished = nested.push eval ∧
        evaluated.table = final.table ∧
        lastOpening levels start = (.ok latest, last) ∧
        Bodies (latest.any TokenKind.beginsExpression = true) run eval := by
  rcases exists_of_bind_ok succeeds with ⟨value, after, rounds, returns⟩
  have alike : InStep 0 start (start.dropping none) := by
    refine ⟨?_, rfl⟩
    show DraftsInStep 0 start.draft start.enclosing start.draft start.enclosing
    rw [outermost]
    exact .outermost start.draft start.draft.chunk.runs
  have abreast : Abreast start start none none := ⟨alike, rfl⟩
  rcases abreast.repeatAtMost (start.remaining + 1) rounds with
    ⟨rest, done, latest, evaluates, openings, abreast, rfl⟩
  change repeatWhile (topLevel levels .eval) none start = _ at evaluates
  have guaranteed :
      Guarantees (repeatWhile (topLevel levels .eval) none) start (BodyDone start)
        (fun _ => True) :=
    guarantees_repeatInvariant (BodyDone start) ⟨⟨[], .refl sound, .nil _ _⟩, rfl⟩
      fun _ _ body => topLevel_compiles levels .eval settled outside body
  rcases guaranteed.of_ok evaluates with ⟨⟨common, code⟩, -⟩
  have isScriptDone : done.draft.role = .script := code.adds.role.trans isScript
  have written : done.written = Instruction.encode common := by
    rw [code.adds.written, blank, List.nil_append]
  have sameCode := abreast.inStep.draftedFunction
  unfold script
  rw [bind_of_ok evaluates]
  cases rest with
  | none =>
      have inStep : InStep 0 after done := abreast.inStep
      have returned :
          (emitReturn >>= fun _ => (do let _ ← finishFunction)) after = (.ok (), final) :=
        returns
      rcases exists_of_bind_ok returned with ⟨_, left, leaves, finishes⟩
      rcases Echoes.emitReturn.echo inStep leaves with ⟨echoed, echoes, further⟩
      rw [finish_of_outermost further.drafts.nothingAround.1] at finishes
      cases finishes
      refine ⟨left.finished, draftedFunction left, draftedFunction echoed, resumed echoed echoed,
        latest, after, rfl, ?_, ?_, further.table, openings, further.draftedFunction.1, ?_, ?_⟩
      · show (emitReturn >>= fun _ => (do let _ ← finishFunction)) done = _
        rw [bind_of_ok echoes, finish_of_outermost further.drafts.nothingAround.2]
      · show echoed.finished.push _ = _
        rw [further.same]
      · intro ends
        cases abreast.pending.trans ends
      · exact fun _ => further.draftedFunction.2
  | some line =>
      have inStep : InStep 0 after (done.dropping (some line)) := abreast.inStep
      have dropping : Appends done (done.dropping (some line)) [.pop] := .emit done .pop line
      obtain ⟨ended, emits, leaving⟩ :
          ∃ ended, emit .leave done = (.ok (), ended) ∧ Appends done ended [.leave] :=
        ⟨_, rfl, .emit done .leave done.previous.line⟩
      have isScriptAfter : after.draft.role = .script := by
        rw [← inStep.draft Draft.role fun _ _ => rfl]
        exact isScriptDone
      rcases emitReturn_of_script isScriptAfter with ⟨left, leaves, returning⟩
      have returned :
          (emitReturn >>= fun _ => (do let _ ← finishFunction)) after = (.ok (), final) :=
        returns
      have around : left.enclosing = [] :=
        (congrArg Compilation.enclosing returning.writes.skeleton).trans
          inStep.drafts.nothingAround.1
      rw [bind_of_ok leaves, finish_of_outermost around] at returned
      cases returned
      have finished : left.finished = done.finished := by
        have nothing : left.finished = after.finished :=
          congrArg (fun state => state.finished) returning.writes.skeleton
        have also : (done.dropping (some line)).finished = after.finished := by
          rw [inStep.same]
        exact nothing.trans also.symm
      have table : left.table = done.table :=
        (congrArg Syntax.Resources.table returning.resources).trans inStep.table.symm
      have alsoAround : ended.enclosing = [] :=
        (congrArg Compilation.enclosing leaving.writes.skeleton).trans
          inStep.drafts.nothingAround.2
      have alsoFinished : ended.finished = done.finished :=
        congrArg (fun state => state.finished) leaving.writes.skeleton
      have alsoTable : ended.table = done.table :=
        congrArg Syntax.Resources.table leaving.resources
      refine ⟨done.finished, draftedFunction left, draftedFunction ended, resumed ended ended,
        latest, after, ?_, ?_, ?_, alsoTable.trans table.symm, openings, ?_, ?_, ?_⟩
      · show left.finished.push _ = _
        rw [finished]
      · show (emit .leave >>= fun _ => (do let _ ← finishFunction)) done = _
        rw [bind_of_ok emits, finish_of_outermost alsoAround]
      · show ended.finished.push _ = _
        rw [alsoFinished]
      · exact (sameButCode_of_appends returning).symm.trans
          (inStep.draftedFunction.1.trans
            ((sameButCode_of_appends dropping).symm.trans (sameButCode_of_appends leaving)))
      · intro _
        refine ⟨common, ?_, ?_⟩
        · show left.written = _
          have sameWritten : after.written = (done.dropping (some line)).written :=
            congrArg Array.toList inStep.draftedFunction.2.symm
          rw [returning.writes.written, sameWritten, dropping.writes.written, written,
            ← Instruction.encode_append, ← Instruction.encode_append, List.append_assoc]
          rfl
        · show ended.written = _
          rw [leaving.writes.written, written, ← Instruction.encode_append]
      · intro ends
        exact absurd abreast.pending.symm ends

end Compiler

/--
A text that compiles in run mode compiles in evaluation mode: the table of the module is
the same afterwards, and so are all functions but the body.
-/
theorem compile_evaluates
    {source : String}
    {table : Module}
    {home firstFunction : Nat}
    {functions : Array Function}
    (indexed : table.Indexed)
    (success : (compile .run source table home firstFunction).functions = .ok functions) :
    ∃ (nested : Array Function) (run eval : Function),
      functions = nested.push run ∧
        compile .eval source table home firstFunction =
          { functions := .ok (nested.push eval)
            table := (compile .run source table home firstFunction).table } ∧
        Bodies (EndsInExpression source table home firstFunction) run eval := by
  unfold compile at success ⊢
  rcases scanned : Token.scan source with error | tokens
  · simp only [scanned] at success
    cases success
  · simp only [scanned] at success ⊢
    have names := Token.isVariableName_of_scanFrom (by simp) scanned
    unfold Compiler.compileTokens at success ⊢
    rcases outcome : Compiler.script Compiler.maxNesting .run
      (Compiler.start tokens table home firstFunction) with ⟨error | ⟨⟩, final⟩
    · simp only [outcome] at success
      cases success
    · simp only [outcome] at success ⊢
      cases success
      rcases Compiler.script_evaluates (Compiler.sound_start indexed names home firstFunction)
        (Scope.settled_reserving fun isVariable => isVariable.1 rfl) rfl rfl rfl rfl outcome with
        ⟨nested, run, eval, evaluated, latest, last, finished, evaluates, alsoFinished, sameTable,
          opens, bodies⟩
      have same :
          latest.any TokenKind.beginsExpression = true ↔
            EndsInExpression source table home firstFunction := by
        constructor
        · intro begins
          cases latest with
          | none => cases begins
          | some kind => exact ⟨tokens, kind, last, scanned, opens, begins⟩
        · rintro ⟨others, kind, other, alsoScanned, alsoOpens, isExpression⟩
          cases scanned.symm.trans alsoScanned
          cases opens.symm.trans alsoOpens
          exact isExpression
      refine ⟨nested, run, eval, finished, ?_, propext same ▸ bodies⟩
      rw [evaluates]
      simp only [alsoFinished, sameTable]

end ScriptEngine
