import ScriptEngine.Compilation.Script
import ScriptEngine.Proofs.Compiler.LoopFlow
import ScriptEngine.Proofs.Imperative.Progress

/-!
# Imperative programs are compiled to their code

The compiler reads the tokens of a program and writes its code.  The proof goes
along the grammar; every routine of the compiler is given what the routines for the
parts have done.
-/

namespace ScriptEngine.Compiler

open Syntax Imperative Compilation

/-- The compilers for what may stand inside code of a number of levels. -/
abbrev innerOf (levels : Nat) : Inner where
  operand := expressionWithin levels
  code := codeWithin levels

/-- What a form does to the scope: only declarations change it. -/
def Keeps : Form → Scope → Scope → Prop
  | .statement, before, after => after = before
  | _, before, after => before.Declares after

/-- A piece of a program has been compiled. -/
structure Done (form : Form) (code : Stmt) (rest : List TokenKind) (before after : Compilation) :
    Prop where
  upcoming : after.upcoming = rest
  scope : Keeps form before.draft.scope after.draft.scope
  coded :
    ∃ instructions,
      Progress before after instructions ∧
        ∀ book,
          after.resources.Within book →
            code.Coded book before.draft.scope instructions after.draft.scope

/-- A step compiles a piece of a program, given its tokens. -/
def Translates (step : Compiler Unit) (form : Form) (tokens : List TokenKind) (code : Stmt)
    (rest : List TokenKind) : Prop :=
  ∀ state,
    state.Ready →
    state.draft.scope.Settled →
    state.upcoming = tokens →
      Guarantees step state (fun _ after => Done form code rest state after) (fun _ => True)

theorem Done.afterwards
    {form : Form}
    {code : Stmt}
    {rest : List TokenKind}
    {before between after : Compilation}
    (progress : Progress before between [])
    (scope : between.draft.scope = before.draft.scope)
    (done : Done form code rest between after) :
    Done form code rest before after := by
  rcases done with ⟨upcoming, keeps, instructions, written, coded⟩
  rw [scope] at keeps coded
  exact ⟨upcoming, keeps, instructions, progress.trans written, coded⟩

section Statements

variable
  {levels : Nat}
  {state : Compilation}
  {tokens rest : List TokenKind}

/-- An expression, a semicolon and an instruction that takes the value. -/
theorem guarantees_taken
    {value : Imperative.Expr}
    {what : String}
    {instruction : Instruction}
    {code : Stmt}
    (codes :
      ∀ {book scope instructions},
        value.Coded book scope instructions →
          code.Coded book scope (instructions ++ [instruction]) scope)
    (spelled : value.Spelled tokens) :
    Translates
      (do
        (innerOf levels).expression
        consume .semicolon what
        emit instruction)
      .statement (tokens ++ .punctuation .semicolon :: rest) code rest := by
  intro state ready settled upcoming
  refine .bind (guarantees_spelled ready spelled (endsExpression_semicolon _) upcoming ?_)
  intro valued instructions progress coded isRest scope
  refine .bind (guarantees_consumeMark isRest fun tail => ?_)
  refine guarantees_append fun after appends => ?_
  have closed := progress.silently (.advance (progress.ready ready))
  have whole := closed.trans (.of_appends appends (closed.ready ready))
  have sameScope : after.draft.scope = state.draft.scope := by
    rw [appends.writes.scope, scope_advance, scope]
  have sameResources : after.resources = valued.resources := by
    rw [appends.resources, resources_advance]
  refine ⟨appends.upcoming.trans tail, sameScope, _, whole, fun book within => ?_⟩
  rw [sameScope]
  rw [sameResources] at within
  exact codes (coded book within)

/-! ## Blocks -/

/-- One round of a loop that compiles declarations up to a token. -/
def roundUntil (ends : TokenKind → Bool) (levels : Nat) (value : α) : Compiler (Bool × α) := do
  if ← look fun state => ends state.current.kind then
    return (false, value)
  else
    codeWithin levels .declaration
    return (true, value)

/-- A loop compiles declarations, given their tokens. -/
def TranslatesAll (levels : Nat) (tokens : List TokenKind) (code : Stmt) (rest : List TokenKind) :
    Prop :=
  ∀ {α : Type} (ends : TokenKind → Bool) (round : α → Compiler (Bool × α)) (value : α),
    round value = roundUntil ends levels value →
    (∀ kind, ends kind = true → kind = .endOfInput ∨ kind = .punctuation .rightBrace) →
    (∃ kind, rest.head? = some kind ∧ ends kind = true) →
    ∀ bound state,
      state.Ready →
      state.draft.scope.Settled →
      state.upcoming = tokens →
      tokens.length < bound →
        Guarantees (repeatAtMost round bound value) state
          (fun result after => result = value ∧ Done .declarations code rest state after)
          (fun _ => True)

/-- Leaving a block pops the variables that were declared in it. -/
theorem guarantees_leaveBlock
    {between : Compilation}
    {onSuccess : Unit → Compilation → Prop}
    (ready : between.Ready)
    (settled : state.draft.scope.Settled)
    (declares : state.draft.scope.enter.Declares between.draft.scope)
    (success :
      ∀ after count,
        between.draft.scope.leave = (count, state.draft.scope) →
        Progress between after (List.replicate count .pop) →
        after.resources = between.resources →
        after.upcoming = between.upcoming →
        after.draft.scope = state.draft.scope →
          onSuccess () after) :
    Guarantees leaveBlock between onSuccess (fun _ => True) := by
  have left := Scope.leave_of_declares settled declares
  have emitted :
      ∀ count,
        between.draft.scope.leave = (count, state.draft.scope) →
          Guarantees (emitAll (List.replicate count .pop)) (between.withScope state.draft.scope)
            onSuccess (fun _ => True) := by
    intro count leaves
    refine (guarantees_emitAll _).mono (fun _ after appends => ?_) fun _ => id
    have outside := Progress.withScope ready state.draft.scope
    have popped := outside.trans (.of_appends appends (outside.ready ready))
    exact success after count leaves popped appends.resources appends.upcoming
      appends.writes.scope
  refine .bind ?_
  unfold Guarantees
  simp only [left]
  exact emitted _ left

theorem block_translates
    {body : Stmt}
    (translates : TranslatesAll levels tokens body (.punctuation .rightBrace :: rest)) :
    Translates
      (do
        enterBlock
        (innerOf levels).block
        leaveBlock)
      .statement tokens (.block body) rest := by
  intro state ready settled upcoming
  have entered := Progress.withScope ready state.draft.scope.enter
  refine .bind (guarantees_enterBlock (.bind (.bind ?_)))
  have rounds := translates
    (fun kind => kind.isMark .rightBrace || kind.isEnd)
    (fun _ => do
      if (← atMark .rightBrace) || (← atEnd) then
        return (false, ())
      else
        codeWithin levels .declaration
        return (true, ()))
    () rfl
    (by
      intro kind isEnd
      cases kind <;> simp_all [TokenKind.isMark, TokenKind.isEnd])
    ⟨_, rfl, rfl⟩ (state.remaining + 1) _ (entered.ready ready) settled.enter upcoming
    (by rw [← upcoming, length_upcoming]; exact Nat.lt_succ_self _)
  refine rounds.mono ?_ fun _ => id
  rintro - between ⟨-, unread, declares, instructions, progress, coded⟩
  refine guarantees_consumeMark unread fun tail => ?_
  have closed := progress.silently (.advance (progress.ready (entered.ready ready)))
  refine guarantees_leaveBlock (closed.ready (entered.ready ready)) settled
    (by rw [scope_advance]; exact declares) ?_
  intro after count leaves popped resources isRest scope
  rw [scope_advance] at leaves
  refine ⟨isRest.trans tail, scope, _, entered.trans (closed.trans popped), fun book within => ?_⟩
  rw [scope]
  rw [resources, resources_advance] at within
  exact .block (coded book within) leaves

/-! ## Conditions -/

/-- A condition in parentheses leaves its value on the stack. -/
theorem guarantees_parenthesized
    {value : Imperative.Expr}
    {before after : String}
    {next : Compiler α}
    {onSuccess : α → Compilation → Prop}
    (ready : state.Ready)
    (spelled : value.Spelled tokens)
    (upcoming :
      state.upcoming =
        .punctuation .leftParen :: (tokens ++ .punctuation .rightParen :: rest))
    (success :
      ∀ tested instructions,
        Progress state tested instructions →
        (∀ book,
          tested.resources.Within book → value.Coded book state.draft.scope instructions) →
        tested.upcoming = rest →
        tested.draft.scope = state.draft.scope →
          Guarantees next tested onSuccess (fun _ => True)) :
    Guarantees
      (do
        consume .leftParen before
        (innerOf levels).expression
        consume .rightParen after
        next)
      state onSuccess (fun _ => True) := by
  have opened := Progress.advance ready
  refine .bind (guarantees_consumeMark upcoming fun tail => ?_)
  refine .bind (guarantees_spelled (opened.ready ready) spelled
    (endsExpression_rightParen _) tail ?_)
  intro valued instructions progress coded isRest scope
  rw [scope_advance] at coded scope
  refine .bind (guarantees_consumeMark isRest fun closing => ?_)
  have closed := Progress.advance (progress.ready (opened.ready ready))
  refine success _ instructions (opened.trans (progress.silently closed)) ?_ closing
    ((scope_advance _).trans scope)
  rw [resources_advance]
  exact coded

/-- What follows the first alternative of a conditional statement. -/
inductive Otherwise (levels : Nat) (tokens : List TokenKind) : Stmt → List TokenKind → Prop where
  | absent
      (unfollowed : tokens.head? ≠ some (.keyword .elseWord)) :
      Otherwise levels tokens .nothing tokens
  | present
      {otherwise rest : List TokenKind}
      {alternative : Stmt}
      (begins : tokens = .keyword .elseWord :: otherwise)
      (translates :
        Translates (codeWithin levels .statement) .statement otherwise alternative rest) :
      Otherwise levels tokens alternative rest

/-- Whether or not there is a second alternative, the code of one is written. -/
theorem guarantees_otherwise
    {alternative : Stmt}
    {next : Compiler α}
    {onSuccess : α → Compilation → Prop}
    (otherwise : Otherwise levels tokens alternative rest)
    (ready : state.Ready)
    (settled : state.draft.scope.Settled)
    (upcoming : state.upcoming = tokens)
    (success :
      ∀ finished,
        Done .statement alternative rest state finished →
          Guarantees next finished onSuccess (fun _ => True)) :
    Guarantees
      (do
        if ← matchWord .elseWord then
          (innerOf levels).statement
        next)
      state onSuccess (fun _ => True) := by
  cases otherwise with
  | absent unfollowed =>
      have declined : (tokens.headD .endOfInput).isWord .elseWord = false := by
        cases tokens with
        | nil => rfl
        | cons kind others =>
            cases kind with
            | keyword word =>
                apply beq_false_of_ne
                rintro rfl
                exact unfollowed rfl
            | _ => rfl
      refine .bind (guarantees_matchKind (fun found => ?_) fun _ => ?_)
      · rw [kind_current, upcoming, declined] at found
        cases found
      · exact success state ⟨upcoming, rfl, [], .refl ready, fun _ _ => .nothing⟩
  | present begins translates =>
      rw [begins] at upcoming
      refine .bind (guarantees_accept upcoming rfl rfl fun tail => ?_)
      have entered := Progress.advance ready
      refine .bind ((translates _ (entered.ready ready) (by rwa [scope_advance]) tail).mono ?_
        fun _ => id)
      intro _ finished done
      exact success finished (.afterwards entered (scope_advance _) done)

theorem ifStatement_translates
    {between middle : List TokenKind}
    {condition : Imperative.Expr}
    {consequence alternative : Stmt}
    (spelled : condition.Spelled tokens)
    (consequenceTranslates :
      Translates (codeWithin levels .statement) .statement between consequence middle)
    (otherwise : Otherwise levels middle alternative rest) :
    Translates (innerOf levels).ifStatement .statement
      (.punctuation .leftParen :: (tokens ++ .punctuation .rightParen :: between))
      (.conditional condition consequence alternative) rest := by
  intro state ready settled upcoming
  refine guarantees_parenthesized ready spelled upcoming ?_
  intro tested conditionCode tests conditionCoded testedUpcoming testedScope
  refine .bind (guarantees_openJump .ifFalse fun opened opening => ?_)
  refine .bind (guarantees_append fun popped popping => ?_)
  have testedReady := tests.ready ready
  have start := Progress.of_appends (opening.trans popping) testedReady
  have poppedScope : popped.draft.scope = state.draft.scope := by
    rw [popping.writes.scope, opening.writes.scope, testedScope]
  refine .bind ((consequenceTranslates popped (start.ready testedReady) (by rwa [poppedScope])
    (by rw [popping.upcoming, opening.upcoming, testedUpcoming])).mono ?_ fun _ => id)
  rintro - consequent
    ⟨consequentUpcoming, consequentScope, consequenceCode, writes, consequenceCoded⟩
  change consequent.draft.scope = popped.draft.scope at consequentScope
  rw [poppedScope] at consequentScope
  rw [poppedScope, consequentScope] at consequenceCoded
  refine .bind (guarantees_openJump .always fun jumped jumping => ?_)
  have consequentReady := writes.ready (start.ready testedReady)
  have whole := (start.trans writes).trans (.of_appends jumping consequentReady)
  refine .bind (guarantees_closeProgress .ifFalse []
    (.pop :: (consequenceCode ++ [ForwardJump.always.past Chunk.openDistance])) whole rfl ?_)
  intro closed consequenceNear closing closedResources closedUpcoming closedScope
  have length :
      Instruction.totalLength
          (.pop :: (consequenceCode ++ [ForwardJump.always.past Chunk.openDistance])) =
        Instruction.totalLength (.pop :: consequenceCode) + 3 := by
    simp [Nat.add_assoc]
  rw [length] at consequenceNear closing
  refine .bind (guarantees_append fun repopped repopping => ?_)
  have closedReady := closing.ready testedReady
  have opening := closing.trans (.of_appends repopping closedReady)
  have repoppedScope : repopped.draft.scope = state.draft.scope := by
    rw [repopping.writes.scope, closedScope, jumping.writes.scope, consequentScope]
  have repoppedUpcoming : repopped.upcoming = middle := by
    rw [repopping.upcoming, closedUpcoming, jumping.upcoming, consequentUpcoming]
  have consequentWithin : consequent.resources.Within repopped.resources := by
    rw [repopping.resources, closedResources, jumping.resources]
    exact .refl _
  -- Behind the second alternative, the jump at the end of the first one is closed.
  have finish :
      ∀ finished,
        Done .statement alternative rest repopped finished →
          Guarantees (patchJump { operand := consequent.written.length + 1 }) finished
            (fun _ after =>
              Done .statement (.conditional condition consequence alternative) rest state after)
            (fun _ => True) := by
    rintro finished ⟨isRest, finishedScope, alternativeCode, alternativeWrites, alternativeCoded⟩
    change finished.draft.scope = repopped.draft.scope at finishedScope
    rw [repoppedScope] at finishedScope
    rw [repoppedScope, finishedScope] at alternativeCoded
    refine guarantees_closeProgress .always
      (ForwardJump.ifFalse.past
        (UInt16.ofNat (Instruction.totalLength (.pop :: consequenceCode) + 3)) ::
        .pop :: consequenceCode)
      (.pop :: alternativeCode) (by simpa using opening.trans alternativeWrites) ?_ ?_
    · rw [writes.written, start.written]
      simp [Instruction.totalLength]
    · intro after alternativeNear branches afterResources afterUpcoming afterScope
      rw [finishedScope] at afterScope
      refine ⟨afterUpcoming.trans isRest, afterScope, _, tests.trans branches, ?_⟩
      intro book within
      rw [afterResources] at within
      have later := alternativeWrites.within.trans within
      have tested : tested.resources.Within book := by
        exact start.within.trans (writes.within.trans (consequentWithin.trans later))
      rw [afterScope]
      have coded := Stmt.Coded.conditional (conditionCoded book tested)
        (consequenceCoded book (consequentWithin.trans later)) (alternativeCoded book within)
        consequenceNear alternativeNear
      simpa [branchCode, ForwardJump.past] using coded
  exact guarantees_otherwise otherwise (opening.ready testedReady) (by rwa [repoppedScope])
    repoppedUpcoming finish

/-! ## Declarations -/

/-- A name has been declared, and its value is to be pushed next. -/
inductive Binds (before after : Compilation) (name : String) : Binding → Prop where
  | moduleSlot
      {slot : Nat}
      (progress : Progress before after [])
      (scope : after.draft.scope = before.draft.scope)
      (outside : before.draft.scope.depth = 0)
      (found : ∀ book, after.resources.Within book → book.table.find? name = some slot) :
      Binds before after name (.moduleSlot slot)
  | newLocal
      (progress : Progress before after [])
      (scope : after.draft.scope = before.draft.scope.pending name)
      (inside : 0 < before.draft.scope.depth)
      (room : before.draft.scope.locals.length < Scope.maxLocals) :
      Binds before after name .newLocal

theorem Binds.progress
    {before after : Compilation}
    {name : String}
    {binding : Binding}
    (binds : Binds before after name binding) :
    Progress before after [] := by
  cases binds with
  | moduleSlot progress => exact progress
  | newLocal progress => exact progress

theorem guarantees_binds
    {name : String}
    {onSuccess : Binding → Compilation → Prop}
    (ready : state.Ready)
    (success :
      ∀ binding after,
        Binds state after name binding →
        after.upcoming = state.upcoming →
          onSuccess binding after) :
    Guarantees (declareVariable name) state onSuccess (fun _ => True) := by
  refine .bind (guarantees_look ?_)
  split
  · rename_i atModuleLevel
    simp only [Bool.and_eq_true, decide_eq_true_eq] at atModuleLevel
    refine .bind (guarantees_moduleSlot (fun slot table generated => ?_) fun _ _ => trivial)
    have slotGenerated := moduleSlot_generated ready.sound generated
    refine .bind (.bind (guarantees_look ?_))
    split
    · exact guarantees_fail trivial
    · have progress := Progress.of_writes (.withTable state table) slotGenerated.sound
        slotGenerated.within
      exact .pure (success _ _
        (.moduleSlot progress rfl atModuleLevel.2 slotGenerated.coded) rfl)
  · rename_i inBlock
    simp only [ready.isScript, decide_true, Bool.true_and, decide_eq_true_eq] at inBlock
    refine .bind (guarantees_declareLocal (fun room => ?_) fun _ => trivial)
    exact .pure (success _ _
      (.newLocal (.withScope ready _) rfl (Nat.pos_of_ne_zero inBlock) room) rfl)

/-- The tokens of the first value of a variable. -/
inductive InitialTokens : List TokenKind → Option Imperative.Expr → List TokenKind → Prop where
  | absent {rest : List TokenKind} : InitialTokens (.punctuation .semicolon :: rest) none rest
  | present
      {tokens rest : List TokenKind}
      {value : Imperative.Expr}
      (spelled : value.Spelled tokens) :
      InitialTokens (.punctuation .equal :: (tokens ++ .punctuation .semicolon :: rest))
        (some value) rest

/-- A declared variable gets the value on top of the stack. -/
theorem guarantees_defineVariable
    {declared valued : Compilation}
    {name : Name}
    {binding : Binding}
    {initializer : Option Imperative.Expr}
    {instructions : List Instruction}
    (ready : state.Ready)
    (settled : state.draft.scope.Settled)
    (binds : Binds state declared name.spelling binding)
    (progress : Progress declared valued instructions)
    (coded :
      ∀ book,
        valued.resources.Within book →
          InitialCoded book declared.draft.scope initializer instructions)
    (scope : valued.draft.scope = declared.draft.scope)
    (unread : valued.upcoming = .punctuation .semicolon :: rest) :
    Guarantees
      (do
        consume .semicolon "';' after variable declaration"
        defineVariable binding)
      valued (fun _ after => Done .declaration (.declare name initializer) rest state after)
      (fun _ => True) := by
  have declaredReady := binds.progress.ready ready
  have closed := progress.silently (.advance (progress.ready declaredReady))
  refine .bind (guarantees_consumeMark unread fun tail => ?_)
  cases binds with
  | moduleSlot declares same outside found =>
      refine guarantees_append fun after appends => ?_
      have whole := declares.trans
        (closed.trans (.of_appends appends (closed.ready declaredReady)))
      have scopeAfter : after.draft.scope = state.draft.scope := by
        rw [appends.writes.scope, scope_advance, scope, same]
      refine ⟨appends.upcoming.trans tail, ?_, _, whole, fun book within => ?_⟩
      · rw [Keeps, scopeAfter]
        · exact .refl settled
        · nofun
      · rw [appends.resources, resources_advance] at within
        rw [scopeAfter]
        rw [same] at coded
        exact .define outside (found book (progress.within.trans within)) (coded book within)
  | newLocal declares same inside room =>
      have scopeAfter :
          valued.advance.draft.scope.markInitialized =
            state.draft.scope.declared name.spelling := by
        rw [scope_advance, scope, same, Scope.markInitialized_pending]
      refine guarantees_change ⟨tail, ?_, _, declares.trans (closed.silently
        (.withScope (closed.ready declaredReady) _)), fun book within => ?_⟩
      · show Scope.Declares _ valued.advance.draft.scope.markInitialized
        rw [scopeAfter]
        exact .declared inside room name.spelling
      · show Stmt.Coded book _ _ _ valued.advance.draft.scope.markInitialized
        rw [scopeAfter]
        rw [same] at coded
        refine .declare inside room (coded book ?_)
        rw [← resources_advance]
        exact within

theorem variableDeclaration_translates
    {name : Name}
    {initializer : Option Imperative.Expr}
    (initial : InitialTokens tokens initializer rest) :
    Translates (innerOf levels).variableDeclaration .declaration (name.token :: tokens)
      (.declare name initializer) rest := by
  intro state ready settled upcoming
  have entered := Progress.advance ready
  have enteredReady := entered.ready ready
  refine .bind (guarantees_consumeIdentifier (fun found isName => ?_) fun _ => trivial)
  have same := kind_current_of_upcoming upcoming
  rw [isName] at same
  cases same
  have tail := upcoming_advance (by simp [TokenKind.isEnd]) upcoming
  refine .bind (guarantees_binds enteredReady fun binding declared binds declaredUpcoming => ?_)
  rw [tail] at declaredUpcoming
  have declaredReady := binds.progress.ready enteredReady
  have finish :
      ∀ instructions valued,
        Progress declared valued instructions →
        (∀ book,
          valued.resources.Within book →
            InitialCoded book declared.draft.scope initializer instructions) →
        valued.draft.scope = declared.draft.scope →
        valued.upcoming = .punctuation .semicolon :: rest →
          Guarantees
            (do
              consume .semicolon "';' after variable declaration"
              defineVariable binding)
            valued
            (fun _ after => Done .declaration (.declare name initializer) rest state after)
            (fun _ => True) := by
    intro instructions valued progress coded scope unread
    refine (guarantees_defineVariable enteredReady (by rwa [scope_advance]) binds progress coded
      scope unread).mono ?_ fun _ => id
    intro _ after done
    exact .afterwards entered (scope_advance state) done
  cases initial with
  | absent =>
      refine .bind (guarantees_decline declaredUpcoming rfl ?_)
      refine .bind (guarantees_append fun valued appends => ?_)
      exact finish _ valued (.of_appends appends declaredReady) (fun _ _ => .absent)
        appends.writes.scope (appends.upcoming.trans declaredUpcoming)
  | present spelled =>
      refine .bind (guarantees_accept declaredUpcoming rfl rfl fun afterEqual => ?_)
      have assigned := Progress.advance declaredReady
      refine .bind (guarantees_spelled (assigned.ready declaredReady) spelled
        (endsExpression_semicolon _) afterEqual ?_)
      intro valued instructions progress coded unread scope
      rw [scope_advance] at coded scope
      exact finish instructions valued (assigned.trans progress)
        (fun book within => .present (coded book within)) scope unread

end Statements

end ScriptEngine.Compiler
