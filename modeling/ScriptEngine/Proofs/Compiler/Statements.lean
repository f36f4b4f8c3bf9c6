import ScriptEngine.Proofs.Compiler.Evaluation
import ScriptEngine.Proofs.Compiler.ExpressionLanguage
import ScriptEngine.Proofs.Compiler.FollowingRoutines
import ScriptEngine.Proofs.Compiler.Parts

/-!
# The statements of a text

The body of a compiled text holds the code of every expression that is dropped, printed or
stored in a new variable outside of blocks and functions (`exists_statements_of_compile`).  The
text is cut into its statements and declarations; what has been written for one of them stays
as it is while the later ones are compiled.
-/

namespace ScriptEngine

open Syntax Compilation

/-- Outside of blocks slot zero is the only local variable. -/
theorem Scope.Settled.fits_one
    {scope : Scope}
    (settled : scope.Settled)
    (outside : scope.depth = 0) :
    scope.Fits 1 := by
  rcases settled.slotZero with ⟨inner, zero, split, -, deep⟩
  have alone : inner = [] := by
    apply List.eq_nil_iff_forall_not_mem.mpr
    intro entry member
    have shallow := settled.shallow entry (by rw [split]; exact List.mem_append_left _ member)
    have positive := deep entry member
    omega
  have fits := settled.fits
  rw [split, alone] at fits
  exact fits

/-- The compiler stands between two statements of a text, outside of blocks and functions. -/
structure Compilation.Outermost (state : Compilation) : Prop where
  sound : state.Sound
  settled : state.draft.scope.Settled
  outside : state.draft.scope.depth = 0

theorem Compilation.Outermost.of_adds
    {before after : Compilation}
    {instructions : List Instruction}
    (outermost : before.Outermost)
    (adds : Adds before after instructions)
    (scope : after.draft.scope = before.draft.scope) :
    after.Outermost where
  sound := adds.sound
  settled := by
    rw [scope]
    exact outermost.settled
  outside := by
    rw [scope]
    exact outermost.outside

/-- What stands in front of an expression that a statement drops, prints or stores. -/
inductive OpensExpression : List TokenKind → Prop where
  | nothing : OpensExpression []
  | print : OpensExpression [.keyword .printWord]
  | variable (name : String) :
      OpensExpression [.keyword .varWord, .identifier name, .punctuation .equal]

/-- Whether a statement does nothing but drop, print or store the value of an expression. -/
def takesExpression : List TokenKind → Bool
  | .keyword .printWord :: _ => true
  | .keyword .varWord :: .identifier _ :: .punctuation .equal :: _ => true
  | kind :: _ => kind.beginsExpression
  | [] => false

theorem exists_of_takesExpression_var
    {rest : List TokenKind}
    (takes : takesExpression (.keyword .varWord :: rest) = true) :
    ∃ name more, rest = .identifier name :: .punctuation .equal :: more := by
  unfold takesExpression at takes
  split at takes
  · rename_i same
    cases (List.cons.inj same).1
  · rename_i same
    exact ⟨_, _, (List.cons.inj same).2⟩
  · rename_i same
    rw [← (List.cons.inj same).1] at takes
    cases takes
  · cases takes

/--
The code of the expression that a statement drops, prints or stores stands in a chunk.  Nothing
but a semicolon follows the expression.
-/
inductive Chunk.HasStatement (chunk : Chunk) (tokens : List TokenKind) : Prop where
  | intro
      {opening consumed closing : List TokenKind}
      {tree : Expr}
      {surroundings : Surroundings}
      {code : List Instruction}
      {first last : Resources}
      {earlier later : List UInt8}
      (split : tokens = opening ++ consumed ++ closing)
      (opens : OpensExpression opening)
      (closes : closing = [] ∨ closing = [.punctuation .semicolon])
      (derived : Derives .assignment consumed tree)
      (fits : surroundings.scope.Fits 1)
      (assigns : tree.Assigns IsVariableName)
      (sound : first.Sound)
      (generated : tree.code surroundings first = some (code, last))
      (constants : last.pool.constants.toList <+: chunk.constants.toList)
      (written : chunk.code.toList = earlier ++ Instruction.encode code ++ later)

theorem Chunk.HasStatement.of_adds
    {before after : Compilation}
    {tokens : List TokenKind}
    {instructions : List Instruction}
    (has : before.draft.chunk.HasStatement tokens)
    (adds : Compilation.Adds before after instructions) :
    after.draft.chunk.HasStatement tokens := by
  rcases has with @⟨_, _, _, _, _, code, _, _, earlier, later, split, opens, closes, derived,
    fits, assigns, sound, generated, constants, written⟩
  have whole :
      after.draft.chunk.code.toList =
        earlier ++ Instruction.encode code ++ (later ++ Instruction.encode instructions) := by
    rw [← List.append_assoc, ← written]
    exact adds.written
  exact ⟨split, opens, closes, derived, fits, assigns, sound, generated,
    constants.trans adds.context.constants, whole⟩

/-- The tokens are what the compiler takes at once as a statement or declaration of a text. -/
def Compiler.IsStatement (levels : Nat) (tokens : List TokenKind) : Prop :=
  ∃ before after,
    (codeWithin levels .declaration before = (.ok (), after) ∨
      ∃ line, evaluatedStatement levels before = (.ok line, after)) ∧
    before.upcoming = tokens ++ after.upcoming

/-- A statement of a text has been compiled, and its expression has its code in the chunk. -/
structure Chunk.Covers (levels : Nat) (chunk : Chunk) (tokens : List TokenKind) : Prop where
  isStatement : Compiler.IsStatement levels tokens
  written : takesExpression tokens = true → chunk.HasStatement tokens

theorem Chunk.Covers.of_adds
    {levels : Nat}
    {before after : Compilation}
    {tokens : List TokenKind}
    {instructions : List Instruction}
    (covers : before.draft.chunk.Covers levels tokens)
    (adds : Compilation.Adds before after instructions) :
    after.draft.chunk.Covers levels tokens :=
  ⟨covers.isStatement, fun takes => (covers.written takes).of_adds adds⟩

/-- Statements and declarations have been compiled, each from its own tokens. -/
structure Compilation.Passes
    (levels : Nat)
    (before : Compilation)
    (statements : List (List TokenKind))
    (after : Compilation) :
    Prop where
  outermost : after.Outermost
  upcoming : before.upcoming = statements.flatten ++ after.upcoming
  adds : ∃ instructions, Adds before after instructions
  covered : ∀ statement ∈ statements, after.draft.chunk.Covers levels statement

namespace Compilation.Passes

variable
  {levels : Nat}
  {before between after : Compilation}
  {statement : List TokenKind}
  {statements others : List (List TokenKind)}
  {instructions : List Instruction}

/-- Code that belongs to no statement has been added. -/
theorem of_adds
    (outermost : before.Outermost)
    (adds : Adds before after instructions)
    (scope : after.draft.scope = before.draft.scope)
    (upcoming : after.upcoming = before.upcoming) :
    Passes levels before [] after :=
  ⟨outermost.of_adds adds scope, upcoming.symm, ⟨_, adds⟩, List.forall_mem_nil _⟩

theorem refl (outermost : before.Outermost) : Passes levels before [] before :=
  .of_adds outermost (.refl outermost.sound) rfl rfl

/-- One statement has been compiled. -/
theorem of_statement
    (outermost : before.Outermost)
    (adds : Adds before after instructions)
    (scope : after.draft.scope = before.draft.scope)
    (upcoming : before.upcoming = statement ++ after.upcoming)
    (covered : after.draft.chunk.Covers levels statement) :
    Passes levels before [statement] after :=
  ⟨outermost.of_adds adds scope, by rw [List.flatten_singleton, upcoming], ⟨_, adds⟩,
    List.forall_mem_singleton.mpr covered⟩

theorem trans
    (first : Passes levels before statements between)
    (second : Passes levels between others after) :
    Passes levels before (statements ++ others) after := by
  rcases first.adds with ⟨start, startAdds⟩
  rcases second.adds with ⟨rest, restAdds⟩
  refine ⟨second.outermost, ?_, ⟨_, startAdds.trans restAdds⟩,
    List.forall_mem_append.mpr
      ⟨fun statement member => (first.covered statement member).of_adds restAdds, second.covered⟩⟩
  rw [first.upcoming, second.upcoming, List.flatten_append, List.append_assoc]

end Compilation.Passes

namespace Compiler

section Statements

variable
  {levels : Nat}
  {state entered between after : Compilation}
  {instructions : List Instruction}

theorem upcoming_of_isMark
    {mark : Punctuation}
    (isMark : state.current.kind.isMark mark = true) :
    state.upcoming = [.punctuation mark] ++ state.advance.upcoming := by
  rw [upcoming_eq_cons (not_isEnd_of_isMark isMark), eq_punctuation_of_isMark isMark]
  rfl

/-- What has been read lies between the two places in the text. -/
theorem exists_upcoming
    (tokens : after.tokens = state.tokens)
    (forward : state.position ≤ after.position)
    (fewer : after.remaining < state.remaining)
    (unfinished : ¬ state.current.kind.isEnd) :
    ∃ rest, state.upcoming = (state.current.kind :: rest) ++ after.upcoming := by
  have further : state.position < after.position := by
    unfold Compilation.remaining at fewer
    rw [tokens] at fewer
    omega
  obtain ⟨between, place⟩ := Nat.exists_eq_add_of_lt further
  have later : after.upcoming = state.upcoming.drop (between + 1) := by
    simp only [Compilation.upcoming, tokens, place, ← List.map_drop, List.drop_drop, Nat.add_assoc]
  refine ⟨state.advance.upcoming.take between, ?_⟩
  rw [later, upcoming_eq_cons unfinished, List.drop_succ_cons, List.cons_append,
    List.take_append_drop]

/-- An expression has been compiled, with what stands around it in its statement. -/
theorem passes_of_expression
    {bound : Nat}
    {opening closing : List TokenKind}
    (outermost : state.Outermost)
    (opens : OpensExpression opening)
    (read : state.upcoming = opening ++ entered.upcoming)
    (enters : Adds state entered [])
    (sameScope : entered.draft.scope = state.draft.scope)
    (begins : entered.Begins)
    (compiled : whole (expressionWithin bound) entered = (.ok (), between))
    (closes : closing = [] ∨ closing = [.punctuation .semicolon])
    (unread : between.upcoming = closing ++ after.upcoming)
    (adds : between.Sound → Adds between after instructions)
    (scope : after.draft.scope = between.draft.scope)
    (isStatement :
      ∀ tokens, state.upcoming = tokens ++ after.upcoming → IsStatement levels tokens) :
    ∃ statement, state.Passes levels [statement] after := by
  have fits : entered.draft.scope.Fits 1 := by
    rw [sameScope]
    exact outermost.settled.fits_one outermost.outside
  rcases derives_of_compiled begins compiled with
    ⟨consumed, tree, split, derived, -, code, generated, written⟩
  rcases ((expressionWithin_compiles bound entered 1 enters.sound begins fits).of_ok compiled)
    with ⟨⟨_, compiles⟩, afterScope⟩
  have rest := adds compiles.adds.sound
  have upcoming : state.upcoming = (opening ++ consumed ++ closing) ++ after.upcoming := by
    rw [read, split, unread]
    simp only [List.append_assoc]
  have finished :
      after.draft.chunk.code.toList =
        entered.written ++ Instruction.encode code ++ Instruction.encode instructions := by
    rw [← written]
    exact rest.written
  have has : after.draft.chunk.HasStatement (opening ++ consumed ++ closing) :=
    ⟨rfl, opens, closes, derived, fits, enters.sound.assigns split derived,
      enters.sound.resources, generated, rest.context.constants, finished⟩
  exact ⟨_, .of_statement outermost (enters.trans (compiles.adds.trans rest))
    (scope.trans (afterScope.trans sameScope)) upcoming ⟨isStatement _ upcoming, fun _ => has⟩⟩

/-- Nothing but a semicolon and an instruction follow the expression of a statement. -/
theorem passes_of_closed
    {bound line : Nat}
    {opening : List TokenKind}
    {instruction : Instruction}
    (outermost : state.Outermost)
    (opens : OpensExpression opening)
    (read : state.upcoming = opening ++ entered.upcoming)
    (enters : Adds state entered [])
    (sameScope : entered.draft.scope = state.draft.scope)
    (begins : entered.Begins)
    (compiled : whole (expressionWithin bound) entered = (.ok (), between))
    (semicolon : between.current.kind.isMark .semicolon = true)
    (last : emitOn line instruction between.advance = (.ok (), after))
    (isStatement :
      ∀ tokens, state.upcoming = tokens ++ after.upcoming → IsStatement levels tokens) :
    ∃ statement, state.Passes levels [statement] after := by
  have emitted : Appends between.advance after [instruction] := by
    cases last
    exact .emit between.advance instruction line
  exact passes_of_expression outermost opens read enters sameScope begins compiled (.inr rfl)
    (emitted.upcoming ▸ upcoming_of_isMark semicolon)
    (fun sound => (adds_advance sound).trans (emitted.adds (adds_advance sound).sound))
    (emitted.writes.scope.trans (scope_advance between)) isStatement

/-- In evaluation mode the semicolon may be missing at the end of the text. -/
theorem evaluatedStatement_passes
    {line : Nat}
    (outermost : state.Outermost)
    (begins : state.Begins)
    (compiled : evaluatedStatement levels state = (.ok line, after)) :
    ∃ statement, state.Passes levels [statement] after := by
  have isStatement (tokens : List TokenKind) (split : state.upcoming = tokens ++ after.upcoming) :
      IsStatement levels tokens :=
    ⟨state, after, .inr ⟨line, compiled⟩, split⟩
  have enters : Adds state state [] := .refl outermost.sound
  rcases exists_of_bind_ok compiled with ⟨_, valued, expression, closes⟩
  rcases exists_of_bind_ok closes with ⟨_, _, ⟨⟩, ends⟩
  by_cases semicolon : valued.current.kind.isMark .semicolon = true
  · rw [bind_of_ok (matchMark_of_isMark semicolon)] at ends
    cases ends
    exact passes_of_expression outermost .nothing rfl enters rfl begins expression (.inr rfl)
      (upcoming_of_isMark semicolon) adds_advance (scope_advance valued) isStatement
  · rw [bind_of_ok (matchMark_of_not_isMark semicolon)] at ends
    have same : valued = after := by
      rcases exists_of_bind_ok ends with ⟨isEnd, _, ⟨⟩, rest⟩
      split at rest
      · cases rest
        rfl
      · cases rest
    subst same
    exact passes_of_expression outermost .nothing rfl enters rfl begins expression (.inl rfl) rfl
      .refl rfl isStatement

/-- Every statement or declaration takes the tokens from the present one on. -/
theorem passes_of_plain
    (outermost : state.Outermost)
    (unfinished : ¬ state.current.kind.isEnd)
    (compiled : codeWithin levels .declaration state = (.ok (), after))
    (plain :
      ∀ rest,
        state.upcoming = (state.current.kind :: rest) ++ after.upcoming →
          ¬ takesExpression (state.current.kind :: rest) = true) :
    ∃ statement, state.Passes levels [statement] after := by
  have done := ((codeWithin_compiles levels).2 state outermost.sound
    (begins_of_not_isEnd unfinished) outermost.settled).of_ok compiled
  rcases done with ⟨⟨_, compiles⟩, declares⟩
  have paces := (codeWithin_paces levels .declaration).has state
  rw [compiled] at paces
  have fewer := (Observed.Follows.code_reads levels .declaration).reads unfinished compiled
  rcases exists_upcoming paces.tokens paces.forward fewer unfinished with ⟨rest, split⟩
  have covered : after.draft.chunk.Covers levels (state.current.kind :: rest) :=
    ⟨⟨state, after, .inl compiled, split⟩, fun takes => absurd takes (plain rest split)⟩
  exact ⟨_, .of_statement outermost compiles.adds (declares.eq_of_depth outermost.outside) split
    covered⟩

/-! ## Words that introduce an expression -/

section Words

variable {word other : Keyword} {chosen others : Compiler Unit}

theorem matchWord_declines
    (kind : state.current.kind = .keyword word)
    (differs : (word == other) = false) :
    (do
      if ← matchWord other then
        chosen
      else
        others : Compiler Unit) state = others state := by
  apply bind_matchKind_of_not
  rw [kind]
  exact differs

theorem matchWord_accepts (kind : state.current.kind = .keyword word) :
    (do
      if ← matchWord word then
        chosen
      else
        others : Compiler Unit) state = chosen state.advance := by
  have matches_ : matchWord word state = (.ok true, state.advance) := by
    unfold matchWord
    rw [matchKind_apply, if_pos]
    rw [kind]
    exact beq_self_eq_true word
  rw [bind_of_ok matches_]
  rfl

/-- A word that introduces a statement has been read. -/
theorem begins_of_word
    (kind : state.current.kind = .keyword word)
    (leadsNothing : (TokenKind.keyword word).leading? = none) :
    state.advance.Begins := by
  intro _ form leading
  rw [previous_advance (by rw [kind]; exact Bool.false_ne_true), kind, leadsNothing] at leading
  cases leading

end Words

/-- A statement that begins with `print` prints the value of an expression. -/
theorem codeWithin_of_print
    (isPrint : state.current.kind = .keyword .printWord)
    (compiled : codeWithin levels .declaration state = (.ok (), after)) :
    ∃ less,
      Inner.printStatement { operand := expressionWithin less, code := codeWithin less }
        state.advance = (.ok (), after) := by
  cases levels with
  | zero => cases compiled
  | succ levels =>
      change Inner.declarationBody _ state = _ at compiled
      unfold Inner.declarationBody at compiled
      rw [matchWord_declines isPrint rfl, matchWord_declines isPrint rfl,
        matchWord_declines isPrint rfl, matchWord_declines isPrint rfl] at compiled
      cases levels with
      | zero => cases compiled
      | succ less =>
          change Inner.statementBody _ state = _ at compiled
          unfold Inner.statementBody at compiled
          rw [matchWord_accepts isPrint] at compiled
          exact ⟨less, compiled⟩

/-- A declaration that begins with `var` declares a variable. -/
theorem codeWithin_of_var
    (isVar : state.current.kind = .keyword .varWord)
    (compiled : codeWithin levels .declaration state = (.ok (), after)) :
    ∃ less,
      Inner.variableDeclaration { operand := expressionWithin less, code := codeWithin less }
        state.advance = (.ok (), after) := by
  cases levels with
  | zero => cases compiled
  | succ less =>
      change Inner.declarationBody _ state = _ at compiled
      unfold Inner.declarationBody at compiled
      rw [matchWord_declines isVar rfl, matchWord_declines isVar rfl,
        matchWord_accepts isVar] at compiled
      exact ⟨less, compiled⟩

theorem expressionStatement_passes
    (outermost : state.Outermost)
    (unfinished : ¬ state.current.kind.isEnd)
    (isExpression : state.current.kind.beginsExpression = true)
    (compiled : codeWithin levels .declaration state = (.ok (), after)) :
    ∃ statement, state.Passes levels [statement] after := by
  rcases codeWithin_of_beginsExpression isExpression compiled with ⟨less, -, statement⟩
  rcases exists_of_bind_ok statement with ⟨_, valued, expression, closes⟩
  rcases exists_of_bind_ok closes with ⟨_, closed, consumes, pops⟩
  rcases consume_eq_ok consumes with ⟨semicolon, rfl⟩
  exact passes_of_closed outermost .nothing rfl (.refl outermost.sound) rfl
    (begins_of_not_isEnd unfinished) expression semicolon pops
    fun _ split => ⟨state, after, .inl compiled, split⟩

theorem printStatement_passes
    (outermost : state.Outermost)
    (isPrint : state.current.kind = .keyword .printWord)
    (compiled : codeWithin levels .declaration state = (.ok (), after)) :
    ∃ statement, state.Passes levels [statement] after := by
  rcases codeWithin_of_print isPrint compiled with ⟨less, statement⟩
  rcases exists_of_bind_ok statement with ⟨_, valued, expression, closes⟩
  rcases exists_of_bind_ok closes with ⟨_, closed, consumes, prints⟩
  rcases consume_eq_ok consumes with ⟨semicolon, rfl⟩
  have unfinished : ¬ state.current.kind.isEnd := by
    rw [isPrint]
    exact Bool.false_ne_true
  have read : state.upcoming = [.keyword .printWord] ++ state.advance.upcoming := by
    rw [upcoming_eq_cons unfinished, isPrint]
    rfl
  exact passes_of_closed outermost .print read (adds_advance outermost.sound)
    (scope_advance state) (begins_of_word isPrint rfl) expression semicolon prints
    fun _ split => ⟨state, after, .inl compiled, split⟩

/-- The place in the text stays where it is. -/
theorem declareVariable_upcoming (name : String) :
    Guarantees (declareVariable name) state (fun _ after => after.upcoming = state.upcoming)
      (fun _ => True) := by
  refine .bind (guarantees_look ?_)
  split
  · refine .bind (guarantees_moduleSlot (fun slot table _ => ?_) fun _ _ => trivial)
    refine .bind (.bind (guarantees_look ?_))
    split
    · exact guarantees_fail trivial
    · exact .pure (upcoming_withTable state table)
  · refine .bind (guarantees_declareLocal (fun _ => ?_) fun _ => trivial)
    exact .pure (upcoming_withScope state _)

/-- A variable is declared before the expression is read that gives it a value. -/
theorem variableDeclaration_passes
    (outermost : state.Outermost)
    (isVar : state.current.kind = .keyword .varWord)
    (compiled : codeWithin levels .declaration state = (.ok (), after)) :
    ∃ statement, state.Passes levels [statement] after := by
  rcases codeWithin_of_var isVar compiled with ⟨less, declaration⟩
  rcases exists_of_bind_ok declaration with ⟨name, _, names, named⟩
  rcases consumeIdentifier_eq_ok names with ⟨isName, rfl⟩
  rcases exists_of_bind_ok named with ⟨binding, declared, declares, continues⟩
  rcases exists_of_bind_ok continues with ⟨isGiven, between, looks, valued⟩
  have unfinished : ¬ state.current.kind.isEnd := by
    rw [isVar]
    exact Bool.false_ne_true
  have alsoUnfinished : ¬ state.advance.current.kind.isEnd := by
    rw [isName]
    exact Bool.false_ne_true
  have read : state.upcoming = [.keyword .varWord, .identifier name] ++ declared.upcoming := by
    rw [upcoming_eq_cons unfinished, upcoming_eq_cons alsoUnfinished, isVar, isName,
      (declareVariable_upcoming name).of_ok declares]
    rfl
  by_cases isEqual : declared.current.kind.isMark .equal = true
  · cases looks.symm.trans (matchMark_of_isMark isEqual)
    rcases exists_of_bind_ok valued with ⟨_, computed, expression, closes⟩
    rcases exists_of_bind_ok closes with ⟨_, closed, consumes, defines⟩
    rcases consume_eq_ok consumes with ⟨semicolon, rfl⟩
    have entered := (adds_advance outermost.sound).trans
      (adds_advance (adds_advance outermost.sound).sound)
    have scope : state.advance.advance.draft.scope = state.draft.scope := by
      rw [scope_advance, scope_advance]
    have declaring :
        Guarantees (declareVariable name) state.advance.advance
          (fun binding after => Awaits state.advance.advance after name binding)
          (fun _ => True) :=
      guarantees_declareVariable entered.sound (fun _ _ awaits => awaits) fun _ => trivial
    cases declaring.of_ok declares with
    | newLocal _ _ deep _ =>
        rw [scope, outermost.outside] at deep
        exact absurd deep (Nat.lt_irrefl 0)
    | moduleSlot adds same _ _ =>
        have all : state.upcoming =
            [.keyword .varWord, .identifier name, .punctuation .equal] ++
              declared.advance.upcoming := by
          rw [read, upcoming_of_isMark isEqual]
          rfl
        have sameScope : declared.advance.draft.scope = state.draft.scope := by
          rw [scope_advance, same, scope]
        exact passes_of_closed outermost (.variable name) all
          (entered.trans (adds.trans (adds_advance adds.sound))) sameScope
          (begins_advance isEqual) expression semicolon defines
          fun _ split => ⟨state, after, .inl compiled, split⟩
  · refine passes_of_plain outermost unfinished compiled fun rest split takes => ?_
    rw [isVar] at split takes
    rcases exists_of_takesExpression_var takes with ⟨other, more, rfl⟩
    rw [read] at split
    have unread : declared.upcoming = .punctuation .equal :: (more ++ after.upcoming) :=
      (List.cons.inj (List.cons.inj split).2).2
    rw [← startsWith_upcoming, unread] at isEqual
    exact isEqual rfl

/-- Every statement or declaration takes the tokens from the present one on. -/
theorem codeWithin_passes
    (outermost : state.Outermost)
    (unfinished : ¬ state.current.kind.isEnd)
    (compiled : codeWithin levels .declaration state = (.ok (), after)) :
    ∃ statement, state.Passes levels [statement] after := by
  by_cases isPrint : state.current.kind = .keyword .printWord
  · exact printStatement_passes outermost isPrint compiled
  by_cases isVar : state.current.kind = .keyword .varWord
  · exact variableDeclaration_passes outermost isVar compiled
  cases isExpression : state.current.kind.beginsExpression with
  | true => exact expressionStatement_passes outermost unfinished isExpression compiled
  | false =>
      refine passes_of_plain outermost unfinished compiled fun rest _ takes => ?_
      unfold takesExpression at takes
      split at takes
      · rename_i same
        exact isPrint (List.cons.inj same).1
      · rename_i same
        exact isVar (List.cons.inj same).1
      · rename_i same
        rw [← (List.cons.inj same).1] at takes
        cases isExpression.symm.trans takes
      · cases takes

/-! ## Sequences of statements -/

/-- What is still on the stack is dropped, and a statement is compiled. -/
theorem topLevel_passes
    {mode : CompileMode}
    {pending rest : Option Nat}
    {goesOn : Bool}
    (outermost : state.Outermost)
    (unfinished : ¬ state.current.kind.isEnd)
    (compiled : topLevel levels mode pending state = (.ok (goesOn, rest), after)) :
    goesOn = true ∧ ∃ statement, state.Passes levels [statement] after := by
  have following :
      ∀ dropped,
        state.Passes levels [] dropped →
        dropped.current = state.current →
        (if mode = .eval ∧ state.current.kind.beginsExpression = true then
          evaluatedStatement levels >>= fun line => pure (true, some line)
        else
          codeWithin levels .declaration >>= fun _ => pure (true, none))
          dropped = (.ok (goesOn, rest), after) →
        goesOn = true ∧ ∃ statement, state.Passes levels [statement] after := by
    intro dropped drops same continues
    have alsoUnfinished : ¬ dropped.current.kind.isEnd := by rwa [same]
    split at continues
    · rcases exists_of_bind_ok continues with ⟨line, _, evaluates, ⟨⟩⟩
      rcases evaluatedStatement_passes drops.outermost (begins_of_not_isEnd alsoUnfinished)
        evaluates with ⟨statement, passes⟩
      exact ⟨rfl, statement, drops.trans passes⟩
    · rcases exists_of_bind_ok continues with ⟨_, _, declares, ⟨⟩⟩
      rcases codeWithin_passes drops.outermost alsoUnfinished declares with ⟨statement, passes⟩
      exact ⟨rfl, statement, drops.trans passes⟩
  unfold topLevel at compiled
  rw [bind_of_ok (atEnd_apply (Bool.eq_false_of_not_eq_true unfinished))] at compiled
  cases pending with
  | none => exact following state (.refl outermost) rfl compiled
  | some line =>
      have popping := Appends.emit state .pop line
      exact following _
        (.of_adds outermost (popping.adds outermost.sound) popping.writes.scope popping.upcoming)
        rfl compiled

/-- As long as there are more rounds than tokens, all statements up to the end are compiled. -/
theorem repeatAtMost_passes
    {mode : CompileMode}
    (bound : Nat)
    {pending rest : Option Nat}
    (outermost : state.Outermost)
    (enough : state.remaining < bound)
    (compiled : repeatAtMost (topLevel levels mode) bound pending state = (.ok rest, after)) :
    ∃ statements, state.Passes levels statements after ∧ after.current.kind.isEnd := by
  induction bound generalizing state pending with
  | zero => exact absurd enough (Nat.not_lt_zero _)
  | succ bound induction =>
      rcases exists_of_bind_ok compiled with ⟨⟨goesOn, result⟩, between, round, continues⟩
      by_cases ended : state.current.kind.isEnd = true
      · rw [topLevel_of_isEnd levels mode pending ended] at round
        cases round
        cases continues
        exact ⟨[], .refl outermost, ended⟩
      · rcases topLevel_passes outermost ended round with ⟨rfl, statement, first⟩
        have fewer := (Observed.Follows.topLevel_reads levels mode pending).reads round
        rcases induction first.outermost (by omega) continues with ⟨others, rest, isEnd⟩
        exact ⟨_, first.trans rest, isEnd⟩

/-- The code of a text ends with a return; what has been written for the statements stays. -/
theorem exists_body_of_script
    {mode : CompileMode}
    {final : Compilation}
    (outermost : state.Outermost)
    (around : state.enclosing = [])
    (compiled : script levels mode state = (.ok (), final)) :
    ∃ (statements : List (List TokenKind)) (ended : Compilation) (body : Function),
      state.upcoming = statements.flatten ++ ended.upcoming ∧
        ended.current.kind.isEnd ∧
        Paces levels 2 state none ended ∧
        final.finished.back? = some body ∧
        ∀ statement ∈ statements, body.chunk.Covers levels statement := by
  rcases exists_of_bind_ok compiled with ⟨pending, ended, rounds, returns⟩
  rcases repeatAtMost_passes _ outermost (Nat.lt_succ_self _) rounds with
    ⟨statements, passes, isEnd⟩
  have paces : Paces levels 2 state none ended := by
    have reached := (outerStatements_paces levels mode).has state
    change repeatWhile (topLevel levels mode) none state = _ at rounds
    rwa [rounds] at reached
  have finishes :
      ∀ done instructions,
        Adds ended done instructions →
          (do
            let _ ← finishFunction : Compiler Unit) done = (.ok (), final) →
          ∃ body,
            final.finished.back? = some body ∧
              ∀ statement ∈ statements, body.chunk.Covers levels statement := by
    intro done instructions adds last
    rcases passes.adds with ⟨_, whole⟩
    rw [finish_of_outermost (adds.enclosing.trans (whole.enclosing.trans around))] at last
    cases last
    exact ⟨draftedFunction done, Array.back?_push ..,
      fun statement member => (passes.covered statement member).of_adds adds⟩
  have sound := passes.outermost.sound
  suffices found :
      ∃ body,
        final.finished.back? = some body ∧
          ∀ statement ∈ statements, body.chunk.Covers levels statement by
    rcases found with ⟨body, last, covered⟩
    exact ⟨statements, ended, body, passes.upcoming, isEnd, paces, last, covered⟩
  cases pending with
  | some line =>
      have leaving := Appends.emit ended .leave ended.previous.line
      exact finishes _ _ (leaving.adds sound) returns
  | none =>
      have returned :
          (emitReturn >>= fun _ => (do let _ ← finishFunction)) ended = (.ok (), final) :=
        returns
      rcases exists_of_bind_ok returned with ⟨_, done, leaves, last⟩
      rcases ((emitReturn_compiles sound passes.outermost.settled.fits.positive).of_ok leaves) with
        ⟨⟨_, left, -⟩, -⟩
      exact finishes done _ left last

end Statements

end Compiler

/--
A text that compiles is a sequence of statements and declarations, as the compiler takes them,
and the body of the text holds the code of the expressions that they drop, print or store.
-/
theorem exists_statements_of_compile
    {mode : CompileMode}
    {source : String}
    {table : Module}
    {home firstFunction : Nat}
    {functions : Array Function}
    (indexed : table.Indexed)
    (success : (compile mode source table home firstFunction).functions = .ok functions) :
    ∃ (tokens : Array Token) (statements : List (List TokenKind)) (body : Function),
      Token.scan source = .ok tokens ∧
        tokens.toList.map Token.kind = statements.flatten ++ [.endOfInput] ∧
        functions.back? = some body ∧
        ∀ statement ∈ statements, body.chunk.Covers Compiler.maxNesting statement := by
  unfold compile at success
  rcases scanned : Token.scan source with error | tokens
  · simp only [scanned] at success
    cases success
  · simp only [scanned] at success
    have names := Token.isVariableName_of_scanFrom (by simp) scanned
    have outermost : (Compiler.start tokens table home firstFunction).Outermost :=
      ⟨Compiler.sound_start indexed names home firstFunction,
        Scope.settled_reserving fun isVariable => isVariable.1 rfl, rfl⟩
    unfold Compiler.compileTokens at success
    rcases outcome : Compiler.script Compiler.maxNesting mode
      (Compiler.start tokens table home firstFunction) with ⟨error | ⟨⟩, final⟩
    · simp only [outcome] at success
      cases success
    · simp only [outcome] at success
      cases success
      rcases Compiler.exists_body_of_script outermost rfl outcome with
        ⟨statements, ended, body, split, isEnd, paces, back, covered⟩
      rcases spelled_of_scan scanned with ⟨others, last, sameTokens, spelled, closes, -⟩
      have place : ended.position = others.length := by
        refine Compiler.position_eq_of_ended spelled closes (paces.tokens.trans sameTokens) ?_ isEnd
        intro place ends
        rw [paces.tokens] at ends
        exact paces.inside place ends (Nat.zero_le _)
      have remaining : ended.upcoming = [.endOfInput] := by
        rw [Compilation.upcoming, paces.tokens, place]
        simp [Compiler.start, sameTokens, closes]
      refine ⟨tokens, statements, body, rfl, ?_, back, covered⟩
      rw [← remaining, ← split]
      rfl

end ScriptEngine
