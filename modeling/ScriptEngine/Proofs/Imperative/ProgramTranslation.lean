import ScriptEngine.Proofs.Compiler.Verification
import ScriptEngine.Proofs.Imperative.LoopTranslation

/-!
# Whole programs are compiled to their code

The compiler is followed along the grammar of programs.  The first token of a
statement decides which routine compiles it, and the declarations of a block or a
text are compiled one after the other until a token ends them.
-/

namespace ScriptEngine

open Syntax Imperative Compilation

/-! ## First tokens -/

/-- Whether a token can begin a statement of a program. -/
def TokenKind.beginsStatement : TokenKind → Bool
  | keyword .printWord | keyword .ifWord | keyword .whileWord | keyword .forWord
  | punctuation .leftBrace => true
  | kind => kind.leading?.isSome

theorem TokenKind.beginsStatement_of_leading
    {kind : TokenKind}
    (leads : kind.leading? ≠ none) :
    kind.beginsStatement = true := by
  unfold beginsStatement
  split
  · rfl
  · rfl
  · rfl
  · rfl
  · rfl
  · exact Option.isSome_iff_ne_none.mpr leads

namespace Imperative

theorem Expr.Spelled.leads
    {value : Imperative.Expr}
    {tokens : List TokenKind}
    (spelled : value.Spelled tokens) :
    ∃ kind following, tokens = kind :: following ∧ kind.leading? ≠ none :=
  exists_leading_of_derives spelled

namespace Reads

variable {form : Form} {tokens rest : List TokenKind} {code : Stmt}

theorem beginsStatement (read : Reads .statement tokens code rest) :
    ∃ kind following, tokens = kind :: following ∧ kind.beginsStatement = true := by
  cases read with
  | expression spelled =>
      rcases spelled.leads with ⟨kind, following, rfl, leads⟩
      exact ⟨kind, _, rfl, TokenKind.beginsStatement_of_leading leads⟩
  | print | block | conditional | alternative | loop | counted => exact ⟨_, _, rfl, rfl⟩

theorem beginsDeclaration (read : Reads .declaration tokens code rest) :
    ∃ kind following,
      tokens = kind :: following ∧
        (kind = .keyword .varWord ∨ kind.beginsStatement = true) := by
  cases read with
  | declare | initialized => exact ⟨_, _, rfl, .inl rfl⟩
  | statement read =>
      rcases read.beginsStatement with ⟨kind, following, rfl, begins⟩
      exact ⟨kind, following, rfl, .inr begins⟩

/-- Fewest tokens of a form. -/
def fewest : Form → Nat
  | .declarations => 0
  | .declaration | .statement | .initializer => 1

theorem length_le (read : Reads form tokens code rest) :
    rest.length + fewest form ≤ tokens.length := by
  induction read with
  | nothing => exact Nat.le_refl _
  | followed _ _ first others =>
      simp only [fewest] at first others ⊢
      omega
  | declare | uninitialized =>
      simp only [fewest, List.length_cons]
      omega
  | initialized | print | expression | evaluated =>
      simp only [fewest, List.length_append, List.length_cons]
      omega
  | statement _ induction | declared _ induction => exact induction
  | block _ induction =>
      simp only [fewest, List.length_cons] at induction ⊢
      omega
  | conditional _ _ _ induction | loop _ _ induction =>
      simp only [fewest, List.length_append, List.length_cons] at induction ⊢
      omega
  | alternative _ _ _ first second =>
      simp only [fewest, List.length_append, List.length_cons] at first second ⊢
      omega
  | counted _ condition increment _ first second =>
      cases condition <;> cases increment <;>
        simp only [fewest, List.length_append, List.length_cons] at first second ⊢ <;> omega

end Reads

end Imperative

namespace Compiler

/-! ## Choices -/

section Choices

variable
  {form : Form}
  {kind : TokenKind}
  {test : TokenKind → Bool}
  {tokens rest : List TokenKind}
  {code : Stmt}
  {chosen others : Compiler Unit}

theorem translates_chosen
    (passes : test kind = true)
    (unfinished : kind.isEnd = false)
    (translates : Translates chosen form tokens code rest) :
    Translates
      (do
        if ← matchKind test then
          chosen
        else
          others)
      form (kind :: tokens) code rest := by
  intro state ready settled upcoming
  have entered := Progress.advance ready
  refine .bind (guarantees_accept upcoming passes unfinished fun tail => ?_)
  refine (translates _ (entered.ready ready) (by rwa [scope_advance]) tail).mono ?_ fun _ => id
  intro _ after done
  exact .afterwards entered (scope_advance state) done

theorem translates_others
    (fails : test kind = false)
    (translates : Translates others form (kind :: tokens) code rest) :
    Translates
      (do
        if ← matchKind test then
          chosen
        else
          others)
      form (kind :: tokens) code rest := by
  intro state ready settled upcoming
  exact .bind (guarantees_decline upcoming fails (translates state ready settled upcoming))

end Choices

theorem Done.loosened
    {form : Form}
    {code : Stmt}
    {rest : List TokenKind}
    {before after : Compilation}
    (done : Done .statement code rest before after)
    (settled : before.draft.scope.Settled) :
    Done form code rest before after := by
  rcases done with ⟨upcoming, same, coded⟩
  refine ⟨upcoming, ?_, coded⟩
  change after.draft.scope = before.draft.scope at same
  rw [same]
  cases form with
  | statement => rfl
  | declarations | declaration | initializer => exact .refl settled

theorem Translates.loosened
    {step : Compiler Unit}
    {form : Form}
    {tokens rest : List TokenKind}
    {code : Stmt}
    (translates : Translates step .statement tokens code rest) :
    Translates step form tokens code rest := by
  intro state ready settled upcoming
  exact (translates state ready settled upcoming).mono (fun _ _ done => done.loosened settled)
    fun _ => id

/-! ## Forms -/

/-- What the compiler does with the tokens of a form. -/
def FormTranslates (levels : Nat) (form : Form) (tokens : List TokenKind) (code : Stmt)
    (rest : List TokenKind) : Prop :=
  match form with
  | .declarations => TranslatesAll levels tokens code rest
  | .declaration =>
    Translates (codeWithin levels .declaration) .declaration tokens code rest
  | .statement => Translates (codeWithin levels .statement) .statement tokens code rest
  | .initializer =>
    Translates (innerOf levels).forInitializer .initializer tokens code rest

section Forms

variable {levels : Nat} {tokens rest : List TokenKind} {code : Stmt}

theorem statement_translates
    (body :
      ∀ levels, Translates (innerOf levels).statementBody .statement tokens code rest) :
    Translates (codeWithin levels .statement) .statement tokens code rest := by
  cases levels with
  | zero => exact fun _ _ _ _ => guarantees_failAtCurrent trivial
  | succ levels => exact body levels

theorem declaration_translates
    (body :
      ∀ levels, Translates (innerOf levels).declarationBody .declaration tokens code rest) :
    Translates (codeWithin levels .declaration) .declaration tokens code rest := by
  cases levels with
  | zero => exact fun _ _ _ _ => guarantees_failAtCurrent trivial
  | succ levels => exact body levels

theorem expressionStatement_translates
    {value : Imperative.Expr}
    (spelled : value.Spelled tokens) :
    Translates (innerOf levels).expressionStatement .statement
      (tokens ++ .punctuation .semicolon :: rest) (.expression value) rest :=
  guarantees_taken .expression spelled

theorem variable_translates
    {name : Name}
    {initializer : Option Imperative.Expr}
    (initial : InitialTokens tokens initializer rest) :
    Translates (innerOf levels).declarationBody .declaration
      (.keyword .varWord :: name.token :: tokens) (.declare name initializer) rest :=
  translates_others rfl (translates_others rfl
    (translates_chosen rfl rfl (variableDeclaration_translates initial)))

theorem statementAsDeclaration_translates
    (read : Reads .statement tokens code rest)
    (translates : ∀ levels, FormTranslates levels .statement tokens code rest) :
    Translates (innerOf levels).declarationBody .declaration tokens code rest := by
  rcases read.beginsStatement with ⟨kind, following, rfl, begins⟩
  have notDeclaration :
      ∀ word ∈ [Keyword.classWord, .funWord, .varWord, .importWord],
        kind.isWord word = false := by
    cases kind with
    | keyword found => cases found <;> first | decide | cases begins
    | _ => exact fun _ _ => rfl
  refine translates_others (notDeclaration _ (by decide)) ?_
  refine translates_others (notDeclaration _ (by decide)) ?_
  refine translates_others (notDeclaration _ (by decide)) ?_
  refine translates_others (notDeclaration _ (by decide)) ?_
  exact (translates levels).loosened

theorem expressionAsStatement_translates
    {value : Imperative.Expr}
    (spelled : value.Spelled tokens) :
    Translates (innerOf levels).statementBody .statement
      (tokens ++ .punctuation .semicolon :: rest) (.expression value) rest := by
  have translates : Translates (innerOf levels).expressionStatement .statement
      (tokens ++ .punctuation .semicolon :: rest) (.expression value) rest :=
    expressionStatement_translates spelled
  rcases spelled.leads with ⟨kind, following, rfl, leads⟩
  have notStatement :
      ∀ word ∈ [Keyword.printWord, .ifWord, .whileWord, .forWord, .returnWord],
        kind.isWord word = false := by
    cases kind with
    | keyword found => cases found <;> first | decide | exact absurd rfl leads
    | _ => exact fun _ _ => rfl
  have notBlock : kind.isMark .leftBrace = false := by
    cases kind with
    | punctuation found => cases found <;> first | rfl | exact absurd rfl leads
    | _ => rfl
  refine translates_others (notStatement _ (by decide)) ?_
  refine translates_others (notStatement _ (by decide)) ?_
  refine translates_others (notStatement _ (by decide)) ?_
  refine translates_others (notStatement _ (by decide)) ?_
  refine translates_others (notStatement _ (by decide)) ?_
  exact translates_others notBlock translates

theorem initializer_translates
    (read : Reads .initializer tokens code rest) :
    Translates (innerOf levels).forInitializer .initializer tokens code rest := by
  have declared :
      ∀ {name : Name} {initializer : Option Imperative.Expr} {tokens : List TokenKind},
        InitialTokens tokens initializer rest →
          Translates (innerOf levels).forInitializer .initializer
            (.keyword .varWord :: name.token :: tokens) (.declare name initializer) rest := by
    intro name initializer tokens initial
    refine translates_others rfl (translates_chosen rfl rfl ?_)
    intro state ready settled upcoming
    refine (variableDeclaration_translates initial state ready settled upcoming).mono ?_ fun _ => id
    rintro - after ⟨unread, declares, coded⟩
    exact ⟨unread, declares, coded⟩
  cases read with
  | uninitialized =>
      refine translates_chosen rfl rfl ?_
      intro state ready settled upcoming
      exact .pure ⟨upcoming, .refl settled, [], .refl ready, fun _ _ => .nothing⟩
  | declared read =>
      cases read with
      | declare => exact declared .absent
      | initialized spelled => exact declared (.present spelled)
      | statement read =>
          rcases read.beginsStatement with ⟨kind, following, same, begins⟩
          cases same
          cases begins
  | @evaluated value tokens _ spelled =>
      have translates : Translates (innerOf levels).expressionStatement .statement
          (tokens ++ .punctuation .semicolon :: rest) (.expression value) rest :=
        expressionStatement_translates spelled
      rcases spelled.leads with ⟨kind, following, rfl, leads⟩
      refine translates_others ?_ (translates_others ?_ translates.loosened)
      · cases kind with
        | punctuation found => cases found <;> first | rfl | exact absurd rfl leads
        | _ => rfl
      · cases kind with
        | keyword found => cases found <;> first | rfl | exact absurd rfl leads
        | _ => rfl

/-! ## Declarations one after the other -/

theorem nothing_translates : TranslatesAll levels rest .nothing rest := by
  intro α ends round value isRound _ stops bound state ready settled upcoming enough
  rcases stops with ⟨kind, isHead, ended⟩
  cases bound with
  | zero => cases enough
  | succ bound =>
      have current : ends state.current.kind = true := by
        cases rest with
        | nil => cases isHead
        | cons first others =>
            cases isHead
            rw [kind_current_of_upcoming upcoming, ended]
      unfold repeatAtMost
      rw [isRound]
      refine .bind (.bind (guarantees_look ?_))
      rw [if_pos current]
      exact .pure ⟨rfl, upcoming, .refl settled, [], .refl ready, fun _ _ => .nothing⟩

theorem followed_translates
    {between : List TokenKind}
    {first others : Stmt}
    (read : Reads .declaration tokens first between)
    (firstTranslates : FormTranslates levels .declaration tokens first between)
    (othersTranslate : FormTranslates levels .declarations between others rest) :
    TranslatesAll levels tokens (.followed first others) rest := by
  intro α ends round value isRound only stops bound state ready settled upcoming enough
  have shorter := read.length_le
  simp only [Reads.fewest] at shorter
  cases bound with
  | zero => cases enough
  | succ bound =>
      have unfinished : ends state.current.kind = false := by
        rcases read.beginsDeclaration with ⟨kind, following, rfl, begins⟩
        rw [kind_current_of_upcoming upcoming, Bool.eq_false_iff]
        intro ended
        rcases only kind ended with rfl | rfl
        · rcases begins with impossible | impossible <;> cases impossible
        · rcases begins with impossible | impossible <;> cases impossible
      unfold repeatAtMost
      rw [isRound]
      refine .bind (.bind (guarantees_look ?_))
      rw [unfinished]
      refine .bind ((firstTranslates state ready settled upcoming).mono ?_ fun _ => id)
      rintro - after ⟨afterUpcoming, declares, firstCode, firstProgress, firstCoded⟩
      refine .pure ?_
      change Scope.Declares _ after.draft.scope at declares
      refine (othersTranslate ends round value isRound only stops bound after
        (firstProgress.ready ready) (declares.settled settled) afterUpcoming (by omega)).mono
        ?_ fun _ => id
      rintro result final ⟨same, unread, more, othersCode, othersProgress, othersCoded⟩
      refine ⟨same, unread, declares.trans more, _, firstProgress.trans othersProgress, ?_⟩
      intro book within
      exact .followed (firstCoded book (othersProgress.within.trans within))
        (othersCoded book within)

/-- The compiler writes the code of whatever it is given, up to the end of the form. -/
theorem translates_of_reads
    {form : Form}
    (read : Reads form tokens code rest)
    (levels : Nat) :
    FormTranslates levels form tokens code rest := by
  induction read generalizing levels with
  | nothing => exact nothing_translates
  | followed firstRead _ first others =>
      exact followed_translates firstRead (first levels) (others levels)
  | declare => exact declaration_translates fun _ => variable_translates .absent
  | initialized spelled =>
      exact declaration_translates fun _ => variable_translates (.present spelled)
  | statement read translates =>
      exact declaration_translates fun _ => statementAsDeclaration_translates read translates
  | print spelled =>
      exact statement_translates fun _ =>
        translates_chosen rfl rfl (guarantees_taken .print spelled)
  | expression spelled =>
      exact statement_translates fun _ => expressionAsStatement_translates spelled
  | block _ translates =>
      refine statement_translates fun inner => ?_
      refine translates_others rfl (translates_others rfl (translates_others rfl
        (translates_others rfl (translates_others rfl (translates_chosen rfl rfl ?_)))))
      exact block_translates (translates inner)
  | conditional spelled _ unfollowed translates =>
      refine statement_translates fun inner => translates_others rfl (translates_chosen rfl rfl ?_)
      exact ifStatement_translates spelled (translates inner) (.absent unfollowed)
  | alternative spelled _ _ translates otherwise =>
      refine statement_translates fun inner => translates_others rfl (translates_chosen rfl rfl ?_)
      exact ifStatement_translates spelled (translates inner) (.present rfl (otherwise inner))
  | loop spelled _ translates =>
      refine statement_translates fun inner => translates_others rfl (translates_others rfl
        (translates_chosen rfl rfl ?_))
      exact whileStatement_translates spelled (translates inner)
  | counted initializerRead condition increment _ _ translates =>
      refine statement_translates fun inner => translates_others rfl (translates_others rfl
        (translates_others rfl (translates_chosen rfl rfl ?_)))
      exact forStatement_translates (initializer_translates initializerRead) condition increment
        (translates inner)
  | uninitialized => exact initializer_translates .uninitialized
  | declared read => exact initializer_translates (.declared read)
  | evaluated spelled => exact initializer_translates (.evaluated spelled)

end Forms

/-! ## Whole texts -/

theorem guarantees_emitReturn
    {state : Compilation}
    {onSuccess : Unit → Compilation → Prop}
    (ready : state.Ready)
    (success :
      ∀ after,
        Progress state after [.pushNull, .leave] →
        after.resources = state.resources →
          onSuccess () after) :
    Guarantees emitReturn state onSuccess (fun _ => True) := by
  refine .bind (guarantees_look ?_)
  rw [if_neg (by rw [ready.isScript]; nofun)]
  refine .bind (guarantees_append fun pushed pushing => ?_)
  refine guarantees_append fun after leaving => ?_
  exact success after (.of_appends (pushing.trans leaving) ready)
    (leaving.resources.trans pushing.resources)

/-- The last function that has been finished is the body of a program. -/
def FinishesBody (program : Stmt) (home : Nat) (final : Compilation) : Prop :=
  ∃ function,
    final.finished.back? = some function ∧ program.IsBodyOf function final.table home

theorem script_translates
    {program : Stmt}
    {tokens : List TokenKind}
    {start : Compilation}
    (levels : Nat)
    (read : Reads .declarations tokens program [.endOfInput])
    (ready : start.Ready)
    (upcoming : start.upcoming = tokens)
    (scope : start.draft.scope = Scope.reserving "")
    (arity : start.draft.arity = 0)
    (blank : start.written = []) :
    Guarantees (script levels .run) start
      (fun _ final => FinishesBody program start.home final) (fun _ => True) := by
  have settled : start.draft.scope.Settled := by
    rw [scope]
    exact Scope.settled_reserving fun isVariable => isVariable.1 rfl
  have rounds := translates_of_reads read levels TokenKind.isEnd (topLevel levels .run) none rfl
    (fun kind isEnd => by cases kind <;> simp_all [TokenKind.isEnd]) ⟨_, rfl, rfl⟩
    (start.remaining + 1) start ready settled upcoming
    (by rw [← upcoming, length_upcoming]; exact Nat.lt_succ_self _)
  refine .bind (rounds.mono ?_ fun _ => id)
  rintro pending between ⟨rfl, -, declares, code, progress, coded⟩
  have sameScope := Scope.Declares.eq_of_depth declares (by rw [scope]; rfl)
  refine .bind (guarantees_emitReturn (progress.ready ready) fun done returning resources => ?_)
  have whole := progress.trans returning
  have frame := whole.frame
  refine .bind ?_
  unfold Guarantees
  rw [finishFunction_of_outermost (whole.ready ready).outermost]
  refine ⟨draftedFunction done, Array.back?_push, ?_, ?_, code, ?_, ?_⟩
  · exact (congrArg (fun state => state.draft.arity) frame).trans arity
  · exact congrArg (fun state => state.home) frame
  · have bytes := whole.written
    rwa [blank, List.nil_append] at bytes
  · have final := coded done.resources (by rw [resources]; exact .refl _)
    rwa [sameScope, scope] at final

/-- The body of a text that is accepted is the code of the program in it. -/
theorem isBody_of_compile
    {program : Stmt}
    {source : String}
    {table : Module}
    {home firstFunction : Nat}
    {functions : Array Function}
    (written : program.IsWrittenAs source)
    (indexed : table.Indexed)
    (success : (compile .run source table home firstFunction).functions = .ok functions) :
    ∃ function,
      functions.back? = some function ∧
        program.IsBodyOf function (compile .run source table home firstFunction).table home := by
  rcases written with ⟨tokens, scanned, read⟩
  have ready : (start tokens table home firstFunction).Ready :=
    ⟨⟨Chunk.remembers_empty, indexed⟩, rfl, rfl⟩
  have translates := script_translates maxNesting read ready rfl rfl rfl rfl
  unfold compile compileTokens at success ⊢
  rw [scanned] at success ⊢
  rcases outcome : script maxNesting .run (start tokens table home firstFunction) with
    ⟨error | _, final⟩
  · simp only [outcome] at success
    cases success
  · simp only [outcome] at success ⊢
    cases success
    exact translates.of_ok outcome

end Compiler

end ScriptEngine
