import ScriptEngine.Compilation.Script
import ScriptEngine.Proofs.Compiler.ClassFlow

/-!
# Whole texts

At the level of the module no local variable is declared, so the stack of the
body holds slot zero alone between two statements.  In evaluation mode the
value of an expression statement stays above it until something follows.
-/

namespace ScriptEngine

open Syntax Compilation

/-- Outside all blocks nothing is declared locally. -/
theorem Scope.Declares.eq_of_depth
    {before after : Scope}
    (declares : Scope.Declares before after)
    (outside : before.depth = 0) :
    after = before := by
  obtain ⟨depth, ⟨new, split, fresh⟩, -⟩ := declares
  cases new with
  | nil =>
      obtain ⟨locals, level⟩ := after
      cases depth
      cases split
      rfl
  | cons first rest =>
      have deep := fresh first (List.mem_cons_self ..)
      omega

namespace Compiler

/-! ## Code of any depth -/

section Forms

variable {inner : Inner}

theorem guarantees_declarationWord
    {state : Compilation}
    {word : Keyword}
    {declaration others : Compiler Unit}
    (leadsNothing : (TokenKind.keyword word).leading? = none)
    (sound : state.Sound)
    (settled : state.draft.scope.Settled)
    (chosen : CompilesDeclaration declaration)
    (otherwise :
      Guarantees others state (fun _ after => DeclarationDone state after) (fun _ => True)) :
    Guarantees
      (do
        if ← matchWord word then
          declaration
        else
          others)
      state (fun _ after => DeclarationDone state after) (fun _ => True) := by
  have entered := adds_advance sound
  refine .bind (guarantees_matchWord leadsNothing (fun begins => ?_) otherwise)
  refine (chosen _ entered.sound begins (by rwa [scope_advance])).mono ?_ fun _ => id
  intro _ after done
  exact .afterwards entered (scope_advance state) done

theorem declarationBody_compiles (compiles : inner.Compiles) :
    CompilesDeclaration inner.declarationBody := by
  intro state sound begins settled
  refine guarantees_declarationWord rfl sound settled (classDeclaration_compiles compiles) ?_
  refine guarantees_declarationWord rfl sound settled (functionDeclaration_compiles compiles) ?_
  refine guarantees_declarationWord rfl sound settled (variableDeclaration_compiles compiles) ?_
  refine guarantees_declarationWord rfl sound settled importDeclaration_compiles ?_
  refine (compiles.statement state sound begins settled).mono ?_ fun _ => id
  intro _ after done
  exact done.declaration settled

end Forms

theorem expressionWithin_compiles (levels : Nat) :
    CompilesExpression (whole (expressionWithin levels)) :=
  expression_compiles (expressionWithin_agrees levels) (read_sound levels)

/-- Statements and declarations of any depth are typed. -/
theorem codeWithin_compiles (levels : Nat) :
    CompilesStatement (codeWithin levels .statement) ∧
      CompilesDeclaration (codeWithin levels .declaration) := by
  induction levels with
  | zero => exact ⟨fun _ _ _ _ => guarantees_failAtCurrent trivial,
      fun _ _ _ _ => guarantees_failAtCurrent trivial⟩
  | succ levels induction =>
      have inside :
          Inner.Compiles { operand := expressionWithin levels, code := codeWithin levels } :=
        ⟨expressionWithin_compiles levels, induction.1, induction.2⟩
      exact ⟨statementBody_compiles inside, declarationBody_compiles inside⟩

/-! ## The body of a module -/

/-- The statements of a text so far, and the value that is still on the stack. -/
def BodyDone (start : Compilation) (pending : Option Nat) (between : Compilation) : Prop :=
  (∃ instructions,
    Compiles start between start.height instructions
      (start.height + if pending.isSome then 1 else 0)) ∧
    between.draft.scope = start.draft.scope

theorem evaluatedStatement_compiles
    (levels : Nat)
    {state : Compilation}
    (sound : state.Sound)
    (begins : state.Begins)
    (settled : state.draft.scope.Settled) :
    Guarantees (evaluatedStatement levels) state
      (fun line after => BodyDone state (some line) after) (fun _ => True) := by
  refine .bind ((expressionWithin_compiles levels state _ sound begins settled.fits).mono ?_
    fun _ => id)
  rintro - valued ⟨⟨instructions, value⟩, scope⟩
  refine .bind (guarantees_look ?_)
  refine .bind (guarantees_matchKind (fun _ => ?_) fun _ => ?_)
  · have closed := value.silently (adds_advance value.adds.sound)
    exact .pure ⟨⟨instructions, closed⟩, by rw [scope_advance, scope]⟩
  · refine .bind (guarantees_look ?_)
    split
    · exact .pure ⟨⟨instructions, value⟩, scope⟩
    · exact .bind (guarantees_failAtCurrent trivial)

theorem topLevel_compiles
    (levels : Nat)
    (mode : CompileMode)
    {start between : Compilation}
    {pending : Option Nat}
    (settled : start.draft.scope.Settled)
    (outside : start.draft.scope.depth = 0)
    (done : BodyDone start pending between) :
    Guarantees (topLevel levels mode pending) between
      (fun result after => BodyDone start result.2 after) (fun _ => True) := by
  have positive : 0 < start.height := settled.fits.positive
  -- Nothing but slot zero is on the stack, and something follows.
  have following :
      ∀ dropped,
        BodyDone start none dropped →
        dropped.Begins →
          Guarantees
            (do
              if mode = .eval ∧ (← atExpressionStatement) then
                return (true, some (← evaluatedStatement levels))
              else
                codeWithin levels .declaration
                return (true, none))
            dropped (fun result after => BodyDone start result.2 after) (fun _ => True) := by
    rintro dropped ⟨⟨instructions, code⟩, scope⟩ begins
    have sound := code.adds.sound
    have droppedSettled : dropped.draft.scope.Settled := by rwa [scope]
    have height_eq := height_of_scope scope
    refine .bind (guarantees_look ?_)
    split
    · refine .bind ((evaluatedStatement_compiles levels sound begins droppedSettled).mono ?_
        fun _ => id)
      rintro line after ⟨⟨more, value⟩, afterScope⟩
      rw [height_eq] at value
      exact .pure ⟨⟨_, code.append value⟩, afterScope.trans scope⟩
    · refine .bind (((codeWithin_compiles levels).2 dropped sound begins droppedSettled).mono ?_
        fun _ => id)
      rintro - after ⟨⟨more, statement⟩, declares⟩
      have afterScope := declares.eq_of_depth (by rw [scope, outside])
      rw [height_of_scope afterScope, height_eq] at statement
      exact .pure ⟨⟨_, code.append statement⟩, afterScope.trans scope⟩
  refine .bind (guarantees_look ?_)
  split
  · exact .pure done
  · rename_i unfinished
    have begins := begins_of_not_isEnd unfinished
    cases pending with
    | none => exact following between done begins
    | some line =>
        obtain ⟨⟨instructions, code⟩, scope⟩ := done
        refine .bind (guarantees_emitOn ?_)
        have popping := Appends.emit between .pop line
        refine following _ ⟨⟨_, code.appendLeads popping (popLeads _ positive)⟩, ?_⟩
          (popping.begins begins)
        exact popping.writes.scope.trans scope

theorem finishFunction_of_outermost
    {state : Compilation}
    (outermost : state.enclosing = []) :
    finishFunction state =
      (.ok (state.firstFunction + state.finished.size), resumed state state) := by
  obtain ⟨tokens, position, table, home, draft, enclosing, firstFunction, finished⟩ := state
  cases outermost
  rfl

/-- The text has been compiled: every function is well typed, the last one is the body. -/
structure ScriptDone (start final : Compilation) : Prop where
  sound : final.Sound
  firstFunction : final.firstFunction = start.firstFunction
  nonempty : 0 < final.finished.size
  /-- No function has the body among its constants. -/
  earlier :
    ∀ function ∈ final.finished,
      ∀ value ∈ function.chunk.constants,
        value.IsConstant fun id => id + 1 < start.firstFunction + final.finished.size

theorem script_compiles
    (levels : Nat)
    (mode : CompileMode)
    {start : Compilation}
    (sound : start.Sound)
    (settled : start.draft.scope.Settled)
    (outside : start.draft.scope.depth = 0)
    (blank : start.written = [])
    (counted : start.height = start.draft.arity + 1)
    (outermost : start.enclosing = []) :
    Guarantees (script levels mode) start (fun _ final => ScriptDone start final)
      (fun _ => True) := by
  have positive : 0 < start.height := settled.fits.positive
  -- The code ends with a return of a value or without one.
  have finish :
      ∀ instructions done,
        Adds start done instructions →
        Ends done.context start.height instructions →
          Guarantees
            (do
              let _ ← finishFunction)
            done (fun _ final => ScriptDone start final) (fun _ => True) := by
    intro instructions done added ends
    have wellTyped := wellTyped_draftedFunction blank counted added ends
    have final := adds_resumed added.sound added.sound rfl (Nat.le_refl _) (List.prefix_refl _)
      wellTyped
    have nonempty : 0 < (resumed done done).finished.size := by
      rw [resumed, Array.size_push]
      exact Nat.succ_pos _
    have enclosing : done.enclosing = [] := added.enclosing.trans outermost
    have known :
        ∀ id,
          done.Knows id → id + 1 < start.firstFunction + (resumed done done).finished.size := by
      rintro id ⟨-, bound⟩
      rw [← added.firstFunction, resumed, Array.size_push]
      omega
    have earlier :
        ∀ function ∈ (resumed done done).finished,
          ∀ value ∈ function.chunk.constants,
            value.IsConstant fun id =>
              id + 1 < start.firstFunction + (resumed done done).finished.size := by
      intro function member value isConstant
      rcases Array.mem_push.mp member with old | rfl
      · exact ((added.sound.finished function old).constants value isConstant).mono known
      · exact (added.sound.constants value isConstant).mono known
    refine .bind ?_
    unfold Guarantees
    rw [finishFunction_of_outermost enclosing]
    exact ScriptDone.mk final.sound added.firstFunction nonempty earlier
  refine .bind ((guarantees_repeatInvariant (BodyDone start)
    ⟨⟨[], .refl sound, .nil _ _⟩, rfl⟩
    fun _ _ done => topLevel_compiles levels mode settled outside done).mono ?_ fun _ => id)
  rintro pending between ⟨⟨instructions, code⟩, scope⟩
  cases pending with
  | some line =>
      refine .bind (guarantees_append fun done leaving => ?_)
      have left := leaving.adds code.adds.sound
      exact finish _ done (code.adds.trans left)
        ((Ends.leave (Nat.succ_lt_succ positive)).prepend (code.leads.extend left.context))
  | none =>
      refine .bind ((emitReturn_compiles code.adds.sound positive).mono ?_ fun _ => id)
      rintro - done ⟨⟨returns, left, ends⟩, -⟩
      exact finish _ done (code.adds.trans left)
        (ends.prepend (code.leads.extend left.context))

end Compiler

end ScriptEngine
