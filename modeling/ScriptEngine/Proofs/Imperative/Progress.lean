import ScriptEngine.Proofs.Compiler.ExpressionLanguage
import ScriptEngine.Proofs.Compiler.StatementFlow
import ScriptEngine.Proofs.Imperative.Code

/-!
# Compiling known tokens

The compiler decides by the next token.  Here the tokens are known, and so is what
the compiler does with them: the rules of this module say so for the single token,
for an expression and for the jumps around other code.  `Progress` says what a part
of a compilation has written.
-/

namespace ScriptEngine

open Syntax Imperative

namespace Compilation

/-- Instructions have been written; constants and module variables stay where they are. -/
structure Progress (before after : Compilation) (instructions : List Instruction) : Prop where
  frame : after.frame = before.frame
  sound : after.resources.Sound
  within : before.resources.Within after.resources
  written : after.written = before.written ++ Instruction.encode instructions

/-- The body of a module is being compiled. -/
structure Ready (state : Compilation) : Prop where
  sound : state.resources.Sound
  isScript : state.draft.role = .script
  outermost : state.enclosing = []

namespace Progress

variable {before between after : Compilation} {first second : List Instruction}

theorem refl (ready : before.Ready) : Progress before before [] :=
  ⟨rfl, ready.sound, .refl _, by simp⟩

theorem trans (start : Progress before between first) (rest : Progress between after second) :
    Progress before after (first ++ second) where
  frame := rest.frame.trans start.frame
  sound := rest.sound
  within := start.within.trans rest.within
  written := by
    rw [rest.written, start.written, Instruction.encode_append, List.append_assoc]

/-- A step that writes nothing. -/
theorem silently (start : Progress before between first) (rest : Progress between after []) :
    Progress before after first := by
  simpa using start.trans rest

theorem ready (progress : Progress before after first) (ready : before.Ready) : after.Ready where
  sound := progress.sound
  isScript := (congrArg (fun state => state.draft.role) progress.frame).trans ready.isScript
  outermost := (congrArg (fun state => state.enclosing) progress.frame).trans ready.outermost

theorem of_writes
    (writes : Writes before after first)
    (sound : after.resources.Sound)
    (within : before.resources.Within after.resources) :
    Progress before after first where
  frame := by
    have same := congrArg (fun state => state.frame) writes.skeleton
    simpa [Compilation.frame, Compilation.skeleton] using same
  sound := sound
  within := within
  written := writes.written

theorem of_appends (appends : Appends before after first) (ready : before.Ready) :
    Progress before after first := by
  refine of_writes appends.writes ?_ ?_
  · rw [appends.resources]
    exact ready.sound
  · rw [appends.resources]
    exact .refl _

theorem advance {state : Compilation} (ready : state.Ready) :
    Progress state state.advance [] := by
  refine of_writes (.advance state) ?_ ?_
  · rw [resources_advance]
    exact ready.sound
  · rw [resources_advance]
    exact .refl _

theorem withScope {state : Compilation} (ready : state.Ready) (scope : Scope) :
    Progress state (state.withScope scope) [] where
  frame := rfl
  sound := ready.sound
  within := .refl _
  written := by
    rw [Instruction.encode_nil, List.append_nil]
    rfl

end Progress

theorem Ready.surroundings {state : Compilation} (ready : state.Ready) :
    state.surroundings = { scope := state.draft.scope, enclosing := [], role := .script } := by
  rw [Compilation.surroundings, ready.isScript, ready.outermost]

theorem kind_current_of_upcoming
    {state : Compilation}
    {kind : TokenKind}
    {rest : List TokenKind}
    (upcoming : state.upcoming = kind :: rest) :
    state.current.kind = kind := by
  rw [kind_current, upcoming, List.headD_cons]

end Compilation

namespace Compiler

open Compilation

section Tokens

variable {state : Compilation} {kind : TokenKind} {rest : List TokenKind}

/-- The next token passes a test and is read. -/
theorem guarantees_accept
    {test : TokenKind → Bool}
    {onSuccess : Bool → Compilation → Prop}
    (upcoming : state.upcoming = kind :: rest)
    (passes : test kind = true)
    (unfinished : kind.isEnd = false)
    (holds : state.advance.upcoming = rest → onSuccess true state.advance) :
    Guarantees (matchKind test) state onSuccess (fun _ => True) := by
  refine guarantees_matchKind (fun _ => ?_) fun fails => ?_
  · exact holds (upcoming_advance (by simp [unfinished]) upcoming)
  · rw [kind_current_of_upcoming upcoming] at fails
    exact absurd passes fails

/-- The next token does not pass a test and is not read. -/
theorem guarantees_decline
    {test : TokenKind → Bool}
    {onSuccess : Bool → Compilation → Prop}
    (upcoming : state.upcoming = kind :: rest)
    (fails : test kind = false)
    (holds : onSuccess false state) :
    Guarantees (matchKind test) state onSuccess (fun _ => True) := by
  refine guarantees_matchKind (fun passes => ?_) fun _ => holds
  rw [kind_current_of_upcoming upcoming, fails] at passes
  cases passes

theorem guarantees_consumeMark
    {mark : Punctuation}
    {what : String}
    {onSuccess : Unit → Compilation → Prop}
    (upcoming : state.upcoming = .punctuation mark :: rest)
    (holds : state.advance.upcoming = rest → onSuccess () state.advance) :
    Guarantees (consume mark what) state onSuccess (fun _ => True) :=
  .bind (guarantees_accept upcoming (beq_self_eq_true mark) rfl holds)

end Tokens

theorem endsExpression_semicolon (rest : List TokenKind) :
    EndsExpression (.punctuation .semicolon :: rest) :=
  ⟨nofun, rfl⟩

theorem endsExpression_rightParen (rest : List TokenKind) :
    EndsExpression (.punctuation .rightParen :: rest) :=
  ⟨nofun, rfl⟩

/-- An expression whose tokens are known is compiled, and nothing but it. -/
theorem guarantees_spelled
    {levels : Nat}
    {state : Compilation}
    {value : Imperative.Expr}
    {tokens rest : List TokenKind}
    {onSuccess : Unit → Compilation → Prop}
    (ready : state.Ready)
    (spelled : value.Spelled tokens)
    (ends : EndsExpression rest)
    (upcoming : state.upcoming = tokens ++ rest)
    (success :
      ∀ after code,
        Progress state after code →
        (∀ book, after.resources.Within book → value.Coded book state.draft.scope code) →
        after.upcoming = rest →
        after.draft.scope = state.draft.scope →
          onSuccess () after) :
    Guarantees (whole (expressionWithin levels)) state onSuccess (fun _ => True) := by
  have begins : state.Begins := by
    rcases exists_leading_of_derives spelled with ⟨kind, following, rfl, leads⟩
    apply begins_of_not_isEnd
    rw [kind_current_of_upcoming upcoming]
    cases kind <;> simp_all [TokenKind.isEnd, TokenKind.leading?]
  refine (expressionWithin_agrees levels .assignment state).mono ?_ fun _ _ => trivial
  rintro - after ⟨tree, ⟨code, generated, writes⟩, reads⟩
  have found := reads begins
  rw [upcoming] at found
  have decided : read levels .assignment (tokens ++ rest) ≠ .exhausted := by
    rw [found]
    intro impossible
    cases impossible
  have expected := read_of_derives spelled (stops_assignment_iff.mpr ends) decided
  rw [found] at expected
  injection expected with isTree isRest
  subst isTree
  rw [ready.surroundings] at generated
  have coded := value.code_generated ready.sound generated
  exact success after code (.of_writes writes coded.sound coded.within) coded.coded isRest
    writes.scope

section Jumps

variable {before state : Compilation}

/-- Closing a jump among instructions that have been written. -/
theorem guarantees_closeProgress
    (jump : ForwardJump)
    (earlier skipped : List Instruction)
    {place : Nat}
    {onSuccess : Unit → Compilation → Prop}
    (opened : Progress before state (earlier ++ jump.past Chunk.openDistance :: skipped))
    (located : place = before.written.length + Instruction.totalLength earlier)
    (success :
      ∀ after,
        Instruction.totalLength skipped ≤ Chunk.maxDistance →
        Progress before after
          (earlier ++ jump.past (UInt16.ofNat (Instruction.totalLength skipped)) :: skipped) →
        after.resources = state.resources →
        after.upcoming = state.upcoming →
        after.draft.scope = state.draft.scope →
          onSuccess () after) :
    Guarantees (patchJump { operand := place + 1 }) state onSuccess (fun _ => True) := by
  have length : place = (before.written ++ Instruction.encode earlier).length := by
    simp [located]
  rw [length]
  refine guarantees_closeJump jump skipped ?_ ?_ fun _ _ => trivial
  · rw [opened.written, Instruction.encode_append, List.append_assoc]
  · intro chunk near resources written
    refine success _ near ⟨opened.frame, ?_, ?_, ?_⟩ resources rfl rfl
    · rw [resources]
      exact opened.sound
    · rw [resources]
      exact opened.within
    · rw [written, List.append_assoc, ← Instruction.encode_append]

end Jumps

end Compiler

end ScriptEngine
