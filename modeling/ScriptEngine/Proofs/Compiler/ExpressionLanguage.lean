import ScriptEngine.Compilation.Script
import ScriptEngine.Proofs.Compiler.Expression
import ScriptEngine.Proofs.Syntax.Completeness

/-!
# The language of expressions

The compiler accepts exactly the expressions of the grammar, up to the first
token that cannot belong to one, and writes exactly the code of their trees.

This holds as long as only the tokens decide: a limit that is exceeded, a name
that cannot be used, a receiver where there is none and an assignment to the
class `Array` stop the compiler at expressions of the grammar as well.
-/

namespace ScriptEngine.Compiler

open Syntax Compilation

/-- A token that an expression stops at: no assignment and no form after an operand. -/
def EndsExpression (rest : List TokenKind) : Prop :=
  rest.headD .endOfInput ≠ .punctuation .equal ∧ (rest.headD .endOfInput).trailing? = none

theorem stops_assignment_iff {rest : List TokenKind} :
    Stops .assignment rest ↔ EndsExpression rest := by
  constructor
  · intro stops
    refine ⟨fun equal => ?_, ?_⟩
    · have missing := stops.notAssigned rfl
      rw [startsWith, equal] at missing
      cases missing
    · cases next : (rest.headD .endOfInput).trailing? with
      | none => rfl
      | some form =>
          have loose : form.precedence.rank < 1 := stops.loose form next
          generalize form.precedence = power at loose
          cases power <;> exact absurd loose (by decide)
  · rintro ⟨notEqual, noForm⟩
    refine ⟨fun form next => ?_, fun _ => ?_⟩
    · rw [nextForm?, noForm] at next
      cases next
    · cases starts : startsWith .equal rest with
      | false => rfl
      | true => exact absurd (eq_punctuation_of_isMark starts) notEqual

/-- The compiler of expressions succeeds and leaves the given tokens unread. -/
def CompilesUpTo (levels : Nat) (state : Compilation) (rest : List TokenKind) : Prop :=
  ∃ after, expressionWithin levels .assignment state = (.ok (), after) ∧ after.upcoming = rest

/-- The code of a tree has been appended, and with it its constants and module variables. -/
def HasCodeOf (tree : Expr) (before after : Compilation) : Prop :=
  ∃ instructions,
    tree.code before.surroundings before.resources = some (instructions, after.resources) ∧
      after.written = before.written ++ Instruction.encode instructions

section

variable {levels : Nat} {state : Compilation}

/-- What is compiled is read as a tree, and its code is the code of the tree. -/
theorem read_of_compiled
    (begins : state.Begins)
    {after : Compilation}
    (compiled : expressionWithin levels .assignment state = (.ok (), after)) :
    ∃ tree,
      read levels .assignment state.upcoming = .done tree after.upcoming ∧
        HasCodeOf tree state after := by
  obtain ⟨tree, ⟨instructions, generated, writes⟩, reads⟩ :=
    (expressionWithin_agrees levels .assignment state).of_ok compiled
  exact ⟨tree, reads begins, instructions, generated, writes.written⟩

/-- Tokens that are refused by the compiler are refused by the reader. -/
theorem refused_of_error
    (begins : state.Begins)
    {error : CompileError}
    {after : Compilation}
    (failed : expressionWithin levels .assignment state = (.error error, after))
    (syntactic : error.problem.isSyntactic) :
    read levels .assignment state.upcoming = .refused := by
  have agrees := expressionWithin_agrees levels .assignment state
  unfold Guarantees at agrees
  rw [failed] at agrees
  exact agrees syntactic begins

/-- Whatever the compiler accepts is an expression, and its code is that of its tree. -/
theorem derives_of_compiled
    (begins : state.Begins)
    {after : Compilation}
    (compiled : expressionWithin levels .assignment state = (.ok (), after)) :
    ∃ consumed tree,
      state.upcoming = consumed ++ after.upcoming ∧
        Derives .assignment consumed tree ∧
        EndsExpression after.upcoming ∧
        HasCodeOf tree state after := by
  obtain ⟨tree, reads, code⟩ := read_of_compiled begins compiled
  obtain ⟨consumed, split, derived, stops⟩ :=
    read_sound levels .assignment _ _ _ (by decide) reads
  exact ⟨consumed, tree, split, derived, stops_assignment_iff.mp stops, code⟩

/-- Every expression that can end here is accepted, if only the tokens decide. -/
theorem compiles_of_derives
    (begins : state.Begins)
    (decided :
      ∀ error after,
        expressionWithin levels .assignment state = (.error error, after) →
          error.problem.isSyntactic)
    {consumed rest : List TokenKind}
    (split : state.upcoming = consumed ++ rest)
    {tree : Expr}
    (derived : Derives .assignment consumed tree)
    (ends : EndsExpression rest) :
    CompilesUpTo levels state rest := by
  have stops := stops_assignment_iff.mpr ends
  rcases outcome : expressionWithin levels .assignment state with ⟨error | _, after⟩
  · have refused := refused_of_error begins outcome (decided error after outcome)
    rw [split] at refused
    have accepted := read_of_derives derived stops (by rw [refused]; nofun)
    rw [refused] at accepted
    cases accepted
  · obtain ⟨found, reads, -⟩ := read_of_compiled begins outcome
    rw [split] at reads
    have accepted := read_of_derives derived stops (by rw [reads]; nofun)
    rw [reads] at accepted
    injection accepted with _ unread
    exact ⟨after, outcome, unread⟩

end

/--
The compiler of expressions accepts exactly the grammar and writes the reference
code.  If it runs into nothing but syntactic problems, then it succeeds and
stops before `rest` if and only if the tokens before `rest` are derivable and
`rest` begins with neither an assignment nor a form after an operand; and after
a success, the consumed tokens have exactly one tree, whose code has been
appended.
-/
theorem expression_iff_grammar
    (levels : Nat)
    (state : Compilation)
    (begins : state.Begins)
    (decided :
      ∀ error after,
        expressionWithin levels .assignment state = (.error error, after) →
          error.problem.isSyntactic) :
    (∀ consumed rest,
      state.upcoming = consumed ++ rest →
        (CompilesUpTo levels state rest ↔
          (∃ tree, Derives .assignment consumed tree) ∧ EndsExpression rest)) ∧
      ∀ after,
        expressionWithin levels .assignment state = (.ok (), after) →
          ∃ consumed tree,
            state.upcoming = consumed ++ after.upcoming ∧
              Derives .assignment consumed tree ∧
              (∀ other, Derives .assignment consumed other → other = tree) ∧
              HasCodeOf tree state after := by
  refine ⟨fun consumed rest split => ⟨?_, ?_⟩, fun after compiled => ?_⟩
  · rintro ⟨after, compiled, unread⟩
    obtain ⟨found, tree, foundSplit, derived, ends, -⟩ := derives_of_compiled begins compiled
    rw [unread] at foundSplit ends
    rw [split] at foundSplit
    rw [List.append_cancel_right foundSplit]
    exact ⟨⟨tree, derived⟩, ends⟩
  · rintro ⟨⟨tree, derived⟩, ends⟩
    exact compiles_of_derives begins decided split derived ends
  · obtain ⟨consumed, tree, split, derived, -, code⟩ := derives_of_compiled begins compiled
    exact ⟨consumed, tree, split, derived, fun other otherDerived =>
      derives_unique otherDerived derived, code⟩

/-- Before the first token of the text `!null and true;`. -/
def conjunctionSample : Compilation :=
  start
    ([.punctuation .bang, .keyword .nullWord, .keyword .andWord, .keyword .trueWord,
      .punctuation .semicolon, .endOfInput].map
        fun kind => { (default : Token) with kind }).toArray
    { name := "" } 0 0

theorem conjunctionSample_compiles :
    CompilesUpTo 4 conjunctionSample [.punctuation .semicolon, .endOfInput] := by
  have derived :
      Derives .assignment
        [.punctuation .bang, .keyword .nullWord, .keyword .andWord, .keyword .trueWord]
        (.conjunction (.unary .complement (.literal .nullWord)) (.literal .trueWord)) := by
    have left :
        Derives .unary [.punctuation .bang, .keyword .nullWord]
          (.unary .complement (.literal .nullWord)) :=
      .unary rfl ((Derives.word rfl).loosen _ (by decide))
    have right : Derives .primary [.keyword .trueWord] (.literal .trueWord) := .word rfl
    exact (Derives.conjunction (left.loosen _ (by decide)) (right.loosen _ (by decide))).loosen _
      (by decide)
  have decided :
      ∀ error after,
        expressionWithin 4 .assignment conjunctionSample = (.error error, after) →
          error.problem.isSyntactic := by
    intro error after failed
    have accepted : (expressionWithin 4 .assignment conjunctionSample).1.isOk = true := by decide
    rw [failed] at accepted
    cases accepted
  refine ((expression_iff_grammar 4 conjunctionSample ?_ decided).1 _ _ rfl).mpr
    ⟨⟨_, derived⟩, ?_⟩
  · exact begins_of_not_isEnd (by decide)
  · exact ⟨nofun, rfl⟩

end ScriptEngine.Compiler
