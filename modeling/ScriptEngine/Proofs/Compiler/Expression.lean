import ScriptEngine.Proofs.Compiler.Emission
import ScriptEngine.Proofs.Syntax.Reader

/-!
# Expressions are read as trees and compiled as trees

When the compiler accepts an expression, the tokens it has consumed are read as
a tree, and the code it has appended is the code of that tree.  When it stops
with a syntactic problem, reading refuses the tokens as well.  Problems that are
not syntactic (limits and names) say nothing about the tokens.

At the end of the input the compiler looks once more at the token before it.
Reading and compiling therefore agree only where that token is no expression by
itself (`Compilation.Begins`), as is the case wherever an operand is begun.
-/

namespace ScriptEngine

open Syntax Compilation

namespace Compilation

/-- An expression can begin here: at the end of the input, the last token is none by itself. -/
def Begins (state : Compilation) : Prop :=
  state.current.kind.isEnd →
    ∀ form, state.previous.kind.leading? = some form → form.isWhole = false

theorem begins_of_not_isEnd {state : Compilation} (unfinished : ¬ state.current.kind.isEnd) :
    state.Begins :=
  fun ended => absurd ended unfinished

/-- An operand can begin after a mark. -/
theorem begins_of_previous_mark
    {state : Compilation}
    {mark : Punctuation}
    (previous : state.previous.kind = .punctuation mark) :
    state.Begins := by
  intro _ form leading
  rw [previous] at leading
  cases mark <;> simp_all [TokenKind.leading?] <;> subst leading <;> rfl

theorem not_isEnd_of_isMark
    {kind : TokenKind}
    {mark : Punctuation}
    (isMark : kind.isMark mark) :
    ¬ kind.isEnd := by
  cases kind <;> simp_all [TokenKind.isMark, TokenKind.isEnd]

theorem not_isEnd_of_trailing
    {kind : TokenKind}
    {form : TrailingForm}
    (trailing : kind.trailing? = some form) :
    ¬ kind.isEnd := by
  cases kind <;> simp_all [TokenKind.trailing?, TokenKind.isEnd]

theorem eq_punctuation_of_isMark
    {kind : TokenKind}
    {mark : Punctuation}
    (isMark : kind.isMark mark) :
    kind = .punctuation mark := by
  cases kind <;> simp_all [TokenKind.isMark]

theorem startsWith_upcoming (state : Compilation) (mark : Punctuation) :
    startsWith mark state.upcoming = state.current.kind.isMark mark := by
  rw [startsWith, kind_current]

theorem upcoming_advance_eq_tail
    {state : Compilation}
    (unfinished : ¬ state.current.kind.isEnd) :
    state.advance.upcoming = state.upcoming.tail := by
  rw [upcoming_eq_cons unfinished, List.tail_cons]

theorem begins_advance
    {state : Compilation}
    {mark : Punctuation}
    (isMark : state.current.kind.isMark mark) :
    state.advance.Begins := by
  apply begins_of_previous_mark
  rw [previous_advance (not_isEnd_of_isMark isMark)]
  exact eq_punctuation_of_isMark isMark

/-- An operand can begin after an operator. -/
theorem begins_advance_of_trailing
    {state : Compilation}
    {form : TrailingForm}
    (trailing : state.current.kind.trailing? = some form) :
    state.advance.Begins := by
  intro _ leading
  rw [previous_advance (not_isEnd_of_trailing trailing)]
  generalize state.current.kind = kind at trailing
  intro leads
  cases kind with
  | punctuation mark =>
      cases mark <;> simp_all [TokenKind.leading?, TokenKind.trailing?] <;> subst leads <;> rfl
  | keyword word => cases word <;> simp_all [TokenKind.leading?, TokenKind.trailing?]
  | _ => simp_all [TokenKind.trailing?]

/-- The code that a generator writes from here has been appended. -/
def Emits (generated : Generator (List Instruction)) (before after : Compilation) : Prop :=
  ∃ instructions,
    generated before.resources = some (instructions, after.resources) ∧
      Writes before after instructions

/-- Reading a token appends no code. -/
theorem Emits.advance
    {generated : Generator (List Instruction)}
    {before after : Compilation}
    (emits : Emits generated before after) :
    Emits generated before after.advance := by
  obtain ⟨instructions, success, writes⟩ := emits
  refine ⟨instructions, ?_, ?_⟩
  · rw [resources_advance, success]
  · simpa using writes.trans (.advance after)

/-- Instructions have been appended and nothing else has happened. -/
structure Appends (before after : Compilation) (instructions : List Instruction) : Prop where
  writes : Writes before after instructions
  resources : after.resources = before.resources
  upcoming : after.upcoming = before.upcoming
  begins : before.Begins → after.Begins

namespace Appends

variable {before between after : Compilation} {first second : List Instruction}

theorem refl (state : Compilation) : Appends state state [] :=
  ⟨.refl state, rfl, rfl, id⟩

theorem trans (start : Appends before between first) (rest : Appends between after second) :
    Appends before after (first ++ second) where
  writes := start.writes.trans rest.writes
  resources := rest.resources.trans start.resources
  upcoming := rest.upcoming.trans start.upcoming
  begins := rest.begins ∘ start.begins

theorem emit (state : Compilation) (instruction : Instruction) (line : Nat) :
    Appends state (state.withChunk (state.draft.chunk.emit instruction line)) [instruction] :=
  ⟨.emit state instruction line, resources_emit .., rfl, id⟩

end Appends

end Compilation

namespace Compiler

section Tokens

variable {state : Compilation} {onError : CompileProblem → Prop}

theorem guarantees_matchMark
    {mark : Punctuation}
    {onSuccess : Bool → Compilation → Prop}
    (present :
      startsWith mark state.upcoming = true →
      state.advance.upcoming = state.upcoming.tail →
      state.advance.Begins →
      onSuccess true state.advance)
    (absent : startsWith mark state.upcoming = false → onSuccess false state) :
    Guarantees (matchMark mark) state onSuccess onError := by
  rw [startsWith_upcoming] at present absent
  refine guarantees_matchKind (fun found => ?_) (fun missing => ?_)
  · exact present found (upcoming_advance_eq_tail (not_isEnd_of_isMark found))
      (begins_advance found)
  · exact absent (Bool.eq_false_iff.mpr missing)

theorem guarantees_expect
    {mark : Punctuation}
    {what : String}
    {onSuccess : Unit → Compilation → Prop}
    (present :
      startsWith mark state.upcoming = true →
      state.advance.upcoming = state.upcoming.tail →
      state.advance.Begins →
      onSuccess () state.advance)
    (absent : startsWith mark state.upcoming = false → onError (.expected what)) :
    Guarantees (consume mark what) state onSuccess onError :=
  .bind (guarantees_matchMark present absent)

/-- The test for an assignment is made only where one can stand. -/
theorem guarantees_matchEqual
    {canAssign : Bool}
    {onSuccess : Bool → Compilation → Prop}
    (present :
      (canAssign && startsWith .equal state.upcoming) = true →
      state.advance.upcoming = state.upcoming.tail →
      state.advance.Begins →
      onSuccess true state.advance)
    (absent :
      (canAssign && startsWith .equal state.upcoming) = false → onSuccess false state) :
    Guarantees (if canAssign then matchMark .equal else pure false) state onSuccess onError := by
  cases canAssign with
  | false => exact .pure (absent rfl)
  | true => exact guarantees_matchMark present absent

end Tokens

/-- A compiler and a reader of operands agree. -/
def OperandAgrees (operand : OperandCompiler) (reader : OperandReader) : Prop :=
  ∀ least state,
    Guarantees (operand least) state
      (fun _ after =>
        ∃ tree,
          Emits (tree.code state.surroundings) state after ∧
            (state.Begins → reader least state.upcoming = .done tree after.upcoming))
      (fun problem =>
        problem.isSyntactic → state.Begins → reader least state.upcoming = .refused)

/-- After a step from `before` on, the code of a tree that reading finds stands after `state`. -/
def TreeAgrees
    (step : Compiler Unit)
    (state before : Compilation)
    (reading : Reading Expr) :
    Prop :=
  Guarantees step before
    (fun _ after =>
      ∃ tree,
        Emits (tree.code state.surroundings) state after ∧
          reading = .done tree after.upcoming)
    (fun problem => problem.isSyntactic → reading = .refused)

section Code

variable {state : Compilation} {onError : CompileProblem → Prop}

theorem guarantees_append
    {instruction : Instruction}
    {onSuccess : Unit → Compilation → Prop}
    (holds : ∀ after, Appends state after [instruction] → onSuccess () after) :
    Guarantees (emit instruction) state onSuccess onError :=
  guarantees_emit fun line => holds _ (.emit state instruction line)

theorem guarantees_openJump
    (jump : ForwardJump)
    {onSuccess : PendingJump → Compilation → Prop}
    (holds :
      ∀ after,
        Appends state after [jump.past Chunk.openDistance] →
          onSuccess { operand := state.written.length + 1 } after) :
    Guarantees (emitJump jump.opcode) state onSuccess onError :=
  guarantees_emitJump jump fun line => holds _ (.emit state _ line)

/-- Several instructions are appended in order. -/
theorem guarantees_emitAll (instructions : List Instruction) :
    Guarantees (emitAll instructions) state
      (fun _ after => Appends state after instructions) onError := by
  induction instructions generalizing state with
  | nil => exact .refl state
  | cons instruction rest induction =>
      refine .bind (guarantees_append fun between first => ?_)
      exact induction.mono (fun _ after => first.trans) (fun _ error => error)

/-- Closing a jump over the instructions that have been written since it was opened. -/
theorem guarantees_closeOver
    {before : Compilation}
    {jump : ForwardJump}
    (skipped : List Instruction)
    {onSuccess : Unit → Compilation → Prop}
    (opened : Writes before state (jump.past Chunk.openDistance :: skipped))
    (success :
      ∀ after,
        Instruction.totalLength skipped ≤ Chunk.maxDistance →
        Writes before after
          (jump.past (UInt16.ofNat (Instruction.totalLength skipped)) :: skipped) →
        after.resources = state.resources →
        after.upcoming = state.upcoming →
        (state.Begins → after.Begins) →
        onSuccess () after)
    (error : ∀ problem, ¬ problem.isSyntactic → onError problem) :
    Guarantees (patchJump { operand := before.written.length + 1 }) state onSuccess onError := by
  refine guarantees_closeJump jump skipped opened.written ?_ error
  intro chunk near resources written
  exact success _ near ⟨opened.skeleton, written⟩ resources rfl id

end Code

section Forms

attribute [local simp] Expr.code

variable
  {operand : OperandCompiler}
  {reader : OperandReader}
  {state : Compilation}

/-! ## Lists -/

/--
Expressions separated by commas, where every expression is followed by the
instructions `suffix` and `allowed` says how many there may be.
-/
theorem commaSeparated_agrees
    (agrees : OperandAgrees operand reader)
    {afterEach : Nat → Compiler Unit}
    (suffix : List Instruction)
    (allowed : Nat → Prop)
    (each :
      ∀ count before,
        allowed count →
          Guarantees (afterEach count) before
            (fun _ after =>
              Writes before after suffix ∧
                after.resources = before.resources ∧
                after.upcoming = before.upcoming ∧
                allowed (count + 1))
            (fun problem => ¬ problem.isSyntactic))
    (begins : state.Begins)
    (none : allowed 0) :
    Guarantees (commaSeparated operand afterEach) state
      (fun count after =>
        ∃ items,
          count = items.length ∧
            allowed count ∧
            Emits (itemsCode state.surroundings suffix items) state after ∧
            readItems reader (state.upcoming.length + 1) [] state.upcoming =
              .done items after.upcoming)
      (fun problem =>
        problem.isSyntactic →
          readItems reader (state.upcoming.length + 1) [] state.upcoming = .refused) := by
  -- The invariant: what has been read so far is a list of items, and reading goes on from here.
  refine guarantees_repeatWhile
    (fun bound count between =>
      ∃ items,
        count = items.length ∧
          allowed count ∧
          Emits (itemsCode state.surroundings suffix items) state between ∧
          between.Begins ∧
          readItems reader (state.upcoming.length + 1) [] state.upcoming =
            readItems reader bound items between.upcoming)
    ⟨[], rfl, none, ⟨[], rfl, .refl state⟩, begins, rfl⟩ ?_ ?_
  · rintro count after ⟨items, length, few, emits, -, reads⟩
    exact ⟨items, length, few, emits, reads⟩
  · rintro bound count before ⟨items, length, few, ⟨earlier, generated, writes⟩, begins, reads⟩
    rw [reads]
    refine .bind ((agrees .assignment before).mono ?_ ?_)
    · rintro - afterItem ⟨item, ⟨latest, itemGenerated, itemWrites⟩, itemReads⟩
      rw [writes.surroundings] at itemGenerated
      refine .bind ((each count afterItem few).mono ?_ ?_)
      · rintro - afterSuffix ⟨suffixWrites, resources, upcoming, fewer⟩
        have emits :
            Emits (itemsCode state.surroundings suffix (items ++ [item])) state afterSuffix := by
          refine ⟨earlier ++ (latest ++ suffix), ?_,
            writes.trans (itemWrites.trans suffixWrites)⟩
          rw [resources]
          exact Generator.itemsCode_concat generated itemGenerated
        have counted : count + 1 = (items ++ [item]).length := by simp [length]
        refine .bind (guarantees_matchMark ?_ ?_)
        · intro comma tail begins
          refine .pure ⟨items ++ [item], counted, fewer, emits.advance, begins, ?_⟩
          rw [upcoming] at comma
          simp [readItems, itemReads ‹_›, comma, tail, upcoming]
        · intro missing
          refine .pure ⟨items ++ [item], counted, fewer, emits, ?_⟩
          rw [upcoming] at missing
          simp [readItems, itemReads ‹_›, missing, upcoming]
      · intro problem other syntactic
        exact absurd syntactic other
    · intro problem refused syntactic
      simp [readItems, refused syntactic begins]

/-- A step compiles the arguments of a call and counts them. -/
def ArgumentsAgree
    (step : Compiler UInt8)
    (state before : Compilation)
    (reading : Reading (List Expr)) :
    Prop :=
  Guarantees step before
    (fun count after =>
      ∃ items,
        count = UInt8.ofNat items.length ∧
          items.length ≤ maxArguments ∧
          Emits (itemsCode state.surroundings [] items) state after ∧
          reading = .done items after.upcoming)
    (fun problem => problem.isSyntactic → reading = .refused)

private theorem closingParen_agrees
    {before : Compilation}
    {items : List Expr}
    (few : items.length ≤ maxArguments)
    (emits : Emits (itemsCode state.surroundings [] items) state before) :
    ArgumentsAgree
      (do consume .rightParen "')' after arguments"; return UInt8.ofNat items.length)
      state before (expect .rightParen before.upcoming fun rest => .done items rest) := by
  refine .bind (guarantees_expect ?_ ?_)
  · intro found tail _
    exact .pure ⟨items, rfl, few, emits.advance, by simp [expect, found, tail]⟩
  · intro missing _
    simp [expect, missing]

/-- The arguments of a call up to the closing parenthesis. -/
theorem argumentList_agrees
    (agrees : OperandAgrees operand reader)
    (begins : state.Begins) :
    ArgumentsAgree (argumentList operand) state state
      (readList reader .rightParen state.upcoming) := by
  refine .bind (guarantees_look ?_)
  by_cases empty : state.current.kind.isMark .rightParen
  · rw [if_pos empty]
    rw [← startsWith_upcoming] at empty
    have reading :
        readList reader .rightParen state.upcoming =
          expect .rightParen state.upcoming (fun rest => .done [] rest) := by
      simp [readList, expect, empty]
    rw [reading]
    have nothing : Emits (itemsCode state.surroundings [] []) state state :=
      ⟨[], rfl, .refl state⟩
    exact .bind (.pure (closingParen_agrees (Nat.zero_le _) nothing))
  · rw [if_neg empty]
    rw [← startsWith_upcoming] at empty
    refine .bind ((commaSeparated_agrees agrees [] (fun count => count ≤ maxArguments)
      ?_ begins (Nat.zero_le _)).mono ?_ ?_)
    · intro count before few
      by_cases full : count = maxArguments
      · rw [if_pos full]
        exact guarantees_fail (by simp [CompileProblem.isSyntactic])
      · rw [if_neg full]
        exact .pure ⟨.refl before, rfl, rfl, by omega⟩
    · rintro count between ⟨items, rfl, few, emits, reads⟩
      have reading :
          readList reader .rightParen state.upcoming =
            expect .rightParen between.upcoming (fun rest => .done items rest) := by
        simp [readList, empty, reads]
      rw [reading]
      exact closingParen_agrees few emits
    · intro problem refused syntactic
      simp [readList, empty, refused syntactic]

/-! ## Forms at the beginning of an expression -/

theorem grouping_agrees
    (agrees : OperandAgrees operand reader)
    (begins : state.Begins)
    (canAssign : Bool) :
    TreeAgrees (grouping operand) state state
      (readLeading reader canAssign .grouping state.upcoming) := by
  refine .bind ((agrees .assignment state).mono ?_ ?_)
  · rintro - between ⟨inner, emits, reads⟩
    refine guarantees_expect ?_ ?_
    · intro found tail _
      exact ⟨.grouping inner, emits.advance, by
        simp [readLeading, reads begins, expect, found, tail]⟩
    · intro missing _
      simp [readLeading, reads begins, expect, missing]
  · intro problem refused syntactic
    simp [readLeading, refused syntactic begins]

theorem unary_agrees
    (agrees : OperandAgrees operand reader)
    (begins : state.Begins)
    (canAssign : Bool)
    (operator : UnaryOperator) :
    TreeAgrees (do operand .unary; emit operator.instruction) state state
      (readLeading reader canAssign (.unary operator) state.upcoming) := by
  refine .bind ((agrees .unary state).mono ?_ ?_)
  · rintro - between ⟨inner, ⟨instructions, generated, writes⟩, reads⟩
    refine guarantees_emit fun line => ?_
    refine ⟨.unary operator inner, ⟨_, ?_, writes.trans (.emit between _ line)⟩, ?_⟩
    · simp [generated]
    · simp [readLeading, reads begins]
  · intro problem refused syntactic
    simp [readLeading, refused syntactic begins]

theorem emitConstant_agrees
    {value : Value}
    {tree : Expr}
    (code :
      tree.code state.surroundings = do return [← Generator.constant value]) :
    TreeAgrees (emitConstant value) state state (.done tree state.upcoming) := by
  refine guarantees_emitConstant ?_ ?_
  · intro instruction chunk generated writes
    exact ⟨tree, ⟨[instruction], by simp [code, generated], writes⟩, rfl⟩
  · intro problem other syntactic
    exact absurd syntactic other

theorem emit_agrees
    {instruction : Instruction}
    {tree : Expr}
    (code :
      tree.code state.surroundings state.resources = some ([instruction], state.resources)) :
    TreeAgrees (emit instruction) state state (.done tree state.upcoming) := by
  refine guarantees_emit fun line => ?_
  refine ⟨tree, ⟨[instruction], ?_, .emit state _ line⟩, rfl⟩
  rw [code, resources_emit]

theorem namedVariable_agrees
    (agrees : OperandAgrees operand reader)
    (canAssign : Bool)
    (name : String) :
    TreeAgrees (namedVariable operand name canAssign) state state
      (readLeading reader canAssign (.named name) state.upcoming) := by
  have other :
      ∀ problem : CompileProblem,
        ¬ problem.isSyntactic →
          problem.isSyntactic →
            readLeading reader canAssign (.named name) state.upcoming = .refused :=
    fun problem other syntactic => absurd syntactic other
  refine .bind (guarantees_resolve ?_ other)
  intro reference table resolved
  refine .bind (guarantees_matchEqual ?_ ?_)
  · intro found tail begins
    rw [upcoming_withTable] at found tail
    refine .bind (guarantees_checkWritable ?_ other)
    intro writable
    rw [resources_advance] at writable
    refine .bind ((agrees .assignment _).mono ?_ ?_)
    · rintro - between ⟨value, ⟨instructions, generated, writes⟩, reads⟩
      rw [surroundings_advance, surroundings_withTable, resources_advance] at generated
      refine guarantees_emit fun line => ?_
      refine ⟨.assignName name value, ⟨instructions ++ [reference.write], ?_, ?_⟩, ?_⟩
      · simp only [Expr.code, Generator.bind_apply, resolved, writable, generated,
          Option.bind_some, Generator.pure_apply, resources_emit]
      · exact ((Writes.withTable state table).trans (.advance _)).trans
          (writes.trans (.emit between _ line))
      · have value := reads begins
        rw [tail] at value
        simp only [readLeading, found, if_true, value]
        rfl
    · intro problem refused syntactic
      have value := refused syntactic begins
      rw [tail] at value
      simp only [readLeading, found, if_true, value]
      rfl
  · intro missing
    rw [upcoming_withTable] at missing
    refine guarantees_emit fun line => ?_
    refine ⟨.named name, ⟨[reference.read], ?_, ?_⟩, ?_⟩
    · simp only [Expr.code, Generator.bind_apply, resolved, Option.bind_some,
        Generator.pure_apply, resources_emit]
    · exact (Writes.withTable state table).trans (.emit _ _ line)
    · simp [readLeading, missing]

theorem receiver_agrees : TreeAgrees receiver state state (.done .receiver state.upcoming) := by
  refine .bind (guarantees_look ?_)
  by_cases present : state.draft.role.hasReceiver
  · rw [if_pos present]
    have role : state.surroundings.role.hasReceiver = true := present
    exact emit_agrees (by simp [role])
  · rw [if_neg present]
    refine .bind (guarantees_look ?_)
    split
    · exact guarantees_fail (by simp [CompileProblem.isSyntactic])
    · exact guarantees_fail (by simp [CompileProblem.isSyntactic])

private theorem closingBracket_agrees
    {before : Compilation}
    {elements : List Expr}
    (emits : Emits ((Expr.array elements).code state.surroundings) state before) :
    TreeAgrees (consume .rightBracket "']' after array elements") state before
      (expect .rightBracket before.upcoming fun rest => .done (.array elements) rest) := by
  refine guarantees_expect ?_ ?_
  · intro found tail _
    exact ⟨.array elements, emits.advance, by simp [expect, found, tail]⟩
  · intro missing _
    simp [expect, missing]

theorem arrayLiteral_agrees
    (agrees : OperandAgrees operand reader)
    (begins : state.Begins)
    (canAssign : Bool) :
    TreeAgrees (arrayLiteral operand) state state
      (readLeading reader canAssign .arrayLiteral state.upcoming) := by
  refine .bind (guarantees_nameIndex ?_ ?_)
  · intro push chunk generated named
    refine .bind (guarantees_emit fun line => .bind (guarantees_emit fun line' => ?_))
    have writes := named.trans ((Writes.emit _ (.getModule (UInt16.ofNat arraySlot)) line).trans
      (.emit _ (.call 0) line'))
    have resources := (resources_emit _ (.call 0) line').trans
      (resources_emit (state.withChunk chunk) (.getModule (UInt16.ofNat arraySlot)) line)
    rw [← resources] at generated
    generalize opening : ((state.withChunk chunk).withChunk _).withChunk _ = opened
      at writes generated ⊢
    have upcoming : opened.upcoming = state.upcoming := by
      rw [← opening]
      rfl
    replace begins : opened.Begins := by
      rw [← opening]
      exact begins
    have filled :
        ∀ (elements : List Expr) (after : Compilation),
          Emits (itemsCode state.surroundings [.invoke push 1] elements) opened after →
          Emits ((Expr.array elements).code state.surroundings) state after := by
      rintro elements after ⟨instructions, items, added⟩
      refine ⟨_, ?_, writes.trans added⟩
      simp [generated, items]
    refine .bind (guarantees_look ?_)
    by_cases empty : opened.current.kind.isMark .rightBracket
    · rw [if_pos empty]
      rw [← startsWith_upcoming, upcoming] at empty
      have nothing : Emits (itemsCode state.surroundings [.invoke push 1] []) opened opened :=
        ⟨[], rfl, .refl opened⟩
      have reading :
          readLeading reader canAssign .arrayLiteral state.upcoming =
            expect .rightBracket opened.upcoming (fun rest => .done (.array []) rest) := by
        simp [readLeading, readList, expect, empty, upcoming]
      rw [reading]
      exact closingBracket_agrees (filled [] opened nothing)
    · rw [if_neg empty]
      rw [← startsWith_upcoming, upcoming] at empty
      refine .bind ((commaSeparated_agrees agrees [.invoke push 1] (fun _ => True)
        ?_ begins trivial).mono ?_ ?_)
      · intro count before _
        exact guarantees_emit fun line => ⟨.emit before _ line, resources_emit .., rfl, trivial⟩
      · rintro count between ⟨elements, -, -, emits, reads⟩
        rw [writes.surroundings] at emits
        rw [upcoming] at reads
        have reading :
            readLeading reader canAssign .arrayLiteral state.upcoming =
              expect .rightBracket between.upcoming (fun rest => .done (.array elements) rest) := by
          simp only [readLeading, readList, if_neg empty, reads, Reading.andThen_done, expect]
          split <;> rfl
        rw [reading]
        exact closingBracket_agrees (filled elements between emits)
      · intro problem refused syntactic
        rw [upcoming] at refused
        simp [readLeading, readList, empty, refused syntactic]
  · intro problem other syntactic
    exact absurd syntactic other

/-- A form at the beginning of an expression, whose token has just been read. -/
theorem leadingForm_agrees
    (agrees : OperandAgrees operand reader)
    (canAssign : Bool)
    {form : LeadingForm}
    (leads : state.previous.kind.leading? = some form) :
    TreeAgrees (leadingForm operand canAssign form) state state
      (readLeading reader canAssign form state.upcoming) := by
  have begins : form.isWhole = false → state.Begins := by
    intro opens _ other leading
    rw [leads] at leading
    cases leading
    exact opens
  cases form with
  | grouping => exact grouping_agrees agrees (begins rfl) canAssign
  | arrayLiteral => exact arrayLiteral_agrees agrees (begins rfl) canAssign
  | unary operator => exact unary_agrees agrees (begins rfl) canAssign operator
  | number value => exact emitConstant_agrees (by simp)
  | string content => exact emitConstant_agrees (by simp)
  | literal instruction =>
      -- Only the three words that denote a value lead to this form.
      have word :
          instruction = .pushTrue ∨ instruction = .pushFalse ∨ instruction = .pushNull := by
        generalize state.previous.kind = kind at leads
        cases kind with
        | keyword word => cases word <;> simp [TokenKind.leading?] at leads <;> simp [← leads]
        | punctuation mark => cases mark <;> simp [TokenKind.leading?] at leads
        | _ => simp [TokenKind.leading?] at leads
      rcases word with rfl | rfl | rfl
      · exact emit_agrees (by simp [Literal.instruction])
      · exact emit_agrees (by simp [Literal.instruction])
      · exact emit_agrees (by simp [Literal.instruction])
  | named name => exact namedVariable_agrees agrees canAssign name
  | receiver => exact receiver_agrees

/-! ## Forms after an operand -/

section Trailing

variable
  {before : Compilation}
  {left : Expr}
  (agrees : OperandAgrees operand reader)
  (leftEmits : Emits (left.code state.surroundings) state before)
  (begins : before.Begins)

include agrees leftEmits begins

theorem binary_agrees (canAssign : Bool) (operator : BinaryOperator) :
    TreeAgrees
      (do operand operator.precedence.tighter; emitAll operator.instructions) state before
      (readTrailing reader canAssign left (.binary operator) before.upcoming) := by
  obtain ⟨leftCode, leftGenerated, leftWrites⟩ := leftEmits
  refine .bind ((agrees _ before).mono ?_ ?_)
  · rintro - between ⟨right, ⟨rightCode, rightGenerated, rightWrites⟩, reads⟩
    rw [leftWrites.surroundings] at rightGenerated
    refine (guarantees_emitAll operator.instructions).mono ?_ (fun _ error => error)
    intro _ after added
    refine ⟨.binary operator left right,
      ⟨_, ?_, (leftWrites.trans rightWrites).trans added.writes⟩, ?_⟩
    · simp [leftGenerated, rightGenerated, added.resources]
    · simp [readTrailing, reads begins, added.upcoming]
  · intro problem refused syntactic
    simp [readTrailing, refused syntactic begins]

theorem conjunction_agrees (canAssign : Bool) :
    TreeAgrees (conjunction operand) state before
      (readTrailing reader canAssign left .conjunction before.upcoming) := by
  obtain ⟨leftCode, leftGenerated, leftWrites⟩ := leftEmits
  refine .bind (guarantees_openJump .ifFalse fun opened opening => ?_)
  refine .bind (guarantees_append fun popped popping => ?_)
  replace opening := opening.trans popping
  refine .bind ((agrees .conjunction popped).mono ?_ ?_)
  · rintro - between ⟨right, ⟨rightCode, rightGenerated, rightWrites⟩, reads⟩
    rw [opening.writes.surroundings, leftWrites.surroundings, opening.resources] at rightGenerated
    replace reads := reads (opening.begins begins)
    rw [opening.upcoming] at reads
    refine guarantees_closeOver (.pop :: rightCode) (opening.writes.trans rightWrites) ?_ ?_
    · intro after near closed resources upcoming _
      refine ⟨.conjunction left right, ⟨_, ?_, leftWrites.trans closed⟩, ?_⟩
      · simp [leftGenerated, rightGenerated, Generator.jumpOver_apply_of near,
          resources]
      · simp [readTrailing, reads, upcoming]
    · intro problem other syntactic
      exact absurd syntactic other
  · intro problem refused syntactic
    replace refused := refused syntactic (opening.begins begins)
    rw [opening.upcoming] at refused
    simp [readTrailing, refused]

theorem disjunction_agrees (canAssign : Bool) :
    TreeAgrees (disjunction operand) state before
      (readTrailing reader canAssign left .disjunction before.upcoming) := by
  have other :
      ∀ problem : CompileProblem,
        ¬ problem.isSyntactic →
          problem.isSyntactic →
            readTrailing reader canAssign left .disjunction before.upcoming = .refused :=
    fun problem other syntactic => absurd syntactic other
  obtain ⟨leftCode, leftGenerated, leftWrites⟩ := leftEmits
  refine .bind (guarantees_openJump .ifFalse fun first firstOpening => ?_)
  refine .bind (guarantees_openJump .always fun second secondOpening => ?_)
  have opening := firstOpening.trans secondOpening
  -- The first jump leads over the second one only, which is still open.
  refine .bind (guarantees_closeOver [ForwardJump.always.past Chunk.openDistance]
    opening.writes ?_ other)
  intro closed _ firstClosed resources upcoming closedBegins
  -- The second jump stands after the closed one, which has the length it was opened with.
  have place :
      first.written.length = (before.written ++ Instruction.encode [.jumpIfFalse 3]).length := by
    simp [firstOpening.writes.written]
    rfl
  rw [place]
  refine .bind (guarantees_append fun popped popping => ?_)
  have poppedWrites := firstClosed.trans popping.writes
  have poppedBegins : popped.Begins := popping.begins (closedBegins (opening.begins begins))
  have poppedUpcoming : popped.upcoming = before.upcoming :=
    (popping.upcoming.trans upcoming).trans opening.upcoming
  have poppedResources : popped.resources = before.resources :=
    (popping.resources.trans resources).trans opening.resources
  refine .bind ((agrees .disjunction popped).mono ?_ ?_)
  · rintro - between ⟨right, ⟨rightCode, rightGenerated, rightWrites⟩, reads⟩
    rw [poppedWrites.surroundings, leftWrites.surroundings, poppedResources] at rightGenerated
    replace reads := reads poppedBegins
    rw [poppedUpcoming] at reads
    have whole := poppedWrites.trans rightWrites
    refine guarantees_closeJump .always (.pop :: rightCode) ?_ ?_ other
    · rw [whole.written, List.append_assoc before.written, ← Instruction.encode_append,
        List.append_assoc]
      rfl
    · intro chunk near unchanged written
      rw [List.append_assoc, ← Instruction.encode_append] at written
      refine ⟨.disjunction left right, ⟨_, ?_, leftWrites.trans ⟨whole.skeleton, written⟩⟩, ?_⟩
      · simp [leftGenerated, rightGenerated, Generator.jumpOver_apply_of near,
          unchanged]
      · simp [readTrailing, reads]
  · intro problem refused syntactic
    replace refused := refused syntactic poppedBegins
    rw [poppedUpcoming] at refused
    simp [readTrailing, refused]

theorem call_agrees (canAssign : Bool) :
    TreeAgrees (do emit (.call (← argumentList operand))) state before
      (readTrailing reader canAssign left .call before.upcoming) := by
  obtain ⟨leftCode, leftGenerated, leftWrites⟩ := leftEmits
  refine .bind ((argumentList_agrees agrees begins).mono ?_ ?_)
  · rintro count between ⟨items, rfl, few, ⟨itemCode, itemGenerated, itemWrites⟩, reads⟩
    rw [leftWrites.surroundings] at itemGenerated
    refine guarantees_append fun after added => ?_
    refine ⟨.call left items, ⟨_, ?_, (leftWrites.trans itemWrites).trans added.writes⟩, ?_⟩
    · simp [leftGenerated, itemGenerated, few, added.resources]
    · simp [readTrailing, reads, added.upcoming]
  · intro problem refused syntactic
    simp [readTrailing, refused syntactic]

omit begins in
theorem property_agrees (canAssign : Bool) :
    TreeAgrees (property operand canAssign) state before
      (readTrailing reader canAssign left .property before.upcoming) := by
  obtain ⟨leftCode, leftGenerated, leftWrites⟩ := leftEmits
  refine .bind (guarantees_consumeIdentifier ?_ ?_)
  · intro name isName
    have unfinished : ¬ before.current.kind.isEnd := by simp [isName, TokenKind.isEnd]
    have upcoming := upcoming_eq_cons unfinished
    rw [isName] at upcoming
    have other :
        ∀ problem : CompileProblem,
          ¬ problem.isSyntactic →
            problem.isSyntactic →
              readTrailing reader canAssign left .property before.upcoming = .refused :=
      fun problem other syntactic => absurd syntactic other
    refine .bind (guarantees_nameIndex ?_ other)
    intro index chunk named namedWrites
    rw [resources_advance] at named
    have writes := (leftWrites.trans (.advance before)).trans namedWrites
    generalize opening : before.advance.withChunk chunk = opened at named namedWrites writes ⊢
    have rest : before.advance.upcoming = opened.upcoming := by
      rw [← opening]
      rfl
    rw [rest] at upcoming
    simp only [List.append_nil] at writes
    refine .bind (guarantees_matchEqual ?_ ?_)
    · intro found tail valueBegins
      refine .bind ((agrees .assignment opened.advance).mono ?_ ?_)
      · rintro - between ⟨value, ⟨valueCode, valueGenerated, valueWrites⟩, reads⟩
        rw [surroundings_advance, writes.surroundings, resources_advance] at valueGenerated
        replace reads := reads valueBegins
        rw [tail] at reads
        refine guarantees_append fun after added => ?_
        refine ⟨.assignProperty left name value,
          ⟨_, ?_, (writes.trans ((Writes.advance opened).trans valueWrites)).trans
            added.writes⟩, ?_⟩
        · simp [leftGenerated, named, valueGenerated, added.resources]
        · simp [readTrailing, readProperty, upcoming, found, reads, added.upcoming]
      · intro problem refused syntactic
        replace refused := refused syntactic valueBegins
        rw [tail] at refused
        simp [readTrailing, readProperty, upcoming, found, refused]
    · intro unassigned
      refine .bind (guarantees_matchMark ?_ ?_)
      · intro found tail argumentsBegin
        have arguments := argumentList_agrees agrees argumentsBegin
        rw [tail] at arguments
        refine .bind (arguments.mono ?_ ?_)
        · rintro count between ⟨items, rfl, few, ⟨itemCode, itemGenerated, itemWrites⟩, reads⟩
          rw [surroundings_advance, writes.surroundings, resources_advance] at itemGenerated
          refine guarantees_append fun after added => ?_
          refine ⟨.invocation left name items,
            ⟨_, ?_, (writes.trans ((Writes.advance opened).trans itemWrites)).trans
              added.writes⟩, ?_⟩
          · simp [leftGenerated, named, itemGenerated, few, added.resources]
          · simp [readTrailing, readProperty, upcoming, unassigned, found, reads, added.upcoming]
        · intro problem refused syntactic
          simp [readTrailing, readProperty, upcoming, unassigned, found, refused syntactic]
      · intro missing
        refine guarantees_append fun after added => ?_
        refine ⟨.property left name, ⟨_, ?_, writes.trans added.writes⟩, ?_⟩
        · simp [leftGenerated, named, added.resources]
        · simp [readTrailing, readProperty, upcoming, unassigned, missing, added.upcoming]
  · intro noName _
    have reading : readProperty reader canAssign left before.upcoming = .refused := by
      unfold readProperty
      split
      · rename_i name rest upcoming
        exact absurd (by simp [kind_current, upcoming]) (noName name)
      · rfl
    exact reading

theorem subscript_agrees (canAssign : Bool) :
    TreeAgrees (subscript operand canAssign) state before
      (readTrailing reader canAssign left .subscript before.upcoming) := by
  obtain ⟨leftCode, leftGenerated, leftWrites⟩ := leftEmits
  refine .bind ((agrees .assignment before).mono ?_ ?_)
  · rintro - between ⟨index, ⟨indexCode, indexGenerated, indexWrites⟩, reads⟩
    rw [leftWrites.surroundings] at indexGenerated
    replace reads := reads begins
    have writes := leftWrites.trans indexWrites
    refine .bind (guarantees_expect ?_ ?_)
    · intro closing tail _
      refine .bind (guarantees_matchEqual ?_ ?_)
      · intro found valueTail valueBegins
        rw [tail] at found valueTail
        refine .bind ((agrees .assignment _).mono ?_ ?_)
        · rintro - after ⟨value, ⟨valueCode, valueGenerated, valueWrites⟩, valueReads⟩
          rw [surroundings_advance, surroundings_advance, writes.surroundings,
            resources_advance, resources_advance] at valueGenerated
          replace valueReads := valueReads valueBegins
          rw [valueTail] at valueReads
          refine guarantees_append fun final added => ?_
          have spread :=
            ((writes.trans ((Writes.advance between).trans (.advance _))).trans
              valueWrites).trans added.writes
          refine ⟨.assignSubscript left index value, ⟨_, ?_, spread⟩, ?_⟩
          · simp [leftGenerated, indexGenerated, valueGenerated, added.resources]
          · simp [readTrailing, readSubscript, reads, expect, closing, -Bool.and_eq_true, found,
              valueReads, added.upcoming]
        · intro problem refused syntactic
          replace refused := refused syntactic valueBegins
          rw [valueTail] at refused
          simp [readTrailing, readSubscript, reads, expect, closing, -Bool.and_eq_true, found,
            refused]
      · intro missing
        rw [tail] at missing
        refine guarantees_append fun after added => ?_
        have spread := (writes.trans (Writes.advance between)).trans added.writes
        refine ⟨.subscript left index, ⟨_, ?_, spread⟩, ?_⟩
        · simp [leftGenerated, indexGenerated, added.resources]
        · simp [readTrailing, readSubscript, reads, expect, closing, -Bool.and_eq_true, missing,
            added.upcoming, tail]
    · intro missing _
      simp [readTrailing, readSubscript, reads, expect, missing]
  · intro problem refused syntactic
    simp [readTrailing, readSubscript, refused syntactic begins]

/-- A form after an operand, whose token has just been read. -/
theorem trailingForm_agrees (canAssign : Bool) (form : TrailingForm) :
    TreeAgrees (trailingForm operand canAssign form) state before
      (readTrailing reader canAssign left form before.upcoming) := by
  cases form with
  | binary operator => exact binary_agrees agrees leftEmits begins canAssign operator
  | conjunction => exact conjunction_agrees agrees leftEmits begins canAssign
  | disjunction => exact disjunction_agrees agrees leftEmits begins canAssign
  | call => exact call_agrees agrees leftEmits begins canAssign
  | property => exact property_agrees agrees leftEmits canAssign
  | subscript => exact subscript_agrees agrees leftEmits begins canAssign

end Trailing

/-! ## Whole expressions -/

/--
The forms after an operand that bind tightly enough.  The invariant of the loop
is that reading goes on from the present tree as it would from the first one.
-/
theorem trailingForms_agree
    (agrees : OperandAgrees operand reader)
    (least : Precedence)
    (canAssign : Bool)
    {before : Compilation}
    {first : Expr}
    (firstEmits : Emits (first.code state.surroundings) state before) :
    TreeAgrees
      (repeatWhile (fun _ => do
        match ← nextTrailing? least with
        | none => return (false, ())
        | some form =>
          advance
          trailingForm operand canAssign form
          return (true, ())) ())
      state before
      (readTrailings reader least canAssign (before.upcoming.length + 1) first
        before.upcoming) := by
  refine guarantees_repeatWhile
    (fun bound _ between =>
      ∃ tree,
        Emits (tree.code state.surroundings) state between ∧
          readTrailings reader least canAssign (before.upcoming.length + 1) first
              before.upcoming =
            readTrailings reader least canAssign bound tree between.upcoming)
    ⟨first, firstEmits, rfl⟩ ?_ ?_
  · rintro - after ⟨tree, emits, reads⟩
    exact ⟨tree, emits, reads⟩
  · rintro bound - between ⟨tree, emits, reads⟩
    rw [reads]
    refine .bind (guarantees_look ?_)
    have next :
        between.current.kind.trailing?.filter
            (fun form => decide (least.rank ≤ form.precedence.rank)) =
          trailingNext? least between.upcoming := by
      rw [kind_current]
      rfl
    rw [next]
    rcases found : trailingNext? least between.upcoming with _ | form
    · exact .pure ⟨tree, emits, by simp [readTrailings, found]⟩
    · have trailing : between.current.kind.trailing? = some form := by
        rw [kind_current]
        exact (Option.filter_eq_some_iff.mp found).1
      have isMark := not_isEnd_of_trailing trailing
      have tail := upcoming_advance_eq_tail isMark
      refine .bind (guarantees_advance (.bind ?_))
      have formAgrees :=
        trailingForm_agrees agrees emits.advance
          (begins_advance_of_trailing trailing) canAssign form
      rw [tail] at formAgrees
      refine formAgrees.mono ?_ ?_
      · rintro - after ⟨result, resultEmits, resultReads⟩
        exact .pure ⟨result, resultEmits, by simp [readTrailings, found, resultReads]⟩
      · intro problem refused syntactic
        simp [readTrailings, found, refused syntactic]

/-- The first form and the forms after it, once the first token has been read. -/
theorem formsAfter_agree
    (agrees : OperandAgrees operand reader)
    (least : Precedence)
    {form : LeadingForm}
    (leads : state.previous.kind.leading? = some form) :
    TreeAgrees
      (do
        let canAssign := decide (least = .assignment)
        leadingForm operand canAssign form
        repeatWhile (fun _ => do
          match ← nextTrailing? least with
          | none => return (false, ())
          | some form =>
            advance
            trailingForm operand canAssign form
            return (true, ())) ()
        if canAssign && (← atMark .equal) then
          failAtCurrent .invalidAssignmentTarget)
      state state
      (readForms reader least form state.upcoming) := by
  refine .bind ((leadingForm_agrees agrees _ leads).mono ?_ ?_)
  · rintro - between ⟨first, firstEmits, firstReads⟩
    refine .bind ((trailingForms_agree agrees least _ firstEmits).mono ?_ ?_)
    · rintro - after ⟨tree, emits, reads⟩
      refine .bind (guarantees_look ?_)
      rw [← startsWith_upcoming]
      split
      · rename_i target
        refine guarantees_failAtCurrent fun _ => ?_
        simp [readForms, firstReads, reads, -Bool.and_eq_true, target]
      · rename_i target
        refine .pure ⟨tree, emits, ?_⟩
        simp [readForms, firstReads, reads, -Bool.and_eq_true, target]
    · intro problem refused syntactic
      simp [readForms, firstReads, refused syntactic]
  · intro problem refused syntactic
    simp [readForms, refused syntactic]

theorem operators_agrees
    (agrees : OperandAgrees operand reader)
    (stops : reader.StopsAtEnd) :
    OperandAgrees (operators operand) (readOperators reader) := by
  intro least state
  refine .bind (guarantees_advance ?_)
  refine .bind (guarantees_look ?_)
  by_cases ended : state.current.kind.isEnd
  · -- At the end of the input the last token is looked at once more.
    have refused : readOperators reader least state.upcoming = .refused :=
      readOperators_of_isEnd reader least (by rwa [← kind_current])
    rw [advance_of_isEnd ended]
    rcases leads : state.previous.kind.leading? with _ | form
    · exact guarantees_fail fun _ _ => refused
    · refine (formsAfter_agree agrees least leads).mono ?_ (fun _ _ _ _ => refused)
      rintro - after ⟨tree, emits, reads⟩
      refine ⟨tree, emits, fun begins => ?_⟩
      obtain ⟨first, rest, leading, -⟩ := Reading.andThen_eq_done reads
      exact absurd leading (readLeading_ne_done_of_isEnd stops _ (begins ended form leads)
        (by rwa [← kind_current]) first rest)
  · have previous := previous_advance ended
    have upcoming := upcoming_eq_cons ended
    rw [previous]
    rcases leads : state.current.kind.leading? with _ | form
    · refine guarantees_fail fun _ _ => ?_
      simp [readOperators, upcoming, leads]
    · have reading :
          readOperators reader least state.upcoming =
            readForms reader least form state.advance.upcoming := by
        simp [readOperators, upcoming, leads]
      rw [reading]
      refine (formsAfter_agree agrees least (previous ▸ leads)).mono ?_ ?_
      · rintro - after ⟨tree, ⟨instructions, generated, writes⟩, reads⟩
        rw [surroundings_advance, resources_advance] at generated
        exact ⟨tree, ⟨instructions, generated, (Writes.advance state).trans writes⟩,
          fun _ => reads⟩
      · intro problem refused syntactic _
        exact refused syntactic

/-- Compiling an operand and reading it agree, whatever the number of levels. -/
theorem expressionWithin_agrees (levels : Nat) :
    OperandAgrees (expressionWithin levels) (read levels) := by
  induction levels with
  | zero =>
      intro least state
      exact guarantees_failAtCurrent (by simp [CompileProblem.isSyntactic])
  | succ levels induction => exact operators_agrees induction (read_stopsAtEnd levels)

end Forms

end Compiler

end ScriptEngine
