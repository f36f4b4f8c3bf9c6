import ScriptEngine.Proofs.Compiler.Invariant

/-!
# The code of statements is typed

Every statement leads from the height of the stack before it to the same
height, and a declaration to the height of the scope that it leaves.  The
routines of the compiler are treated one by one; each is given the routines for
what may stand inside.

A jump is written before its distance is known.  The bytes in between are
therefore followed separately (`Adds`), and the shape of the stack is put
together once all jumps are closed (`Leads`).
-/

namespace ScriptEngine

open Syntax Compilation

/-! ## Loops -/

namespace Syntax

/-- Instructions that jump back to a place before them and never go on behind their end. -/
def LoopsBack (context : CodeContext) (height back : Nat) (instructions : List Instruction) :
    Prop :=
  ∃ code, Annotated.erase code = instructions ∧ Looping context height back code

namespace LoopsBack

variable
  {context : CodeContext}
  {height back : Nat}
  {body increment condition instructions : List Instruction}

theorem extend
    {later : CodeContext}
    (loops : LoopsBack context height back instructions)
    (extends_ : context.Extends later) :
    LoopsBack later height back instructions := by
  obtain ⟨code, erased, looping⟩ := loops
  exact ⟨code, erased, looping.extend extends_⟩

theorem body_only
    (bodyLeads : Leads context height body height)
    (positive : 0 < height)
    (near : back + Instruction.totalLength body + 3 ≤ Chunk.maxDistance) :
    LoopsBack context height back
      (body ++ [.loop (UInt16.ofNat (back + Instruction.totalLength body + 3))]) := by
  obtain ⟨code, rfl, fragment⟩ := bodyLeads
  refine ⟨_, ?_, Looping.body_only fragment positive near⟩
  simp [Annotated.size]

theorem with_increment
    (incrementLeads : Leads context height increment height)
    (bodyLeads : Leads context height body height)
    (positive : 0 < height)
    (startNear : back + 3 + Instruction.totalLength increment + 3 ≤ Chunk.maxDistance)
    (bodyNear :
      Instruction.totalLength increment + 3 + Instruction.totalLength body + 3 ≤
        Chunk.maxDistance) :
    LoopsBack context height back
      (.jump (UInt16.ofNat (Instruction.totalLength increment + 3)) ::
        (increment ++
          .loop (UInt16.ofNat (back + 3 + Instruction.totalLength increment + 3)) ::
            (body ++
              [.loop (UInt16.ofNat
                (Instruction.totalLength increment + 3 + Instruction.totalLength body +
                  3))]))) := by
  obtain ⟨incrementCode, rfl, incrementFragment⟩ := incrementLeads
  obtain ⟨bodyCode, rfl, bodyFragment⟩ := bodyLeads
  refine ⟨_, ?_,
    Looping.with_increment incrementFragment bodyFragment positive startNear bodyNear⟩
  simp [Annotated.size]

theorem forever (loops : LoopsBack context height 0 instructions) :
    Leads context height instructions height := by
  obtain ⟨code, rfl, looping⟩ := loops
  exact ⟨code, rfl, looping.forever _⟩

theorem conditional
    (conditionLeads : Leads context height condition (height + 1))
    (loops :
      LoopsBack context height (Instruction.totalLength condition + 4) instructions)
    (positive : 0 < height)
    (near : Instruction.totalLength instructions + 1 ≤ Chunk.maxDistance) :
    Leads context height
      (condition ++
        .jumpIfFalse (UInt16.ofNat (Instruction.totalLength instructions + 1)) ::
          .pop :: (instructions ++ [.pop]))
      height := by
  obtain ⟨conditionCode, rfl, conditionFragment⟩ := conditionLeads
  obtain ⟨code, rfl, looping⟩ := loops
  refine ⟨_, ?_, Looping.conditional conditionFragment looping positive near⟩
  simp [Annotated.size]

end LoopsBack

/-- Instructions after which nothing is executed. -/
def Ends (context : CodeContext) (height : Nat) (instructions : List Instruction) : Prop :=
  ∃ code,
    Annotated.erase code = instructions ∧
      Annotated.entry code none = some (.plain height) ∧ Typed context code none

namespace Ends

variable
  {context : CodeContext}
  {height between : Nat}
  {first instructions : List Instruction}

theorem leave (takes : 1 < height) : Ends context height [.leave] := by
  refine ⟨[(.plain height, .leave)], rfl, rfl, fun shapeAt offset placed => ?_⟩
  exact ⟨⟨takes, .inr trivial, nofun, nofun, nofun⟩, trivial⟩

theorem prepend (start : Leads context height first between)
    (ends : Ends context between instructions) :
    Ends context height (first ++ instructions) := by
  obtain ⟨startCode, rfl, fragment⟩ := start
  obtain ⟨code, rfl, entry, typed⟩ := ends
  exact ⟨startCode ++ code, by simp, fragment.entry_append none entry,
    fragment.typed_append entry typed⟩

/-- What is behind the end is never reached, so that any height can be assumed there. -/
theorem leads (ends : Ends context height instructions) (higher : Nat) :
    Leads context height instructions higher := by
  obtain ⟨code, rfl, entry, typed⟩ := ends
  refine ⟨code, rfl, ?_, fun shapeAt offset placed => typed shapeAt offset placed.weaken⟩
  cases code with
  | nil => cases entry
  | cons annotated rest => exact entry

end Ends

/-- Several values are popped one after the other. -/
theorem Leads.pops (context : CodeContext) {height : Nat} (positive : 0 < height) (count : Nat) :
    Leads context (height + count) (List.replicate count .pop) height := by
  induction count with
  | zero => exact .nil _ _
  | succ count induction =>
      exact (popLeads context (Nat.add_pos_left positive count)).append induction

end Syntax

/-! ## What the routines guarantee -/

namespace Compilation

/-- The height of the stack between two statements. -/
def height (state : Compilation) : Nat :=
  state.draft.scope.locals.length

theorem height_of_scope
    {first second : Compilation}
    (scope : first.draft.scope = second.draft.scope) :
    first.height = second.height := by
  rw [height, height, scope]

@[simp]
theorem height_advance (state : Compilation) : state.advance.height = state.height :=
  height_of_scope (scope_advance state)

/-- A part of a compilation has added code that leads from one height to another. -/
structure Compiles
    (before after : Compilation)
    (height : Nat)
    (instructions : List Instruction)
    (higher : Nat) :
    Prop where
  adds : Adds before after instructions
  leads : Leads after.context height instructions higher

namespace Compiles

variable
  {before between after : Compilation}
  {height middle higher : Nat}
  {first second : List Instruction}

theorem append
    (start : Compiles before between height first middle)
    (rest : Compiles between after middle second higher) :
    Compiles before after height (first ++ second) higher :=
  ⟨start.adds.trans rest.adds,
    (start.leads.extend rest.adds.context).append rest.leads⟩

/-- An instruction at the end. -/
theorem appendLeads
    (start : Compiles before between height first middle)
    (appends : Appends between after second)
    (leads : Leads after.context middle second higher) :
    Compiles before after height (first ++ second) higher :=
  start.append ⟨appends.adds start.adds.sound, leads⟩

/-- A step that writes no code. -/
theorem silently
    (start : Compiles before between height first middle)
    (adds : Adds between after []) :
    Compiles before after height first middle := by
  have whole := start.append ⟨adds, .nil after.context middle⟩
  simpa using whole

/-- A step before the code that writes nothing. -/
theorem afterwards
    (adds : Adds before between [])
    (rest : Compiles between after height first higher) :
    Compiles before after height first higher :=
  ⟨adds.trans rest.adds, rest.leads⟩

end Compiles

/-- What holds after a statement. -/
def StatementDone (before after : Compilation) : Prop :=
  (∃ instructions, Compiles before after before.height instructions before.height) ∧
    after.draft.scope = before.draft.scope

/-- What holds after a declaration. -/
def DeclarationDone (before after : Compilation) : Prop :=
  (∃ instructions, Compiles before after before.height instructions after.height) ∧
    before.draft.scope.Declares after.draft.scope

theorem StatementDone.declaration
    {before after : Compilation}
    (done : StatementDone before after)
    (settled : before.draft.scope.Settled) :
    DeclarationDone before after := by
  obtain ⟨⟨instructions, compiles⟩, scope⟩ := done
  have same := height_of_scope scope
  refine ⟨⟨instructions, ?_⟩, ?_⟩
  · rw [same]
    exact compiles
  · rw [scope]
    exact .refl settled

theorem StatementDone.afterwards
    {before between after : Compilation}
    (adds : Adds before between [])
    (scope : between.draft.scope = before.draft.scope)
    (done : StatementDone between after) :
    StatementDone before after := by
  obtain ⟨⟨instructions, compiles⟩, same⟩ := done
  have level := height_of_scope scope
  rw [level] at compiles
  exact ⟨⟨instructions, .afterwards adds compiles⟩, same.trans scope⟩

namespace DeclarationDone

variable {before between after : Compilation}

theorem refl (sound : before.Sound) (settled : before.draft.scope.Settled) :
    DeclarationDone before before :=
  ⟨⟨[], .refl sound, .nil _ _⟩, .refl settled⟩

theorem trans (first : DeclarationDone before between) (second : DeclarationDone between after) :
    DeclarationDone before after := by
  obtain ⟨⟨instructions, compiles⟩, declares⟩ := first
  obtain ⟨⟨more, moreCompiles⟩, moreDeclares⟩ := second
  exact ⟨⟨_, compiles.append moreCompiles⟩, declares.trans moreDeclares⟩

theorem sound (done : DeclarationDone before after) : after.Sound := by
  obtain ⟨⟨_, compiles⟩, -⟩ := done
  exact compiles.adds.sound

theorem settled (done : DeclarationDone before after) (settled : before.draft.scope.Settled) :
    after.draft.scope.Settled :=
  done.2.settled settled

theorem context (done : DeclarationDone before after) :
    before.context.Extends after.context := by
  obtain ⟨⟨_, compiles⟩, -⟩ := done
  exact compiles.adds.context

theorem advance (done : DeclarationDone before after) : DeclarationDone before after.advance := by
  obtain ⟨⟨instructions, compiles⟩, declares⟩ := done
  refine ⟨⟨instructions, ?_⟩, by rwa [scope_advance]⟩
  rw [height_advance]
  exact compiles.silently (adds_advance compiles.adds.sound)

theorem afterwards
    (adds : Adds before between [])
    (scope : between.draft.scope = before.draft.scope)
    (done : DeclarationDone between after) :
    DeclarationDone before after := by
  obtain ⟨⟨instructions, compiles⟩, declares⟩ := done
  have level := height_of_scope scope
  rw [level] at compiles
  rw [scope] at declares
  exact ⟨⟨instructions, .afterwards adds compiles⟩, declares⟩

end DeclarationDone

/-- An expression that is read next assigns variables only. -/
theorem Sound.assigns
    {state : Compilation}
    (sound : state.Sound)
    {consumed rest : List TokenKind}
    (split : state.upcoming = consumed ++ rest)
    {level : Level}
    {tree : Expr}
    (derived : Derives level consumed tree) :
    tree.Assigns IsVariableName := by
  refine derived.assigns fun name member => ?_
  have upcoming : TokenKind.identifier name ∈ state.upcoming := by
    rw [split]
    exact List.mem_append_left _ member
  obtain ⟨token, inside, kind⟩ := List.mem_map.mp upcoming
  exact sound.names token (Array.mem_toList_iff.mp (List.mem_of_mem_drop inside)) name kind

end Compilation

namespace Compiler

/-- A step that compiles an expression. -/
def CompilesExpression (step : Compiler Unit) : Prop :=
  ∀ state height,
    state.Sound →
    state.Begins →
    state.draft.scope.Fits height →
      Guarantees step state
        (fun _ after =>
          (∃ instructions, Compiles state after height instructions (height + 1)) ∧
            after.draft.scope = state.draft.scope)
        (fun _ => True)

/-- A step that compiles a statement. -/
def CompilesStatement (step : Compiler Unit) : Prop :=
  ∀ state,
    state.Sound →
    state.Begins →
    state.draft.scope.Settled →
      Guarantees step state (fun _ after => StatementDone state after) (fun _ => True)

/-- A step that compiles a declaration. -/
def CompilesDeclaration (step : Compiler Unit) : Prop :=
  ∀ state,
    state.Sound →
    state.Begins →
    state.draft.scope.Settled →
      Guarantees step state (fun _ after => DeclarationDone state after) (fun _ => True)

/-- The routines for what may stand inside a statement do what they should. -/
structure Inner.Compiles (inner : Inner) : Prop where
  expression : CompilesExpression inner.expression
  statement : CompilesStatement inner.statement
  declaration : CompilesDeclaration (inner.code .declaration)

/-- Expressions are compiled as the code of their trees, which is typed. -/
theorem expression_compiles
    {operand : OperandCompiler}
    {reader : OperandReader}
    (agrees : OperandAgrees operand reader)
    (readerSound : reader.Sound) :
    CompilesExpression (whole operand) := by
  intro state height sound begins fits
  refine (agrees .assignment state).mono ?_ (fun _ _ => trivial)
  rintro - after ⟨tree, ⟨instructions, generated, writes⟩, reads⟩
  obtain ⟨consumed, split, derived, -⟩ := readerSound _ _ _ _ (by decide) (reads begins)
  have generates :=
    tree.code_generates (sound.assigns split derived) fits sound.resources generated
  exact ⟨⟨instructions, writes.adds sound generates.grows, generates.leads⟩, writes.scope⟩

/-! ## Rules -/

section Rules

variable {state : Compilation} {onError : CompileProblem → Prop}

theorem guarantees_matchWord
    {word : Keyword}
    (leadsNothing : (TokenKind.keyword word).leading? = none)
    {onSuccess : Bool → Compilation → Prop}
    (present : state.advance.Begins → onSuccess true state.advance)
    (absent : onSuccess false state) :
    Guarantees (matchWord word) state onSuccess onError := by
  refine guarantees_matchKind (fun found => ?_) (fun _ => absent)
  have kind : state.current.kind = .keyword word := by
    generalize state.current.kind = kind at found
    cases kind <;> simp_all [TokenKind.isWord]
  refine present fun _ form leading => ?_
  rw [previous_advance (by simp [kind, TokenKind.isEnd]), kind, leadsNothing] at leading
  cases leading

/-- Closing a jump among instructions that have been added. -/
theorem guarantees_closeAdds
    {before : Compilation}
    (jump : ForwardJump)
    (earlier skipped : List Instruction)
    {place : Nat}
    {onSuccess : Unit → Compilation → Prop}
    (opened :
      Adds before state (earlier ++ jump.past Chunk.openDistance :: skipped))
    (located : place = before.written.length + Instruction.totalLength earlier)
    (success :
      ∀ after,
        Instruction.totalLength skipped ≤ Chunk.maxDistance →
        Adds before after
          (earlier ++ jump.past (UInt16.ofNat (Instruction.totalLength skipped)) :: skipped) →
        after.context = state.context →
        after.draft.scope = state.draft.scope →
        (state.Begins → after.Begins) →
          onSuccess () after)
    (error : ∀ problem, onError problem) :
    Guarantees (patchJump { operand := place + 1 }) state onSuccess onError := by
  have length :
      place = (before.written ++ Instruction.encode earlier).length := by
    simp [located]
  rw [length]
  refine guarantees_closeJump jump skipped ?_ ?_ (fun problem _ => error problem)
  · rw [opened.written, Instruction.encode_append, List.append_assoc]
  · intro chunk near resources written
    have same : (state.withChunk chunk).context = state.context := by
      rw [Compilation.context, Compilation.context, resources]
    refine success _ near ?_ same rfl id
    refine ⟨opened.frame, ⟨?_, opened.sound.names, ?_, opened.sound.finished,
      opened.sound.nested⟩, ?_, opened.finished, ?_⟩
    · rw [resources]
      exact opened.sound.resources
    · have constants : chunk.constants = state.draft.chunk.constants :=
        congrArg (fun resources => resources.pool.constants) resources
      rw [chunk_withChunk, constants]
      exact opened.sound.constants
    · rw [same]
      exact opened.context
    · rw [written, List.append_assoc, ← Instruction.encode_append]

/-- Jumping back to where instructions began that have been added since. -/
theorem guarantees_loopBack
    {earlier : List UInt8}
    {instructions : List Instruction}
    {start : Nat}
    {onSuccess : Unit → Compilation → Prop}
    (added : state.written = earlier ++ Instruction.encode instructions)
    (located : start = earlier.length)
    (success :
      ∀ after,
        Instruction.totalLength instructions + 3 ≤ Chunk.maxDistance →
        Appends state after
          [.loop (UInt16.ofNat (Instruction.totalLength instructions + 3))] →
          onSuccess () after)
    (error : ∀ problem, onError problem) :
    Guarantees (emitLoop start) state onSuccess onError := by
  have length : state.written.length + 3 - start = Instruction.totalLength instructions + 3 := by
    rw [added, located, List.length_append, Instruction.length_encode]
    omega
  refine guarantees_emitLoop ?_ ?_ (fun _ => error _)
  · rw [added, located, List.length_append]
    exact Nat.le_add_right _ _
  · rw [length]
    intro chunk near pool code
    refine success _ near ⟨.withChunk ?_, resources_withChunk_of pool, rfl, id⟩
    rw [code]
    simp

end Rules

section Statements

variable {inner : Inner} (compiles : inner.Compiles)

include compiles

/-- An expression at the height of a settled scope. -/
theorem expression_settled
    {state : Compilation}
    (sound : state.Sound)
    (begins : state.Begins)
    (settled : state.draft.scope.Settled) :
    Guarantees inner.expression state
      (fun _ after =>
        (∃ instructions, Compiles state after state.height instructions (state.height + 1)) ∧
          after.draft.scope = state.draft.scope)
      (fun _ => True) :=
  compiles.expression state _ sound begins settled.fits

/-- An expression, a semicolon and an instruction that takes the value. -/
theorem takingStatement_compiles
    {what : String}
    (instruction : Instruction)
    (ordinary : instruction.isOrdinary = true)
    (takes : instruction.takes = 1)
    (gives : instruction.gives = 0)
    (admits : ∀ context height, CodeContext.Admits context height instruction) :
    CompilesStatement
      (do
        inner.expression
        consume .semicolon what
        emit instruction) := by
  intro state sound begins settled
  have positive : 0 < state.height := settled.fits.positive
  refine .bind ((expression_settled compiles sound begins settled).mono ?_ fun _ _ => trivial)
  rintro - between ⟨⟨instructions, expression⟩, scope⟩
  refine .bind (guarantees_expect (fun _ _ _ => ?_) fun _ => trivial)
  refine guarantees_append fun after appends => ?_
  have leads : Leads after.context (state.height + 1) [instruction] state.height :=
    .single ordinary (by omega) (admits _ _) (by omega)
  refine ⟨⟨_, (expression.silently (adds_advance expression.adds.sound)).appendLeads appends
    leads⟩, ?_⟩
  rw [appends.writes.scope, scope_advance, scope]

theorem printStatement_compiles : CompilesStatement inner.printStatement :=
  takingStatement_compiles compiles .print rfl rfl rfl fun _ _ => trivial

theorem expressionStatement_compiles : CompilesStatement inner.expressionStatement :=
  takingStatement_compiles compiles .pop rfl rfl rfl fun _ _ => trivial

/-- Declarations up to a closing brace. -/
theorem block_compiles
    {state : Compilation}
    (sound : state.Sound)
    (settled : state.draft.scope.Settled) :
    Guarantees inner.block state (fun _ after => DeclarationDone state after)
      (fun _ => True) := by
  refine .bind ((guarantees_repeatInvariant (fun _ => DeclarationDone state)
    (.refl sound settled) ?_).mono ?_ fun _ => id)
  · intro _ between block
    refine .bind (guarantees_look (.bind (guarantees_look ?_)))
    split
    · exact .pure block
    · rename_i unfinished
      simp only [Bool.or_eq_true, not_or] at unfinished
      have inside := compiles.declaration between block.sound
        (begins_of_not_isEnd unfinished.2) (block.settled settled)
      refine .bind (inside.mono ?_ fun _ _ => trivial)
      intro _ after added
      exact .pure (block.trans added)
  · intro _ between block
    exact guarantees_expect (fun _ _ _ => block.advance) fun _ => trivial

omit compiles

theorem guarantees_enterBlock
    {state : Compilation}
    {onError : CompileProblem → Prop}
    {onSuccess : Unit → Compilation → Prop}
    (holds : onSuccess () (state.withScope state.draft.scope.enter)) :
    Guarantees enterBlock state onSuccess onError :=
  holds

/-- Leaving a block pops the variables that were declared in it. -/
theorem leaveBlock_compiles
    {state between : Compilation}
    (sound : state.Sound)
    (settled : state.draft.scope.Settled)
    (inside : DeclarationDone (state.withScope state.draft.scope.enter) between) :
    Guarantees leaveBlock between (fun _ after => StatementDone state after)
      (fun _ => True) := by
  obtain ⟨⟨instructions, block⟩, declares⟩ := inside
  have emitted :
      Guarantees
        (emitAll (List.replicate (between.height - state.draft.scope.locals.length) .pop))
        (between.withScope state.draft.scope)
        (fun _ after => StatementDone state after) (fun _ => True) := by
    refine (guarantees_emitAll _).mono (fun _ after appends => ?_) fun _ => id
    have pops := Leads.pops after.context settled.fits.positive
      (between.height - state.draft.scope.locals.length)
    have heights :
        state.draft.scope.locals.length + (between.height - state.draft.scope.locals.length) =
          between.height :=
      Nat.add_sub_of_le declares.length_le
    rw [heights] at pops
    have whole := block.afterwards (adds_enter sound)
    have outside : Adds between (between.withScope state.draft.scope) [] := by
      refine adds_withScope block.adds.sound ?_
      rw [whole.adds.role]
      exact sound.nested
    exact ⟨⟨_, (whole.silently outside).appendLeads appends pops⟩, appends.writes.scope⟩
  have left := Scope.leave_of_declares settled declares
  refine .bind ?_
  unfold Guarantees
  simp only [left]
  exact emitted

include compiles

theorem blockStatement_compiles :
    CompilesStatement
      (do
        enterBlock
        inner.block
        leaveBlock) := by
  intro state sound _ settled
  have entered := adds_enter sound
  refine .bind (guarantees_enterBlock (.bind ?_))
  refine (block_compiles compiles entered.sound settled.enter).mono ?_ fun _ _ => trivial
  intro _ between inside
  exact leaveBlock_compiles sound settled inside

/-! ## Conditions -/

/-- A condition in parentheses leaves its value on the stack. -/
theorem guarantees_condition
    {state : Compilation}
    {before after : String}
    {rest : Compiler α}
    {onSuccess : α → Compilation → Prop}
    (sound : state.Sound)
    (settled : state.draft.scope.Settled)
    (next :
      ∀ ready condition,
        Compiles state ready state.height condition (state.height + 1) →
        ready.draft.scope = state.draft.scope →
        ready.Begins →
          Guarantees rest ready onSuccess (fun _ => True)) :
    Guarantees
      (do
        consume .leftParen before
        inner.expression
        consume .rightParen after
        rest)
      state onSuccess (fun _ => True) := by
  have entered := adds_advance sound
  refine .bind (guarantees_expect (fun _ _ opened => ?_) fun _ => trivial)
  refine .bind ((expression_settled compiles entered.sound opened (by simpa using settled)).mono ?_
    fun _ _ => trivial)
  rintro - tested ⟨⟨condition, test⟩, scope⟩
  rw [scope_advance] at scope
  rw [height_advance] at test
  refine .bind (guarantees_expect (fun _ _ ready => ?_) fun _ => trivial)
  exact next _ condition ((test.afterwards entered).silently (adds_advance test.adds.sound))
    (by rw [scope_advance, scope]) ready

theorem ifStatement_compiles : CompilesStatement inner.ifStatement := by
  intro state sound begins settled
  have positive : 0 < state.height := settled.fits.positive
  refine guarantees_condition compiles sound settled
    fun ready condition test testedScope readyBegins => ?_
  refine .bind (guarantees_openJump .ifFalse fun opened opening => ?_)
  refine .bind (guarantees_append fun popped popping => ?_)
  have start := (opening.trans popping).adds test.adds.sound
  have poppedScope : popped.draft.scope = state.draft.scope := by
    rw [popping.writes.scope, opening.writes.scope, testedScope]
  have consequenceCompiles := compiles.statement popped start.sound
    (popping.begins (opening.begins readyBegins)) (by rwa [poppedScope])
  refine .bind (consequenceCompiles.mono ?_ fun _ _ => trivial)
  rintro - consequent ⟨⟨consequence, first⟩, consequentScope⟩
  rw [poppedScope] at consequentScope
  rw [height, poppedScope] at first
  refine .bind (guarantees_openJump .always fun jumped jumping => ?_)
  have whole := (start.trans first.adds).trans (jumping.adds first.adds.sound)
  refine .bind (guarantees_closeAdds .ifFalse []
    (.pop :: (consequence ++ [ForwardJump.always.past Chunk.openDistance])) whole rfl ?_
    fun _ => trivial)
  intro closed consequenceNear closedAdds closedContext closedScope closedBegins
  have length :
      Instruction.totalLength
        (.pop :: (consequence ++ [ForwardJump.always.past Chunk.openDistance])) =
        Instruction.totalLength (.pop :: consequence) + 3 := by
    simp [Nat.add_assoc]
  rw [length] at consequenceNear closedAdds
  refine .bind (guarantees_append fun repopped repopping => ?_)
  have repoppedScope : repopped.draft.scope = state.draft.scope := by
    rw [repopping.writes.scope, closedScope, jumping.writes.scope, consequentScope]
  have opening := closedAdds.trans (repopping.adds closedAdds.sound)
  -- With or without a second statement, the code behind the first jump's target is complete now.
  have finish :
      ∀ alternative finished,
        Compiles repopped finished state.height alternative state.height →
        finished.draft.scope = state.draft.scope →
          Guarantees (patchJump { operand := consequent.written.length + 1 }) finished
            (fun _ after => StatementDone state after) (fun _ => True) := by
    intro alternative finished second finishedScope
    refine guarantees_closeAdds .always
      (ForwardJump.ifFalse.past
        (UInt16.ofNat (Instruction.totalLength (.pop :: consequence) + 3)) ::
        .pop :: consequence)
      (.pop :: alternative) (by simpa using opening.trans second.adds) ?_ ?_ fun _ => trivial
    · rw [first.adds.written, start.written]
      simp [Instruction.totalLength]
    · intro after alternativeNear added afterContext afterScope _
      have later : consequent.context.Extends after.context := by
        rw [afterContext]
        refine (jumping.adds first.adds.sound).context.trans ?_
        rw [← closedContext]
        exact (repopping.adds closedAdds.sound).context.trans second.adds.context
      have alternativeLeads := second.leads
      rw [← afterContext] at alternativeLeads
      have popping := popLeads after.context positive
      have branches := Leads.branch (popping.append (first.leads.extend later))
        (popping.append alternativeLeads) (Nat.succ_lt_succ positive) positive
        consequenceNear alternativeNear
      exact ⟨⟨_, test.append ⟨added, branches⟩⟩, afterScope.trans finishedScope⟩
  refine .bind (guarantees_matchWord rfl (fun begins => ?_) ?_)
  · have elseAdds := adds_advance opening.sound
    have elseScope : repopped.advance.draft.scope = state.draft.scope := by
      rw [scope_advance, repoppedScope]
    refine .bind ((compiles.statement _ elseAdds.sound begins (by rwa [elseScope])).mono ?_
      fun _ _ => trivial)
    rintro - finished ⟨⟨alternative, second⟩, finishedScope⟩
    rw [height, elseScope] at second
    exact finish alternative finished (second.afterwards elseAdds)
      (finishedScope.trans elseScope)
  · exact finish [] repopped ⟨.refl opening.sound, .nil _ _⟩ repoppedScope

end Statements

end Compiler

end ScriptEngine
