import ScriptEngine.Proofs.Compiler.BindingFlow

/-!
# The code of loops is typed

A loop has a head, which is empty or a condition with a jump out of the loop,
and rounds, which jump back to the beginning of the head or of the increment.
-/

namespace ScriptEngine.Compiler

open Syntax Compilation

/-- The instructions behind the condition of a loop while the jump out of it is open. -/
def openExit : List Instruction :=
  [ForwardJump.ifFalse.past Chunk.openDistance, .pop]

/-- The beginning of a loop has been compiled: nothing, or a condition and the jump out. -/
inductive LoopHead (ready headed : Compilation) : Option PendingJump → List Instruction → Prop where
  | unconditional (adds : Adds ready headed []) : LoopHead ready headed none []
  | conditional
      {tested : Compilation}
      {condition : List Instruction}
      (test : Compiles ready tested ready.height condition (ready.height + 1))
      (opened : Adds tested headed openExit) :
      LoopHead ready headed
        (some { operand := ready.written.length + Instruction.totalLength condition + 1 })
        (condition ++ openExit)

theorem LoopHead.adds
    {ready headed : Compilation}
    {leave? : Option PendingJump}
    {head : List Instruction}
    (isHead : LoopHead ready headed leave? head) :
    Adds ready headed head := by
  cases isHead with
  | unconditional adds => exact adds
  | conditional test opened => exact test.adds.trans opened

/-- The condition is written and the jump out of the loop is opened. -/
theorem guarantees_openExit
    {ready tested : Compilation}
    {condition : List Instruction}
    {rest : PendingJump → Compiler α}
    {onSuccess : α → Compilation → Prop}
    (test : Compiles ready tested ready.height condition (ready.height + 1))
    (scope : tested.draft.scope = ready.draft.scope)
    (next :
      ∀ headed leave,
        LoopHead ready headed (some leave) (condition ++ openExit) →
        headed.draft.scope = ready.draft.scope →
        (tested.Begins → headed.Begins) →
          Guarantees (rest leave) headed onSuccess (fun _ => True)) :
    Guarantees
      (do
        let leave ← emitJump .jumpIfFalse
        emit .pop
        rest leave)
      tested onSuccess (fun _ => True) := by
  refine .bind (guarantees_openJump .ifFalse fun opened opening => ?_)
  refine .bind (guarantees_append fun headed popping => ?_)
  have both := opening.trans popping
  have place :
      tested.written.length = ready.written.length + Instruction.totalLength condition := by
    rw [test.adds.written, List.length_append, Instruction.length_encode]
  rw [place]
  exact next headed _ (.conditional test (both.adds test.adds.sound))
    (both.writes.scope.trans scope) both.begins

/-- The jump out of the loop leads behind the rounds. -/
theorem guarantees_closeExit
    {ready headed looped : Compilation}
    {leave : PendingJump}
    {head rounds : List Instruction}
    {rest : Compiler α}
    {onSuccess : α → Compilation → Prop}
    (settled : ready.draft.scope.Settled)
    (isHead : LoopHead ready headed (some leave) head)
    (added : Adds headed looped rounds)
    (loops : LoopsBack looped.context ready.height (Instruction.totalLength head) rounds)
    (next :
      ∀ after code,
        Compiles ready after ready.height code ready.height →
        after.draft.scope = looped.draft.scope →
          Guarantees rest after onSuccess (fun _ => True)) :
    Guarantees
      (do
        patchJump leave
        emit .pop
        rest)
      looped onSuccess (fun _ => True) := by
  have positive : 0 < ready.height := settled.fits.positive
  cases isHead with
  | @conditional tested condition test opened =>
      have whole := (test.adds.trans opened).trans added
      refine .bind (guarantees_closeAdds .ifFalse condition (.pop :: rounds)
        (by simpa [openExit] using whole) rfl ?_ fun _ => trivial)
      intro closed near closedAdds closedContext closedScope _
      refine .bind (guarantees_append fun after popping => ?_)
      have popped := popping.adds closedAdds.sound
      have length :
          Instruction.totalLength (condition ++ openExit) =
            Instruction.totalLength condition + 4 := by
        simp [openExit]
        rfl
      have skipped :
          Instruction.totalLength (.pop :: rounds) = Instruction.totalLength rounds + 1 := by
        rw [Instruction.totalLength_cons]
        exact Nat.add_comm _ _
      rw [skipped] at near closedAdds
      rw [length] at loops
      have later : looped.context.Extends after.context := by
        rw [← closedContext]
        exact popped.context
      have leads := LoopsBack.conditional
        (test.leads.extend ((opened.context.trans added.context).trans later))
        (loops.extend later) positive near
      refine next after _ ⟨closedAdds.trans popped, ?_⟩ (popping.writes.scope.trans closedScope)
      simpa [ForwardJump.past] using leads

section Rounds

variable {inner : Inner} (compiles : inner.Compiles)

include compiles

/-- A body and a jump back to the head. -/
theorem guarantees_rounds
    {ready headed : Compilation}
    {head : List Instruction}
    {rest : Compiler α}
    {onSuccess : α → Compilation → Prop}
    (settled : ready.draft.scope.Settled)
    (added : Adds ready headed head)
    (scope : headed.draft.scope = ready.draft.scope)
    (begins : headed.Begins)
    (next :
      ∀ looped rounds,
        Adds headed looped rounds →
        LoopsBack looped.context ready.height (Instruction.totalLength head) rounds →
        looped.draft.scope = ready.draft.scope →
          Guarantees rest looped onSuccess (fun _ => True)) :
    Guarantees
      (do
        inner.statement
        emitLoop ready.written.length
        rest)
      headed onSuccess (fun _ => True) := by
  refine .bind ((compiles.statement headed added.sound begins (by rwa [scope])).mono ?_
    fun _ _ => trivial)
  rintro - finished ⟨⟨body, bodyCompiles⟩, bodyScope⟩
  rw [height, scope] at bodyCompiles
  rw [scope] at bodyScope
  have whole := added.trans bodyCompiles.adds
  refine .bind (guarantees_loopBack whole.written rfl ?_ fun _ => trivial)
  intro looped near looping
  rw [Instruction.totalLength_append] at near looping
  have later := looping.adds whole.sound
  exact next looped _ (bodyCompiles.adds.trans later)
    (.body_only (bodyCompiles.leads.extend later.context) settled.fits.positive near)
    (looping.writes.scope.trans bodyScope)

/-- What has been written of an increment that stands before the body of its loop. -/
inductive LoopIncrement (ready headed after : Compilation) (head : List Instruction) :
    Nat → Prop where
  | absent (adds : Adds headed after []) :
    LoopIncrement ready headed after head ready.written.length
  | present
      {increment : List Instruction}
      (leads : Leads after.context ready.height increment ready.height)
      (near :
        Instruction.totalLength head + 3 + Instruction.totalLength increment + 3 ≤
          Chunk.maxDistance)
      (adds :
        Adds headed after
          (.jump (UInt16.ofNat (Instruction.totalLength increment + 3)) ::
            (increment ++
              [.loop (UInt16.ofNat
                (Instruction.totalLength head + 3 + Instruction.totalLength increment + 3))]))) :
      LoopIncrement ready headed after head (headed.written.length + 3)

theorem forIncrement_compiles
    {ready headed : Compilation}
    {head : List Instruction}
    (settled : ready.draft.scope.Settled)
    (added : Adds ready headed head)
    (scope : headed.draft.scope = ready.draft.scope)
    (begins : headed.Begins) :
    Guarantees (inner.forIncrement ready.written.length) headed
      (fun again after =>
        LoopIncrement ready headed after head again ∧
          after.draft.scope = ready.draft.scope ∧ after.Begins)
      (fun _ => True) := by
  have positive : 0 < ready.height := settled.fits.positive
  refine .bind (guarantees_matchMark (fun _ _ closed => ?_) fun _ => ?_)
  · exact .pure ⟨.absent (adds_advance added.sound), by rwa [scope_advance], closed⟩
  · refine .bind (guarantees_openJump .always fun opened opening => ?_)
    refine .bind (guarantees_look ?_)
    have openedAdds := opening.adds added.sound
    have openedScope : opened.draft.scope = ready.draft.scope := opening.writes.scope.trans scope
    refine .bind ((compiles.expression opened ready.height openedAdds.sound
      (opening.begins begins) ?_).mono ?_ fun _ _ => trivial)
    · rw [openedScope]
      exact settled.fits
    · rintro - valued ⟨⟨expression, valueCompiles⟩, valuedScope⟩
      refine .bind (guarantees_append fun popped popping => ?_)
      have increment := valueCompiles.appendLeads popping (popLeads _ positive)
      refine .bind (guarantees_expect (fun _ _ closed => ?_) fun _ => trivial)
      replace increment := increment.silently (adds_advance increment.adds.sound)
      generalize expression ++ [Instruction.pop] = code at increment
      have written := ((added.trans openedAdds).trans increment.adds).written
      refine .bind (guarantees_loopBack written rfl ?_ fun _ => trivial)
      intro looped startNear looping
      have distance :
          Instruction.totalLength
              (head ++ [ForwardJump.always.past Chunk.openDistance] ++ code) + 3 =
            Instruction.totalLength head + 3 + Instruction.totalLength code + 3 := by
        simp only [Instruction.totalLength_append]
        rfl
      rw [distance] at startNear looping
      have loopedAdds := looping.adds increment.adds.sound
      have whole := (openedAdds.trans increment.adds).trans loopedAdds
      rw [List.append_assoc, List.singleton_append] at whole
      refine .bind (guarantees_closeAdds .always [] _ whole rfl ?_ fun _ => trivial)
      intro after near closedAdds closedContext closedScope closedBegins
      have place : opened.draft.chunk.code.size = headed.written.length + 3 := by
        rw [← Array.length_toList, toList_code, openedAdds.written, List.length_append]
        rfl
      rw [place]
      refine .pure ⟨.present ?_ startNear ?_, ?_, ?_⟩
      · rw [closedContext]
        exact increment.leads.extend loopedAdds.context
      · rw [Instruction.totalLength_append] at closedAdds
        exact closedAdds
      · rw [closedScope, looping.writes.scope, scope_advance, popping.writes.scope,
          valuedScope, openedScope]
      · exact closedBegins (looping.begins closed)

/-- An increment, a body and the jumps back. -/
theorem guarantees_incrementedRounds
    {ready headed : Compilation}
    {head : List Instruction}
    {rest : Compiler α}
    {onSuccess : α → Compilation → Prop}
    (settled : ready.draft.scope.Settled)
    (added : Adds ready headed head)
    (scope : headed.draft.scope = ready.draft.scope)
    (begins : headed.Begins)
    (next :
      ∀ looped rounds,
        Adds headed looped rounds →
        LoopsBack looped.context ready.height (Instruction.totalLength head) rounds →
        looped.draft.scope = ready.draft.scope →
          Guarantees rest looped onSuccess (fun _ => True)) :
    Guarantees
      (do
        let again ← inner.forIncrement ready.written.length
        inner.statement
        emitLoop again
        rest)
      headed onSuccess (fun _ => True) := by
  have positive : 0 < ready.height := settled.fits.positive
  refine .bind ((forIncrement_compiles compiles settled added scope begins).mono ?_
    fun _ _ => trivial)
  rintro again bodyStart ⟨isIncrement, bodyScope, bodyBegins⟩
  cases isIncrement with
  | absent adds =>
      have whole := added.trans adds
      rw [List.append_nil] at whole
      refine guarantees_rounds compiles settled whole bodyScope bodyBegins ?_
      intro looped rounds roundsAdds loops loopedScope
      exact next looped rounds (adds.trans roundsAdds) loops loopedScope
  | @present increment leads startNear adds =>
      refine .bind ((compiles.statement bodyStart adds.sound bodyBegins
        (by rwa [bodyScope])).mono ?_
        fun _ _ => trivial)
      rintro - finished ⟨⟨body, bodyCompiles⟩, finishedScope⟩
      rw [height, bodyScope] at bodyCompiles
      have whole := adds.trans bodyCompiles.adds
      have written : finished.written =
          headed.written ++
              (Instruction.jump (UInt16.ofNat (Instruction.totalLength increment + 3))).bytes ++
            Instruction.encode
              (increment ++
                .loop (UInt16.ofNat
                  (Instruction.totalLength head + 3 + Instruction.totalLength increment + 3)) ::
                  body) := by
        rw [whole.written]
        simp
      refine .bind (guarantees_loopBack written (by simp; rfl) ?_ fun _ => trivial)
      intro looped bodyNear looping
      have distance :
          Instruction.totalLength
              (increment ++
                .loop (UInt16.ofNat
                  (Instruction.totalLength head + 3 + Instruction.totalLength increment + 3)) ::
                  body) + 3 =
            Instruction.totalLength increment + 3 + Instruction.totalLength body + 3 := by
        rw [Instruction.totalLength_append, Instruction.totalLength_cons, ← Nat.add_assoc]
        rfl
      rw [distance] at bodyNear looping
      have loopedAdds := looping.adds whole.sound
      have loops := LoopsBack.with_increment
        (leads.extend (bodyCompiles.adds.context.trans loopedAdds.context))
        (bodyCompiles.leads.extend loopedAdds.context) positive startNear bodyNear
      refine next looped _ ?_ loops
        (looping.writes.scope.trans (finishedScope.trans bodyScope))
      simpa only [List.cons_append, List.append_assoc, List.nil_append] using
        whole.trans loopedAdds

/-! ## The statements -/

theorem whileStatement_compiles : CompilesStatement inner.whileStatement := by
  intro state sound begins settled
  refine .bind (guarantees_look ?_)
  refine guarantees_condition compiles sound settled fun tested condition test scope ready => ?_
  refine guarantees_openExit test scope fun headed leave isHead headedScope headedBegins => ?_
  refine guarantees_rounds compiles settled isHead.adds headedScope (headedBegins ready) ?_
  intro looped rounds added loops loopedScope
  refine guarantees_closeExit settled isHead added loops fun after code compiled afterScope => ?_
  exact .pure ⟨⟨code, compiled⟩, afterScope.trans loopedScope⟩

/-! ## Counting loops -/

omit compiles

/-- An expression can begin after what ends with a semicolon. -/
theorem expressionStatement_begins (state : Compilation) :
    Guarantees inner.expressionStatement state (fun _ after => after.Begins) (fun _ => True) := by
  refine .bind ((guarantees_nothing _ state).mono (fun _ between _ => ?_) fun _ => id)
  refine .bind (guarantees_expect (fun _ _ begins => ?_) fun _ => trivial)
  exact guarantees_append fun _ appends => appends.begins begins

theorem defineVariable_begins
    {state : Compilation}
    (begins : state.Begins)
    (binding : Binding) :
    Guarantees (defineVariable binding) state (fun _ after => after.Begins) (fun _ => True) := by
  cases binding with
  | moduleSlot slot => exact guarantees_append fun _ appends => appends.begins begins
  | newLocal => exact guarantees_change begins

theorem variableDeclaration_begins (state : Compilation) :
    Guarantees inner.variableDeclaration state (fun _ after => after.Begins) (fun _ => True) := by
  refine .bind ((guarantees_nothing _ state).mono (fun _ named _ => ?_) fun _ => id)
  refine .bind ((guarantees_nothing _ named).mono (fun binding declared _ => ?_) fun _ => id)
  have finish :
      ∀ valued,
        Guarantees
          (do
            consume .semicolon "';' after variable declaration"
            defineVariable binding)
          valued (fun _ after => after.Begins) (fun _ => True) := fun valued =>
    .bind (guarantees_expect (fun _ _ begins => defineVariable_begins begins binding)
      fun _ => trivial)
  refine .bind (guarantees_matchKind (fun _ => ?_) fun _ => ?_)
  · exact .bind ((guarantees_nothing _ _).mono (fun _ valued _ => finish valued) fun _ => id)
  · exact .bind ((guarantees_nothing _ _).mono (fun _ valued _ => finish valued) fun _ => id)

include compiles

theorem forInitializer_compiles
    {state : Compilation}
    (sound : state.Sound)
    (begins : state.Begins)
    (settled : state.draft.scope.Settled) :
    Guarantees inner.forInitializer state
      (fun _ after => DeclarationDone state after ∧ after.Begins) (fun _ => True) := by
  refine .bind (guarantees_matchMark (fun _ _ ready => ?_) fun _ => ?_)
  · exact .pure ⟨(DeclarationDone.refl sound settled).advance, ready⟩
  · refine .bind (guarantees_matchWord rfl (fun ready => ?_) ?_)
    · have inside := (DeclarationDone.refl sound settled).advance
      have declaration := variableDeclaration_compiles compiles _ inside.sound ready
        (inside.settled settled)
      refine (declaration.mono (fun _ _ => inside.trans) fun _ => id).and ?_
      exact variableDeclaration_begins _
    · have statement := expressionStatement_compiles compiles state sound begins settled
      exact (statement.mono (fun _ _ done => done.declaration settled) fun _ => id).and
        (expressionStatement_begins state)

theorem forCondition_compiles
    {ready : Compilation}
    (sound : ready.Sound)
    (begins : ready.Begins)
    (settled : ready.draft.scope.Settled) :
    Guarantees inner.forCondition ready
      (fun leave? headed =>
        (∃ head, LoopHead ready headed leave? head) ∧
          headed.draft.scope = ready.draft.scope ∧ headed.Begins)
      (fun _ => True) := by
  refine .bind (guarantees_matchMark (fun _ _ headed => ?_) fun _ => ?_)
  · exact .pure ⟨⟨[], .unconditional (adds_advance sound)⟩, scope_advance ready, headed⟩
  · refine .bind ((expression_settled compiles sound begins settled).mono ?_ fun _ => id)
    rintro - tested ⟨⟨condition, test⟩, scope⟩
    refine .bind (guarantees_expect (fun _ _ closed => ?_) fun _ => trivial)
    refine guarantees_openExit (test.silently (adds_advance test.adds.sound))
      (by rw [scope_advance, scope]) fun headed leave isHead headedScope headedBegins => ?_
    exact .pure ⟨⟨_, isHead⟩, headedScope, headedBegins closed⟩

theorem forStatement_compiles : CompilesStatement inner.forStatement := by
  intro state sound _ settled
  have entered := adds_enter sound
  refine .bind (guarantees_enterBlock (.bind ?_))
  refine guarantees_expect (fun _ _ begins => ?_) fun _ => trivial
  have opening := (DeclarationDone.refl entered.sound settled.enter).advance
  refine .bind ((forInitializer_compiles compiles opening.sound begins
    (opening.settled settled.enter)).mono ?_ fun _ => id)
  rintro - ready ⟨initialized, readyBegins⟩
  have initial := opening.trans initialized
  have readySettled := initial.settled settled.enter
  refine .bind (guarantees_look ?_)
  refine .bind ((forCondition_compiles compiles initial.sound readyBegins readySettled).mono ?_
    fun _ => id)
  rintro leave? headed ⟨⟨head, isHead⟩, headedScope, headedBegins⟩
  -- The variables of the first clause end with the loop.
  have finish :
      ∀ after code,
        Compiles ready after ready.height code ready.height →
        after.draft.scope = ready.draft.scope →
          Guarantees leaveBlock after (fun _ final => StatementDone state final)
            (fun _ => True) := by
    intro after code compiled scope
    have loop := StatementDone.declaration ⟨⟨code, compiled⟩, scope⟩ readySettled
    exact leaveBlock_compiles sound settled (initial.trans loop)
  refine guarantees_incrementedRounds compiles readySettled isHead.adds headedScope headedBegins ?_
  intro looped rounds added loops loopedScope
  cases leave? with
  | none =>
      cases isHead with
      | unconditional adds =>
          exact finish looped rounds ⟨adds.trans added, loops.forever⟩ loopedScope
  | some leave =>
      refine guarantees_closeExit readySettled isHead added loops
        fun after code compiled scope => ?_
      exact finish after code compiled (scope.trans loopedScope)

/-! ## Returns and all statements -/

omit compiles

/-- A return without a value. -/
theorem emitReturn_compiles
    {state : Compilation}
    {height : Nat}
    (sound : state.Sound)
    (positive : 0 < height) :
    Guarantees emitReturn state
      (fun _ after =>
        (∃ instructions, Adds state after instructions ∧ Ends after.context height instructions) ∧
          after.draft.scope = state.draft.scope)
      (fun _ => True) := by
  have finish :
      ∀ instruction pushed,
        Appends state pushed [instruction] →
        Leads pushed.context height [instruction] (height + 1) →
          Guarantees (emit .leave) pushed
            (fun _ after =>
              (∃ instructions,
                Adds state after instructions ∧ Ends after.context height instructions) ∧
                after.draft.scope = state.draft.scope)
            (fun _ => True) := by
    intro instruction pushed pushing leads
    refine guarantees_append fun after leaving => ?_
    have added := leaving.adds (pushing.adds sound).sound
    exact ⟨⟨_, (pushing.adds sound).trans added,
      (Ends.leave (Nat.succ_lt_succ positive)).prepend (leads.extend added.context)⟩,
      leaving.writes.scope.trans pushing.writes.scope⟩
  refine .bind (guarantees_look ?_)
  split
  · refine .bind (guarantees_append fun pushed pushing => ?_)
    exact finish _ pushed pushing (.single rfl positive positive rfl)
  · refine .bind (guarantees_append fun pushed pushing => ?_)
    exact finish _ pushed pushing (.single rfl positive trivial rfl)

/-- A word that begins a statement, and the statement. -/
theorem guarantees_statementWord
    {state : Compilation}
    {word : Keyword}
    {statement : Compiler Unit}
    {others : Compiler Unit}
    (leadsNothing : (TokenKind.keyword word).leading? = none)
    (sound : state.Sound)
    (settled : state.draft.scope.Settled)
    (chosen : CompilesStatement statement)
    (otherwise :
      Guarantees others state (fun _ after => StatementDone state after) (fun _ => True)) :
    Guarantees
      (do
        if ← matchWord word then
          statement
        else
          others)
      state (fun _ after => StatementDone state after) (fun _ => True) := by
  have entered := adds_advance sound
  refine .bind (guarantees_matchWord leadsNothing (fun begins => ?_) otherwise)
  refine (chosen _ entered.sound begins (by rwa [scope_advance])).mono ?_ fun _ => id
  intro _ after done
  exact .afterwards entered (scope_advance state) done

include compiles

theorem returnStatement_compiles : CompilesStatement inner.returnStatement := by
  intro state sound begins settled
  have positive : 0 < state.height := settled.fits.positive
  refine .bind (guarantees_matchMark (fun _ _ _ => ?_) fun _ => ?_)
  · have entered := adds_advance sound
    refine (emitReturn_compiles entered.sound positive).mono ?_ fun _ => id
    rintro - after ⟨⟨instructions, added, ends⟩, scope⟩
    exact ⟨⟨instructions, entered.trans added, ends.leads _⟩, by rw [scope, scope_advance]⟩
  · refine .bind (guarantees_look ?_)
    split
    · exact guarantees_fail trivial
    · refine .bind ((expression_settled compiles sound begins settled).mono ?_ fun _ => id)
      rintro - valued ⟨⟨instructions, value⟩, scope⟩
      refine .bind (guarantees_expect (fun _ _ _ => ?_) fun _ => trivial)
      refine guarantees_append fun after leaving => ?_
      have closed := value.silently (adds_advance value.adds.sound)
      refine ⟨⟨_, closed.appendLeads leaving
        ((Ends.leave (Nat.succ_lt_succ positive)).leads _)⟩, ?_⟩
      rw [leaving.writes.scope, scope_advance, scope]

theorem statementBody_compiles : CompilesStatement inner.statementBody := by
  intro state sound begins settled
  refine guarantees_statementWord rfl sound settled (printStatement_compiles compiles) ?_
  refine guarantees_statementWord rfl sound settled (ifStatement_compiles compiles) ?_
  refine guarantees_statementWord rfl sound settled (whileStatement_compiles compiles) ?_
  refine guarantees_statementWord rfl sound settled (forStatement_compiles compiles) ?_
  refine guarantees_statementWord rfl sound settled (returnStatement_compiles compiles) ?_
  have entered := adds_advance sound
  refine .bind (guarantees_matchMark (fun _ _ opened => ?_) fun _ => ?_)
  · refine (blockStatement_compiles compiles _ entered.sound opened (by rwa [scope_advance])).mono
      ?_ fun _ => id
    intro _ after done
    exact .afterwards entered (scope_advance state) done
  · exact expressionStatement_compiles compiles state sound begins settled

end Rounds

end ScriptEngine.Compiler
