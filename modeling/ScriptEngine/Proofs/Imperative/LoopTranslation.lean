import ScriptEngine.Proofs.Imperative.Translation

/-!
# Loops are compiled to their code

A loop is compiled in three parts: the head, which is empty or a condition with a
jump out of the loop; the rounds, in which an increment stands before the body; and
the end, where the jump out of the loop is closed.
-/

namespace ScriptEngine.Compiler

open Syntax Imperative Compilation

/-- Number of bytes of the head of a loop. -/
def headLength : Option (List Instruction) → Nat
  | none => 0
  | some condition => Instruction.totalLength condition + 4

/-- The head of a loop has been compiled. -/
inductive Headed (ready headed : Compilation) :
    Option Imperative.Expr → Option PendingJump → Option (List Instruction) → Prop where
  | unconditional (progress : Progress ready headed []) : Headed ready headed none none none
  | conditional
      {tested : Compilation}
      {condition : Imperative.Expr}
      {code : List Instruction}
      (tests : Progress ready tested code)
      (coded :
        ∀ book, tested.resources.Within book → condition.Coded book ready.draft.scope code)
      (opened : Progress tested headed openExit) :
      Headed ready headed (some condition)
        (some { operand := ready.written.length + Instruction.totalLength code + 1 })
        (some code)

namespace Headed

variable
  {ready headed : Compilation}
  {condition : Option Imperative.Expr}
  {leave : Option PendingJump}
  {code : Option (List Instruction)}

theorem progress (head : Headed ready headed condition leave code) :
    ∃ instructions,
      Progress ready headed instructions ∧
        Instruction.totalLength instructions = headLength code := by
  cases head with
  | unconditional progress => exact ⟨[], progress, rfl⟩
  | conditional tests _ opened => exact ⟨_, tests.trans opened, by simp [headLength, openExit]; rfl⟩

theorem coded
    (head : Headed ready headed condition leave code)
    {book : Resources}
    (within : headed.resources.Within book) :
    ConditionCoded book ready.draft.scope condition code := by
  cases head with
  | unconditional _ => exact .absent
  | conditional _ coded opened => exact .present (coded book (opened.within.trans within))

end Headed

/-- The rounds of a loop have been compiled. -/
structure Rounded
    (ready headed looped : Compilation)
    (condition : Option (List Instruction))
    (increment : Option Imperative.Expr)
    (body : Stmt)
    (incrementCode : Option (List Instruction))
    (bodyCode : List Instruction) :
    Prop where
  progress : Progress headed looped (roundsCode (headLength condition) incrementCode bodyCode)
  near : RoundsNear (headLength condition) incrementCode bodyCode
  scope : looped.draft.scope = ready.draft.scope
  incrementCoded :
    ∀ book,
      looped.resources.Within book →
        IncrementCoded book ready.draft.scope increment incrementCode
  bodyCoded :
    ∀ book,
      looped.resources.Within book →
        body.Coded book ready.draft.scope bodyCode ready.draft.scope

/-- A loop has been compiled. -/
structure Looped
    (ready after : Compilation)
    (condition increment : Option Imperative.Expr)
    (body : Stmt) :
    Prop where
  scope : after.draft.scope = ready.draft.scope
  coded :
    ∃ conditionCode incrementCode bodyCode,
      Progress ready after (loopCode conditionCode incrementCode bodyCode) ∧
        LoopNear conditionCode incrementCode bodyCode ∧
        ∀ book,
          after.resources.Within book →
            ConditionCoded book ready.draft.scope condition conditionCode ∧
              IncrementCoded book ready.draft.scope increment incrementCode ∧
              body.Coded book ready.draft.scope bodyCode ready.draft.scope

section Loops

variable
  {levels : Nat}
  {ready headed : Compilation}
  {tokens rest : List TokenKind}

/-! ## Heads -/

/-- The condition is written and the jump out of the loop is opened. -/
theorem guarantees_head
    {tested : Compilation}
    {condition : Imperative.Expr}
    {code : List Instruction}
    {next : PendingJump → Compiler α}
    {onSuccess : α → Compilation → Prop}
    (isReady : ready.Ready)
    (tests : Progress ready tested code)
    (coded : ∀ book, tested.resources.Within book → condition.Coded book ready.draft.scope code)
    (scope : tested.draft.scope = ready.draft.scope)
    (success :
      ∀ headed leave,
        Headed ready headed (some condition) (some leave) (some code) →
        headed.draft.scope = ready.draft.scope →
        headed.upcoming = tested.upcoming →
          Guarantees (next leave) headed onSuccess (fun _ => True)) :
    Guarantees
      (do
        let leave ← emitJump .jumpIfFalse
        emit .pop
        next leave)
      tested onSuccess (fun _ => True) := by
  refine .bind (guarantees_openJump .ifFalse fun opened opening => ?_)
  refine .bind (guarantees_append fun headed popping => ?_)
  have both := opening.trans popping
  have place :
      tested.written.length = ready.written.length + Instruction.totalLength code := by
    rw [tests.written, List.length_append, Instruction.length_encode]
  rw [place]
  exact success headed _ (.conditional tests coded (.of_appends both (tests.ready isReady)))
    (both.writes.scope.trans scope) both.upcoming

theorem forCondition_headed
    {condition : Option Imperative.Expr}
    (clause : Clause .semicolon tokens condition rest)
    (isReady : ready.Ready)
    (upcoming : ready.upcoming = tokens) :
    Guarantees (innerOf levels).forCondition ready
      (fun leave headed =>
        ∃ code,
          Headed ready headed condition leave code ∧
            headed.draft.scope = ready.draft.scope ∧ headed.upcoming = rest)
      (fun _ => True) := by
  cases clause with
  | absent =>
      refine .bind (guarantees_accept upcoming rfl rfl fun tail => ?_)
      exact .pure ⟨none, .unconditional (.advance isReady), scope_advance ready, tail⟩
  | @present condition tokens _ spelled =>
      have begins : startsWith .semicolon (tokens ++ .punctuation .semicolon :: rest) = false :=
        startsWith_eq_false_of_derives spelled rfl _
      refine .bind (guarantees_matchMark (fun found => ?_) fun _ => ?_)
      · rw [upcoming, begins] at found
        cases found
      · refine .bind (guarantees_spelled isReady spelled (endsExpression_semicolon _) upcoming ?_)
        intro tested code tests coded unread scope
        refine .bind (guarantees_consumeMark unread fun tail => ?_)
        have closed := tests.silently (.advance (tests.ready isReady))
        refine guarantees_head isReady closed (by rwa [resources_advance])
          (by rw [scope_advance, scope]) ?_
        intro headed leave head headedScope headedUpcoming
        exact .pure ⟨some code, head, headedScope, headedUpcoming.trans tail⟩

/-! ## Rounds -/

/-- A body and a jump back to the head. -/
theorem guarantees_plainRounds
    {instructions : List Instruction}
    {condition : Option (List Instruction)}
    {body : Stmt}
    {next : Compiler α}
    {onSuccess : α → Compilation → Prop}
    (translates : Translates (codeWithin levels .statement) .statement tokens body rest)
    (isReady : ready.Ready)
    (settled : ready.draft.scope.Settled)
    (progress : Progress ready headed instructions)
    (length : Instruction.totalLength instructions = headLength condition)
    (scope : headed.draft.scope = ready.draft.scope)
    (upcoming : headed.upcoming = tokens)
    (success :
      ∀ looped bodyCode,
        Rounded ready headed looped condition none body none bodyCode →
        looped.upcoming = rest →
          Guarantees next looped onSuccess (fun _ => True)) :
    Guarantees
      (do
        (innerOf levels).statement
        emitLoop ready.written.length
        next)
      headed onSuccess (fun _ => True) := by
  refine .bind ((translates headed (progress.ready isReady) (by rwa [scope]) upcoming).mono ?_
    fun _ => id)
  rintro - finished ⟨unread, finishedScope, bodyCode, bodyProgress, bodyCoded⟩
  change finished.draft.scope = headed.draft.scope at finishedScope
  rw [scope] at finishedScope
  rw [scope, finishedScope] at bodyCoded
  have whole := progress.trans bodyProgress
  refine .bind (guarantees_loopBack whole.written rfl ?_ fun _ => trivial)
  intro looped near looping
  rw [Instruction.totalLength_append, length] at near looping
  have loopedProgress := bodyProgress.trans (.of_appends looping (whole.ready isReady))
  refine success looped bodyCode ⟨loopedProgress, near, ?_, fun _ _ => .absent, ?_⟩
    (looping.upcoming.trans unread)
  · rw [looping.writes.scope, finishedScope]
  · rw [looping.resources]
    exact bodyCoded

/-- What has been written of an increment, which stands before the body of its loop. -/
inductive Incremented (ready headed after : Compilation) (back : Nat) :
    Option Imperative.Expr → Nat → Prop where
  | absent
      (progress : Progress headed after []) :
      Incremented ready headed after back none ready.written.length
  | present
      {increment : Imperative.Expr}
      {code : List Instruction}
      (coded :
        ∀ book,
          after.resources.Within book →
            IncrementCoded book ready.draft.scope (some increment) (some code))
      (near : back + 3 + Instruction.totalLength code + 3 ≤ Chunk.maxDistance)
      (progress :
        Progress headed after
          (.jump (UInt16.ofNat (Instruction.totalLength code + 3)) ::
            (code ++
              [.loop (UInt16.ofNat (back + 3 + Instruction.totalLength code + 3))]))) :
      Incremented ready headed after back (some increment) (headed.written.length + 3)

theorem forIncrement_incremented
    {instructions : List Instruction}
    {increment : Option Imperative.Expr}
    (clause : Clause .rightParen tokens increment rest)
    (isReady : ready.Ready)
    (progress : Progress ready headed instructions)
    (scope : headed.draft.scope = ready.draft.scope)
    (upcoming : headed.upcoming = tokens) :
    Guarantees ((innerOf levels).forIncrement ready.written.length) headed
      (fun again after =>
        Incremented ready headed after (Instruction.totalLength instructions) increment again ∧
          after.draft.scope = ready.draft.scope ∧ after.upcoming = rest)
      (fun _ => True) := by
  have headedReady := progress.ready isReady
  cases clause with
  | absent =>
      refine .bind (guarantees_accept upcoming rfl rfl fun tail => ?_)
      exact .pure ⟨.absent (.advance headedReady), by rwa [scope_advance], tail⟩
  | @present increment tokens _ spelled =>
      have begins : startsWith .rightParen (tokens ++ .punctuation .rightParen :: rest) = false :=
        startsWith_eq_false_of_derives spelled rfl _
      refine .bind (guarantees_matchMark (fun found => ?_) fun _ => ?_)
      · rw [upcoming, begins] at found
        cases found
      · refine .bind (guarantees_openJump .always fun opened opening => ?_)
        refine .bind (guarantees_look ?_)
        have opens := Progress.of_appends opening headedReady
        have openedScope : opened.draft.scope = ready.draft.scope :=
          opening.writes.scope.trans scope
        refine .bind (guarantees_spelled (opens.ready headedReady) spelled
          (endsExpression_rightParen _) (opening.upcoming.trans upcoming) ?_)
        intro valued valueCode valueProgress valueCoded unread valuedScope
        rw [openedScope] at valueCoded valuedScope
        refine .bind (guarantees_append fun popped popping => ?_)
        have valuedReady := valueProgress.ready (opens.ready headedReady)
        have pops := Progress.of_appends popping valuedReady
        refine .bind (guarantees_consumeMark (popping.upcoming.trans unread) fun tail => ?_)
        have closed := (valueProgress.trans pops).silently (.advance (pops.ready valuedReady))
        have closedResources : popped.advance.resources = valued.resources := by
          rw [resources_advance, popping.resources]
        have written := ((progress.trans opens).trans closed).written
        refine .bind (guarantees_loopBack written rfl ?_ fun _ => trivial)
        intro looped startNear looping
        have distance :
            Instruction.totalLength
                (instructions ++ [ForwardJump.always.past Chunk.openDistance] ++
                  (valueCode ++ [Instruction.pop])) + 3 =
              Instruction.totalLength instructions + 3 +
                  Instruction.totalLength (valueCode ++ [Instruction.pop]) + 3 := by
          simp only [Instruction.totalLength_append]
          rfl
        rw [distance] at startNear looping
        have loops := Progress.of_appends looping (closed.ready (opens.ready headedReady))
        have whole := (opens.trans closed).trans loops
        rw [List.append_assoc, List.singleton_append] at whole
        refine .bind (guarantees_closeProgress .always [] _ whole rfl ?_)
        intro after near closing afterResources afterUpcoming afterScope
        have place : opened.draft.chunk.code.size = headed.written.length + 3 := by
          rw [← Array.length_toList, toList_code, opens.written, List.length_append]
          rfl
        rw [place]
        refine .pure ⟨.present ?_ startNear ?_, ?_, ?_⟩
        · intro book within
          rw [afterResources, looping.resources, closedResources] at within
          exact .present (valueCoded book within)
        · rw [Instruction.totalLength_append] at closing
          exact closing
        · rw [afterScope, looping.writes.scope, scope_advance, popping.writes.scope, valuedScope]
        · rw [afterUpcoming, looping.upcoming, tail]

/-- An increment, a body and the jumps back. -/
theorem guarantees_countedRounds
    {between : List TokenKind}
    {instructions : List Instruction}
    {condition : Option (List Instruction)}
    {increment : Option Imperative.Expr}
    {body : Stmt}
    {next : Compiler α}
    {onSuccess : α → Compilation → Prop}
    (clause : Clause .rightParen tokens increment between)
    (translates : Translates (codeWithin levels .statement) .statement between body rest)
    (isReady : ready.Ready)
    (settled : ready.draft.scope.Settled)
    (progress : Progress ready headed instructions)
    (length : Instruction.totalLength instructions = headLength condition)
    (scope : headed.draft.scope = ready.draft.scope)
    (upcoming : headed.upcoming = tokens)
    (success :
      ∀ looped incrementCode bodyCode,
        Rounded ready headed looped condition increment body incrementCode bodyCode →
        looped.upcoming = rest →
          Guarantees next looped onSuccess (fun _ => True)) :
    Guarantees
      (do
        let again ← (innerOf levels).forIncrement ready.written.length
        (innerOf levels).statement
        emitLoop again
        next)
      headed onSuccess (fun _ => True) := by
  refine .bind ((forIncrement_incremented clause isReady progress scope upcoming).mono ?_
    fun _ => id)
  rintro again bodyStart ⟨incremented, bodyScope, bodyUpcoming⟩
  rw [length] at incremented
  cases incremented with
  | absent silent =>
      have whole := progress.silently silent
      refine guarantees_plainRounds translates isReady settled whole length bodyScope
        bodyUpcoming ?_
      intro looped bodyCode rounded unread
      refine success looped none bodyCode ⟨?_, rounded.near, rounded.scope,
        fun _ _ => .absent, rounded.bodyCoded⟩ unread
      exact silent.trans rounded.progress
  | @present increment incrementCode incrementCoded startNear incrementProgress =>
      have bodyReady := incrementProgress.ready (progress.ready isReady)
      refine .bind ((translates bodyStart bodyReady (by rwa [bodyScope]) bodyUpcoming).mono ?_
        fun _ => id)
      rintro - finished ⟨unread, finishedScope, bodyCode, bodyProgress, bodyCoded⟩
      change finished.draft.scope = bodyStart.draft.scope at finishedScope
      rw [bodyScope] at finishedScope
      rw [bodyScope, finishedScope] at bodyCoded
      have whole := incrementProgress.trans bodyProgress
      have written : finished.written =
          headed.written ++
              (Instruction.jump
                (UInt16.ofNat (Instruction.totalLength incrementCode + 3))).bytes ++
            Instruction.encode
              (incrementCode ++
                .loop (UInt16.ofNat
                  (headLength condition + 3 + Instruction.totalLength incrementCode + 3)) ::
                  bodyCode) := by
        rw [whole.written]
        simp
      refine .bind (guarantees_loopBack written (by simp; rfl) ?_ fun _ => trivial)
      intro looped bodyNear looping
      have distance :
          Instruction.totalLength
              (incrementCode ++
                .loop (UInt16.ofNat
                  (headLength condition + 3 + Instruction.totalLength incrementCode + 3)) ::
                  bodyCode) + 3 =
            Instruction.totalLength incrementCode + 3 + Instruction.totalLength bodyCode + 3 := by
        rw [Instruction.totalLength_append, Instruction.totalLength_cons, ← Nat.add_assoc]
        rfl
      rw [distance] at bodyNear looping
      have loops := whole.trans (.of_appends looping (bodyProgress.ready bodyReady))
      refine success looped (some incrementCode) bodyCode
        ⟨?_, ⟨startNear, bodyNear⟩, ?_, ?_, ?_⟩ (looping.upcoming.trans unread)
      · simpa [roundsCode] using loops
      · rw [looping.writes.scope, finishedScope]
      · intro book within
        rw [looping.resources] at within
        exact incrementCoded book (bodyProgress.within.trans within)
      · rw [looping.resources]
        exact bodyCoded

/-! ## Ends -/

theorem looped_of_unconditional
    {looped : Compilation}
    {increment : Option Imperative.Expr}
    {body : Stmt}
    {incrementCode : Option (List Instruction)}
    {bodyCode : List Instruction}
    (head : Progress ready headed [])
    (rounded : Rounded ready headed looped none increment body incrementCode bodyCode) :
    Looped ready looped none increment body where
  scope := rounded.scope
  coded :=
    ⟨none, incrementCode, bodyCode, head.trans rounded.progress, rounded.near, fun book within =>
      ⟨.absent, rounded.incrementCoded book within, rounded.bodyCoded book within⟩⟩

/-- The jump out of the loop leads behind the rounds. -/
theorem guarantees_loopEnd
    {looped : Compilation}
    {condition : Imperative.Expr}
    {leave : PendingJump}
    {conditionCode : List Instruction}
    {increment : Option Imperative.Expr}
    {body : Stmt}
    {incrementCode : Option (List Instruction)}
    {bodyCode : List Instruction}
    {next : Compiler α}
    {onSuccess : α → Compilation → Prop}
    (isReady : ready.Ready)
    (head : Headed ready headed (some condition) (some leave) (some conditionCode))
    (rounded :
      Rounded ready headed looped (some conditionCode) increment body incrementCode bodyCode)
    (success :
      ∀ after,
        Looped ready after (some condition) increment body →
        after.upcoming = looped.upcoming →
          Guarantees next after onSuccess (fun _ => True)) :
    Guarantees
      (do
        patchJump leave
        emit .pop
        next)
      looped onSuccess (fun _ => True) := by
  have headCoded :
      ∀ book,
        headed.resources.Within book →
          ConditionCoded book ready.draft.scope (some condition) (some conditionCode) :=
    fun _ => head.coded
  cases head with
  | conditional tests coded opened =>
      have whole := (tests.trans opened).trans rounded.progress
      refine .bind (guarantees_closeProgress .ifFalse conditionCode
        (.pop :: roundsCode (headLength (some conditionCode)) incrementCode bodyCode)
        (by simpa [openExit] using whole) rfl ?_)
      intro closed near closing closedResources closedUpcoming closedScope
      refine .bind (guarantees_append fun after popping => ?_)
      have popped := Progress.of_appends popping (closing.ready isReady)
      have skipped :
          Instruction.totalLength
              (.pop :: roundsCode (headLength (some conditionCode)) incrementCode bodyCode) =
            Instruction.totalLength
                (roundsCode (headLength (some conditionCode)) incrementCode bodyCode) + 1 := by
        rw [Instruction.totalLength_cons]
        exact Nat.add_comm _ _
      rw [skipped] at near closing
      have afterResources : after.resources = looped.resources := by
        rw [popping.resources, closedResources]
      refine success after ⟨?_, some conditionCode, incrementCode, bodyCode, ?_,
        ⟨rounded.near, near⟩, ?_⟩ (popping.upcoming.trans closedUpcoming)
      · rw [popping.writes.scope, closedScope, rounded.scope]
      · have all := closing.trans popped
        simpa [loopCode, headLength, ForwardJump.past] using all
      · intro book within
        rw [afterResources] at within
        exact ⟨headCoded book (rounded.progress.within.trans within),
          rounded.incrementCoded book within, rounded.bodyCoded book within⟩

/-! ## Statements -/

theorem whileStatement_translates
    {between : List TokenKind}
    {condition : Imperative.Expr}
    {body : Stmt}
    (spelled : condition.Spelled tokens)
    (translates : Translates (codeWithin levels .statement) .statement between body rest) :
    Translates (innerOf levels).whileStatement .statement
      (.punctuation .leftParen :: (tokens ++ .punctuation .rightParen :: between))
      (.loop condition body) rest := by
  intro state ready settled upcoming
  refine .bind (guarantees_look ?_)
  refine guarantees_parenthesized ready spelled upcoming ?_
  intro tested code tests coded testedUpcoming testedScope
  refine guarantees_head ready tests coded testedScope ?_
  intro headed leave head headedScope headedUpcoming
  rcases head.progress with ⟨instructions, progress, length⟩
  refine guarantees_plainRounds translates ready settled progress length headedScope
    (headedUpcoming.trans testedUpcoming) ?_
  intro looped bodyCode rounded unread
  have finish :
      ∀ after,
        Looped state after (some condition) none body →
        after.upcoming = looped.upcoming →
          Guarantees (pure ()) after
            (fun _ final => Done .statement (.loop condition body) rest state final)
            (fun _ => True) := by
    rintro after ⟨scope, conditionCode, incrementCode, loopBody, whole, near, parts⟩ same
    refine .pure ⟨same.trans unread, scope, _, whole, fun book within => ?_⟩
    rcases parts book within with ⟨conditionCoded, incrementCoded, bodyCoded⟩
    rw [scope]
    cases conditionCoded with
    | present conditionCoded =>
        cases incrementCoded with
        | absent => exact .loop conditionCoded bodyCoded near
  exact guarantees_loopEnd ready head rounded finish

theorem forStatement_translates
    {first second third : List TokenKind}
    {initializer body : Stmt}
    {condition increment : Option Imperative.Expr}
    (initializerTranslates :
      Translates (innerOf levels).forInitializer .initializer tokens initializer first)
    (conditionClause : Clause .semicolon first condition second)
    (incrementClause : Clause .rightParen second increment third)
    (bodyTranslates : Translates (codeWithin levels .statement) .statement third body rest) :
    Translates (innerOf levels).forStatement .statement
      (.punctuation .leftParen :: tokens)
      (.counted initializer condition increment body) rest := by
  intro state ready settled upcoming
  have entered := Progress.withScope ready state.draft.scope.enter
  have enteredReady := entered.ready ready
  refine .bind (guarantees_enterBlock (.bind ?_))
  refine guarantees_consumeMark upcoming fun tail => ?_
  have opened := Progress.advance enteredReady
  refine .bind ((initializerTranslates _ (opened.ready enteredReady)
    (by rw [scope_advance]; exact settled.enter) tail).mono ?_ fun _ => id)
  rintro - initial ⟨initialUpcoming, declares, initialCode, initialized, initialCoded⟩
  change Scope.Declares _ initial.draft.scope at declares
  rw [scope_advance] at declares initialCoded
  have start := (entered.trans opened).trans initialized
  have initialReady := start.ready ready
  have initialSettled := declares.settled settled.enter
  refine .bind (guarantees_look ?_)
  refine .bind ((forCondition_headed conditionClause initialReady initialUpcoming).mono ?_
    fun _ => id)
  rintro leave headed ⟨conditionCode, head, headedScope, headedUpcoming⟩
  rcases head.progress with ⟨instructions, progress, length⟩
  refine guarantees_countedRounds incrementClause bodyTranslates initialReady initialSettled
    progress length headedScope headedUpcoming ?_
  intro looped incrementCode bodyCode rounded unread
  -- The variables of the first clause end with the loop.
  have finish :
      ∀ ended,
        Looped initial ended condition increment body →
        ended.upcoming = rest →
          Guarantees leaveBlock ended
            (fun _ after =>
              Done .statement (.counted initializer condition increment body) rest state after)
            (fun _ => True) := by
    rintro ended ⟨scope, _, _, _, whole, near, parts⟩ endedUpcoming
    refine guarantees_leaveBlock (whole.ready initialReady) settled (by rwa [scope]) ?_
    intro after count leaves popped afterResources afterUpcoming afterScope
    refine ⟨afterUpcoming.trans endedUpcoming, afterScope, _,
      start.trans (whole.trans popped), fun book within => ?_⟩
    rw [afterResources] at within
    rw [scope] at leaves
    rw [afterScope]
    rcases parts book within with ⟨conditionCoded, incrementCoded, bodyCoded⟩
    exact .counted (initialCoded book (whole.within.trans within)) conditionCoded incrementCoded
      bodyCoded near leaves
  cases leave with
  | none =>
      cases head with
      | unconditional head => exact finish looped (looped_of_unconditional head rounded) unread
  | some leave =>
      cases head with
      | conditional tests coded exits =>
          refine guarantees_loopEnd initialReady (.conditional tests coded exits) rounded ?_
          intro ended isLooped endedUpcoming
          exact finish ended isLooped (endedUpcoming.trans unread)

end Loops

end ScriptEngine.Compiler
