import ScriptEngine.Proofs.Compiler.Depth
import ScriptEngine.Proofs.Compiler.Observed

/-!
# What is observed follows the compiler

A routine that is observed ends with the outcome and the state of the routine of the compiler
(`Follows`).  Loops end because every round but the last reads a token, and the recursion
ends because it is refused as soon as the counter has reached its limit.

Along the way the sessions are related by anything that single steps, blocks, functions and
nested routines pass on (`Session.Passage`).
-/

set_option synthInstance.maxSize 100000

namespace ScriptEngine

open Compiler

/-! ## Steps that do not concern names -/

/-- The place in the text has not moved back and not behind the end of the input. -/
structure Compilation.Onward (before after : Compilation) : Prop where
  tokens : after.tokens = before.tokens
  forward : before.position ≤ after.position
  inside :
    ∀ place,
      (before.tokens.getD place default).kind.isEnd →
        before.position ≤ place → after.position ≤ place

namespace Compilation.Onward

variable {before between after : Compilation}

theorem refl (state : Compilation) : Onward state state :=
  ⟨rfl, Nat.le_refl _, fun _ _ => id⟩

theorem trans (first : Onward before between) (second : Onward between after) :
    Onward before after where
  tokens := second.tokens.trans first.tokens
  forward := Nat.le_trans first.forward second.forward
  inside place isEnd isIn := by
    refine second.inside place ?_ (first.inside place isEnd isIn)
    rwa [first.tokens]

theorem of_paces
    {levels slack : Nat}
    {problem : Option CompileProblem}
    (paces : Paces levels slack before problem after) :
    Onward before after :=
  ⟨paces.tokens, paces.forward, paces.inside⟩

theorem remaining_le (onward : Onward before after) : after.remaining ≤ before.remaining := by
  unfold remaining
  rw [onward.tokens]
  exact Nat.sub_le_sub_left onward.forward _

end Compilation.Onward

/-- Only the place in the text and the code of the present function have changed. -/
structure Compilation.Remains (before after : Compilation) : Prop extends Onward before after where
  table : after.table = before.table
  scope : after.draft.scope = before.draft.scope
  role : after.draft.role = before.draft.role
  enclosing : after.enclosing = before.enclosing

namespace Compilation.Remains

variable {before between after : Compilation}

theorem of_draft
    (draft : Draft)
    (scope : draft.scope = before.draft.scope)
    (role : draft.role = before.draft.role) :
    Remains before { before with draft } where
  toOnward := ⟨rfl, Nat.le_refl _, fun _ _ => id⟩
  table := rfl
  scope := scope
  role := role
  enclosing := rfl

theorem refl (state : Compilation) : Remains state state :=
  of_draft state.draft rfl rfl

theorem trans (first : Remains before between) (second : Remains between after) :
    Remains before after where
  toOnward := first.toOnward.trans second.toOnward
  table := second.table.trans first.table
  scope := second.scope.trans first.scope
  role := second.role.trans first.role
  enclosing := second.enclosing.trans first.enclosing

theorem advance (state : Compilation) : Remains state state.advance := by
  have onward : Onward state state.advance :=
    .of_paces (Paces.advance state : Paces 0 0 state none state.advance)
  have kept : state.advance = { state with position := state.advance.position } := by
    unfold Compilation.advance
    split <;> rfl
  refine ⟨onward, ?_, ?_, ?_, ?_⟩ <;> rw [kept]

end Compilation.Remains

namespace Compiler

/-- The effect of steps that do not concern names. -/
def Stays : Effect :=
  fun before _ after => before.Remains after

instance stays_composable : Stays.Composable where
  nothing := .refl
  andThen := .trans

namespace Has

instance staysFail (problem : CompileProblem) : Has Stays (Compiler.fail problem : Compiler α) :=
  ⟨.refl⟩

instance staysFailAtCurrent (problem : CompileProblem) :
    Has Stays (Compiler.failAtCurrent problem : Compiler α) :=
  ⟨.refl⟩

instance staysAdvance : Has Stays Compiler.advance :=
  ⟨.advance⟩

instance staysEmitOn (line : Nat) (instruction : Instruction) :
    Has Stays (Compiler.emitOn line instruction) :=
  ⟨fun _ => .of_draft _ rfl rfl⟩

instance staysEmit (instruction : Instruction) : Has Stays (Compiler.emit instruction) := by
  unfold Compiler.emit
  infer_instance

instance staysEmitAll (instructions : List Instruction) :
    Has Stays (Compiler.emitAll instructions) := by
  induction instructions with
  | nil => exact pure ()
  | cons instruction rest induction =>
      show Has Stays (Compiler.emit instruction >>= fun _ => Compiler.emitAll rest)
      infer_instance

instance staysLimitedChunk (step : Chunk → Except ChunkLimit α × Chunk) :
    Has Stays (Compiler.limitedChunk step) := by
  unfold Compiler.limitedChunk
  refine @bind _ _ _ _ _ _ ⟨fun _ => .of_draft _ rfl rfl⟩ fun result => ?_
  split <;> infer_instance

instance staysEmitJump (operation : Opcode) : Has Stays (Compiler.emitJump operation) := by
  unfold Compiler.emitJump
  exact @bind _ _ _ _ _ _ _ fun _ => ⟨fun _ => .of_draft _ rfl rfl⟩

instance staysPatchJump (pending : PendingJump) : Has Stays (Compiler.patchJump pending) :=
  staysLimitedChunk _

instance staysEmitLoop (start : Nat) : Has Stays (Compiler.emitLoop start) := by
  unfold Compiler.emitLoop
  infer_instance

instance staysConstantIndex (value : Value) : Has Stays (Compiler.constantIndex value) :=
  staysLimitedChunk _

instance staysNameIndex (name : String) : Has Stays (Compiler.nameIndex name) := by
  unfold Compiler.nameIndex
  infer_instance

instance staysEmitConstant (value : Value) : Has Stays (Compiler.emitConstant value) := by
  unfold Compiler.emitConstant
  infer_instance

instance staysEmitReturn : Has Stays Compiler.emitReturn := by
  unfold Compiler.emitReturn
  infer_instance

instance staysCodeSize : Has Stays Compiler.codeSize :=
  look _

instance staysAtMark (mark : Punctuation) : Has Stays (Compiler.atMark mark) :=
  look _

instance staysAtEnd : Has Stays Compiler.atEnd :=
  look _

instance staysAtModuleLevel : Has Stays Compiler.atModuleLevel :=
  look _

instance staysAtExpressionStatement : Has Stays Compiler.atExpressionStatement :=
  look _

instance staysNextTrailing (least : Precedence) : Has Stays (Compiler.nextTrailing? least) :=
  look _

instance staysCheckWritable (slot : Nat) : Has Stays (Compiler.checkWritable slot) := by
  unfold Compiler.checkWritable
  infer_instance

instance staysReferenceCheckWritable (reference : Reference) :
    Has Stays reference.checkWritable := by
  cases reference with
  | moduleSlot slot => exact staysCheckWritable slot
  | localSlot slot => exact pure ()

instance staysReceiver : Has Stays Compiler.receiver := by
  unfold Compiler.receiver
  infer_instance

end Has

end Compiler

/-! ## Relations between sessions -/

namespace Session

/-- Declares a local variable, and notes whether that was refused. -/
def declaringLocal (session : Session) (name : String) : Session :=
  session.note (.localDeclaration name (problem? (declareLocal name session.state).1))
    (declareLocal name session.state).2

/-- Notes that the initialiser of the latest variable is complete. -/
def completing (session : Session) (name : String) : Session :=
  session.note (.initialization name) (changeScope Scope.markInitialized session.state).2

/-- Declares a name at the level of the module. -/
def declaringInModule (session : Session) (name : String) : Session :=
  session.note (.moduleDeclaration name) (moduleSlot name session.state).2

/-- Uses a name. -/
def meeting (session : Session) (name : String) : Session :=
  session.note (.use name ((resolve name session.state).1.mapError (·.problem)))
    (resolve name session.state).2

/-- Enters a block. -/
def entering (session : Session) : Session :=
  session.note .blockBegins (enterBlock session.state).2

/-- Leaves a block. -/
def leaving (session : Session) : Session :=
  session.note .blockEnds (leaveBlock session.state).2

/-- Begins a function and its block. -/
def beginning (session : Session) (name : String) (role : Role) : Session :=
  session.note (.functionBegins role)
    ((do
      beginFunction name role
      enterBlock : Compiler Unit) session.state).2

/-- Finishes a function. -/
def finishing (session : Session) : Session :=
  session.note .functionEnds (finishFunction session.state).2

/-- Finishes the function of a text. -/
def ending (session : Session) : Session :=
  session.reach (finishFunction session.state).2

/-- What holds of the sessions before and after a routine, and of the problem it stops with. -/
abbrev Relation := Session → Option CompileProblem → Session → Prop

/-- A relation that the steps of expressions have and that sequences and nested routines pass on. -/
class Steps (relation : Relation) : Prop where
  nothing : ∀ session, relation session none session
  andThen :
    ∀ {before between after : Session} {problem : Option CompileProblem},
      relation before none between → relation between problem after →
        relation before problem after
  observe :
    ∀ session state problem,
      session.state.Remains state → relation session problem (session.reach state)
  nested :
    ∀ {session after : Session} {problem : Option CompileProblem},
      session.depth < maxNesting → after.depth = session.depth + 1 →
        relation session.deeper problem after →
          relation session problem (after.shallower session.depth)
  resolve :
    ∀ (session : Session) name,
      relation session (problem? (resolve name session.state).1) (session.meeting name)

/--
A relation that routines have which declare nothing in the present block, and one that all
routines have.
-/
structure Relations where
  steady : Relation
  passes : Relation

/-- What routines pass on; blocks and functions declare nothing around them. -/
class Passage (relations : Relations) : Prop where
  steadySteps : Steps relations.steady
  passesSteps : Steps relations.passes
  weaken :
    ∀ {session after : Session} {problem : Option CompileProblem},
      relations.steady session problem after → relations.passes session problem after
  declareInModule :
    ∀ (session : Session) name,
      (atModuleLevel session.state).1 = .ok true →
        relations.passes session (problem? (moduleSlot name session.state).1)
          (session.declaringInModule name)
  /-- A declaration is refused. -/
  refuse :
    ∀ (session : Session) name error,
      (declareLocal name session.state).1 = .error error →
        relations.passes session (some error.problem) (session.declaringLocal name)
  /-- A local variable is declared, and its initialiser declares nothing. -/
  declare :
    ∀ {session after : Session} {problem : Option CompileProblem} name,
      (declareLocal name session.state).1 = .ok () →
        relations.steady (session.declaringLocal name) problem after →
          relations.passes session problem (if problem.isSome then after else after.completing name)
  block :
    ∀ {session after : Session} {problem : Option CompileProblem},
      relations.passes session.entering problem after →
        relations.steady session problem (if problem.isSome then after else after.leaving)
  function :
    ∀ {session after : Session} {problem : Option CompileProblem} name role,
      relations.passes (session.beginning name role) problem after →
        relations.steady session problem (if problem.isSome then after else after.finishing)

section

variable {relations : Relations} [passage : Passage relations]

instance steps_steady : Steps relations.steady :=
  passage.steadySteps

instance steps_passes : Steps relations.passes :=
  passage.passesSteps

end

end Session

/-! ## Tokens that are left -/

namespace Compiler

theorem bind_of_error
    {first : Compiler α}
    {next : α → Compiler β}
    {state between : Compilation}
    {error : CompileError}
    (fails : first state = (.error error, between)) :
    (first >>= next) state = (.error error, between) := by
  show StateT.bind first (ExceptT.bindCont next) state = _
  unfold StateT.bind
  rw [fails]
  rfl

theorem remaining_le_of_paces
    {levels slack : Nat}
    {before after : Compilation}
    {problem : Option CompileProblem}
    (paces : Paces levels slack before problem after) :
    after.remaining ≤ before.remaining :=
  (Compilation.Onward.of_paces paces).remaining_le

/-- A token that is not the end of the input is read. -/
theorem remaining_advance
    {state : Compilation}
    (unfinished : ¬ state.current.kind.isEnd) :
    state.advance.remaining < state.remaining := by
  have inside : state.position < state.tokens.size := by
    apply Nat.lt_of_not_le
    intro outside
    apply unfinished
    rw [Compilation.current, Array.getD_eq_getD_getElem?, Array.getElem?_eq_none outside]
    rfl
  rw [Compilation.advance, if_neg unfinished]
  unfold Compilation.remaining
  show state.tokens.size - (state.position + 1) < _
  omega

end Compiler

namespace Observed

/--
From a session on, a routine that is observed ends with the outcome of a routine of the
compiler, if a loop may have more rounds than there are tokens to read.
-/
def FollowsFrom
    (relation : Session.Relation)
    (session : Session)
    (observed : Observed α)
    (plain : Compiler α) :
    Prop :=
  ∀ rounds,
    session.state.remaining < rounds →
      ∃ after,
        observed rounds session = some ((plain session.state).1, after) ∧
          after.state = (plain session.state).2 ∧
          after.depth = session.depth ∧
          after.state.remaining ≤ session.state.remaining ∧
          relation session (problem? (plain session.state).1) after

/-- At a depth of nesting, a routine that is observed follows a routine of the compiler. -/
class Follows
    (relation : Session.Relation)
    (depth : Nat)
    (observed : Observed α)
    (plain : Compiler α) :
    Prop where
  follows : ∀ session, session.depth = depth → FollowsFrom relation session observed plain

variable
  {relation : Session.Relation}
  [steps : Session.Steps relation]
  {depth : Nat}

theorem FollowsFrom.bind
    {first : Observed α}
    {plain : Compiler α}
    {next : α → Observed β}
    {plainNext : α → Compiler β}
    {session : Session}
    (start : FollowsFrom relation session first plain)
    (rest :
      ∀ between value,
        plain session.state = (.ok value, between.state) → between.depth = session.depth →
          FollowsFrom relation between (next value) (plainNext value)) :
    FollowsFrom relation session (first >>= next) (plain >>= plainNext) := by
  intro rounds enough
  rcases start rounds enough with ⟨between, runs, state, depth, fewer, passed⟩
  rcases outcome : plain session.state with ⟨error | value, reached⟩
  · rw [outcome] at runs state passed
    rw [Compiler.bind_of_error outcome]
    exact ⟨between, bind_of_error runs, state, depth, fewer, passed⟩
  · rw [outcome] at runs state passed
    change between.state = reached at state
    subst state
    rw [Compiler.bind_of_ok outcome]
    rcases rest between value outcome depth rounds (Nat.lt_of_le_of_lt fewer enough) with
      ⟨after, runsOn, stateAfter, depthAfter, fewerAfter, passedOn⟩
    refine ⟨after, ?_, stateAfter, depthAfter.trans depth, Nat.le_trans fewerAfter fewer,
      steps.andThen passed passedOn⟩
    rw [bind_of_ok runs, runsOn]

namespace Follows

instance bind
    {first : Observed α}
    {plain : Compiler α}
    {next : α → Observed β}
    {plainNext : α → Compiler β}
    [start : Follows relation depth first plain]
    [rest : ∀ value, Follows relation depth (next value) (plainNext value)] :
    Follows relation depth (first >>= next) (plain >>= plainNext) :=
  ⟨fun session atDepth =>
    (start.follows session atDepth).bind fun between value _ same =>
      (rest value).follows between (same.trans atDepth)⟩

instance pure (value : α) : Follows relation depth (pure value) (pure value) :=
  ⟨fun session _ _ _ => ⟨session, rfl, rfl, rfl, Nat.le_refl _, steps.nothing session⟩⟩

instance choice
    {condition : Prop}
    [Decidable condition]
    {first second : Observed α}
    {plainFirst plainSecond : Compiler α}
    [Follows relation depth first plainFirst]
    [Follows relation depth second plainSecond] :
    Follows relation depth (if condition then first else second)
      (if condition then plainFirst else plainSecond) := by
  split <;> infer_instance

/-! ## Steps -/

instance observe (step : Compiler α) [stays : Has Stays step] :
    Follows relation depth (observe step) step := by
  constructor
  intro session _ _ _
  have remains := stays.has session.state
  exact ⟨_, rfl, rfl, rfl, remains.remaining_le, steps.observe session _ _ remains⟩

omit steps in
/-- A step that concerns names. -/
theorem of_record
    {session : Session}
    {step : Compiler α}
    [paces : Has (Paces 0 0) step]
    {event : Except CompileError α → NameEvent}
    (passed :
      relation session (problem? (step session.state).1)
        (session.note (event (step session.state).1) (step session.state).2)) :
    FollowsFrom relation session (record event step) step :=
  fun _ _ => ⟨_, rfl, rfl, rfl, remaining_le_of_paces (paces.has session.state), passed⟩

instance resolve (name : String) :
    Follows relation depth (Observed.resolve name) (Compiler.resolve name) :=
  ⟨fun session _ => of_record (steps.resolve session name)⟩

/-- A routine between a step that opens something and a step that closes it. -/
theorem between
    {inner outer : Session.Relation}
    {opening : Compiler α}
    {routine : Observed Unit}
    {plain : Compiler Unit}
    {closing : Compiler β}
    {opens : Except CompileError α → NameEvent}
    {closes : NameEvent}
    [openingPaces : Has (Paces 0 0) opening]
    [closingPaces : Has (Paces 0 0) closing]
    {session : Session}
    {value : α}
    (opened : (opening session.state).1 = .ok value)
    (closed : ∀ state, ∃ result, (closing state).1 = .ok result)
    (inside : Follows inner session.depth routine plain)
    (whole :
      ∀ problem after,
        inner (session.note (opens (.ok value)) (opening session.state).2) problem after →
          outer session problem
            (if problem.isSome then after else after.note closes (closing after.state).2)) :
    FollowsFrom outer session
      (do
        let _ ← record opens opening
        routine
        record (fun _ => closes) closing)
      (do
        let _ ← opening
        plain
        closing) := by
  intro rounds enough
  have opensPlain : opening session.state = (.ok value, (opening session.state).2) :=
    Prod.ext opened rfl
  have opensObserved :
      record opens opening rounds session =
        some (.ok value, session.note (opens (.ok value)) (opening session.state).2) := by
    unfold record
    rw [opened]
  have stillEnough := remaining_le_of_paces (openingPaces.has session.state)
  rcases inside.follows (session.note (opens (.ok value)) (opening session.state).2) rfl rounds
      (Nat.lt_of_le_of_lt stillEnough enough) with
    ⟨after, runs, state, sameDepth, fewer, passed⟩
  have left :
      outer session (problem? (plain (opening session.state).2).1)
        (if (problem? (plain (opening session.state).2).1).isSome then after
          else after.note closes (closing after.state).2) :=
    whole _ _ passed
  rw [bind_of_ok opensObserved, Compiler.bind_of_ok opensPlain]
  change after.state = (plain (opening session.state).2).2 at state
  change after.state.remaining ≤ (opening session.state).2.remaining at fewer
  change routine rounds _ = some ((plain (opening session.state).2).1, after) at runs
  rcases outcome : plain (opening session.state).2 with ⟨error | result, reached⟩
  · rw [outcome] at runs state left
    rw [bind_of_error runs, Compiler.bind_of_error outcome]
    exact ⟨after, rfl, state, sameDepth, Nat.le_trans fewer stillEnough, left⟩
  · rw [outcome] at runs state left
    change after.state = reached at state
    subst state
    rw [bind_of_ok runs, Compiler.bind_of_ok outcome]
    refine ⟨after.note closes (closing after.state).2, rfl, rfl, sameDepth, ?_, ?_⟩
    · exact Nat.le_trans (remaining_le_of_paces (closingPaces.has after.state))
        (Nat.le_trans fewer stillEnough)
    · rcases closed after.state with ⟨last, closesOk⟩
      rw [closesOk]
      exact left

/-- A routine that runs one level deeper. -/
theorem nested
    {tooDeep : CompileProblem}
    {routine : Observed Unit}
    {plain : Compiler Unit}
    (room : depth < maxNesting)
    (inside : Follows relation (depth + 1) routine plain) :
    Follows relation depth (nested tooDeep routine) plain := by
  constructor
  rintro session rfl rounds enough
  rcases inside.follows session.deeper rfl rounds enough with
    ⟨after, runs, state, depth, fewer, passed⟩
  refine ⟨after.shallower session.depth, ?_, state, ?_, fewer, steps.nested room depth passed⟩
  · unfold Observed.nested
    rw [if_neg (Nat.not_le_of_lt room), runs]
    rfl
  · show after.depth - 1 = session.depth
    rw [depth]
    rfl

/-- A routine that would run too deep is refused. -/
theorem nested_refused
    {tooDeep : CompileProblem}
    {routine : Observed Unit}
    (full : maxNesting ≤ depth) :
    Follows relation depth (Observed.nested tooDeep routine) (failAtCurrent tooDeep) := by
  constructor
  rintro session rfl rounds enough
  have refused :
      Follows relation session.depth (Observed.observe (failAtCurrent tooDeep))
        (failAtCurrent tooDeep : Compiler Unit) :=
    inferInstance
  have outcome := refused.follows session rfl rounds enough
  unfold Observed.nested
  rwa [if_pos full]

/-! ## Loops -/

/-- A round that goes on reads a token. -/
class Reads (round : Compiler (Bool × α)) : Prop where
  reads :
    ∀ {state after : Compilation} {result : α},
      round state = (.ok (true, result), after) → after.remaining < state.remaining

instance loop
    {round : α → Observed (Bool × α)}
    {plain : α → Compiler (Bool × α)}
    [rounds : ∀ value, Follows relation depth (round value) (plain value)]
    [reads : ∀ value, Reads (plain value)]
    (start : α) :
    Follows relation depth (loop round start) (repeatWhile plain start) := by
  constructor
  intro session atDepth limit enough
  -- As long as there are more rounds than tokens to read, the bounds do not matter.
  suffices bounded :
      ∀ bound plainBound value (session : Session),
        session.depth = depth → session.state.remaining < limit →
          session.state.remaining < bound → session.state.remaining < plainBound →
            ∃ after,
              loopAtMost round bound value limit session =
                  some ((repeatAtMost plain plainBound value session.state).1, after) ∧
                after.state = (repeatAtMost plain plainBound value session.state).2 ∧
                after.depth = session.depth ∧
                after.state.remaining ≤ session.state.remaining ∧
                relation session
                  (problem? (repeatAtMost plain plainBound value session.state).1) after from
    bounded limit (session.state.remaining + 1) start session atDepth enough enough
      (Nat.lt_succ_self _)
  intro bound
  induction bound with
  | zero => exact fun _ _ _ _ _ impossible => absurd impossible (Nat.not_lt_zero _)
  | succ bound induction =>
      intro plainBound value session atDepth enough inBound inPlain
      cases plainBound with
      | zero => exact absurd inPlain (Nat.not_lt_zero _)
      | succ plainBound =>
          rcases (rounds value).follows session atDepth limit enough with
            ⟨between, runs, state, sameDepth, fewer, passed⟩
          unfold loopAtMost repeatAtMost
          rcases outcome : plain value session.state with ⟨error | ⟨goesOn, result⟩, reached⟩
          · rw [outcome] at runs state passed
            rw [bind_of_error runs, Compiler.bind_of_error outcome]
            exact ⟨between, rfl, state, sameDepth, fewer, passed⟩
          · rw [outcome] at runs state passed
            rw [bind_of_ok runs, Compiler.bind_of_ok outcome]
            change between.state = reached at state
            subst state
            cases goesOn with
            | false => exact ⟨between, rfl, rfl, sameDepth, fewer, passed⟩
            | true =>
                have less := (reads value).reads outcome
                rcases induction plainBound result between (sameDepth.trans atDepth) (by omega)
                    (by omega) (by omega) with
                  ⟨after, runsOn, stateAfter, depthAfter, fewerAfter, passedOn⟩
                exact ⟨after, runsOn, stateAfter, depthAfter.trans sameDepth,
                  Nat.le_trans fewerAfter fewer, steps.andThen passed passedOn⟩

end Follows

end Observed

end ScriptEngine
