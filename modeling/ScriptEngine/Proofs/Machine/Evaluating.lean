import ScriptEngine.Proofs.Machine.Parting

/-!
# Running and evaluating agree

A text that can be run can be evaluated, and whether it is run or evaluated makes a
difference to nothing but the result (`evaluation_agrees_with_running`): both calls return
or neither does, what is written, the heap and the modules are the same, and so is a fault.
Evaluation returns the value of an expression statement at the end of the text if control
gets there.
-/

namespace ScriptEngine

/-! ## Compiling in both modes -/

namespace State

variable {state started : State} {id body : Nat} {source : String}

/-- A text that is accepted in run mode is accepted in evaluation mode. -/
theorem addSource_evaluates
    (indexed : (state.registry.moduleAt id).Indexed)
    (accepted : state.addSource .run id source = (.ok body, started)) :
    ∃ run eval,
      started.heap.functions[body]? = some run ∧
        Bodies
          (EndsInExpression source (state.registry.moduleAt id) id state.heap.functions.size)
          run eval ∧
        state.addSource .eval id source =
          (.ok body,
            { started with
              heap :=
                { started.heap with
                  functions := started.heap.functions.setIfInBounds body eval } }) := by
  unfold addSource at accepted
  simp only at accepted
  split at accepted
  · cases accepted
  · rename_i functions success
    cases accepted
    rcases compile_evaluates indexed success with ⟨nested, run, eval, rfl, evaluates, bodies⟩
    have last :
        (state.heap.functions ++ nested.push run).size - 1 =
          state.heap.functions.size + nested.size := by
      simp only [Array.size_append, Array.size_push]
      omega
    refine ⟨run, eval, ?_, bodies, ?_⟩
    · simp only [last]
      rw [Array.getElem?_append_right (Nat.le_add_right _ _), Nat.add_sub_cancel_left]
      exact Array.getElem?_push_size
    · unfold addSource
      simp only [evaluates, last]
      have size :
          (state.heap.functions ++ nested.push eval).size - 1 =
            state.heap.functions.size + nested.size := by
        simp only [Array.size_append, Array.size_push]
        omega
      have placed :
          (state.heap.functions ++ nested.push run).setIfInBounds
              (state.heap.functions.size + nested.size) eval =
            state.heap.functions ++ nested.push eval := by
        apply Array.ext_getElem?
        intro place
        simp only [Array.getElem?_setIfInBounds, Array.getElem?_append, Array.getElem?_push,
          Array.size_append, Array.size_push]
        split <;> grind
      rw [size, placed]

/-- The body of a text in run mode takes no arguments and does not look at slot zero. -/
theorem run_of_addSource
    (indexed : (state.registry.moduleAt id).Indexed)
    (accepted : state.addSource .run id source = (.ok body, started))
    {run : Function}
    (found : started.heap.functions[body]? = some run) :
    run.arity = 0 ∧
      ∃ instructions,
        run.chunk.code.toList = Instruction.encode instructions ∧
          .getLocal 0 ∉ instructions := by
  have isBody := body_of_addSource indexed accepted
  have isRun : started.heap.function body = run := by
    unfold Heap.function
    rw [Array.getD_eq_getD_getElem?, found]
    rfl
  rw [isRun] at isBody
  refine ⟨isBody.2, ?_⟩
  unfold addSource at accepted
  simp only at accepted
  split at accepted
  · cases accepted
  · rename_i functions success
    cases accepted
    rcases sparesCallee_of_compile success with ⟨other, instructions, last, code, absent⟩
    simp only [← Array.back?_eq_getElem?, Array.back?_append, last] at found
    cases found
    exact ⟨instructions, code, absent⟩

/-- Nothing in a state refers to the body that has just been added. -/
theorem avoids_body
    (sound : state.Sound [])
    (noFrames : state.frames = #[])
    (inside : id < state.registry.modules.size)
    (accepted : state.addSource .run id source = (.ok body, started)) :
    started.Each (Value.Avoids body) := by
  have indexed := (sound.registry.moduleAt inside).indexed
  unfold addSource at accepted
  simp only at accepted
  split at accepted
  · cases accepted
  · rename_i functions success
    have nonempty := (compile_wellTyped indexed success).nonempty
    have earlier := earlier_of_compile indexed success
    cases accepted
    have bound :
        state.heap.functions.size ≤ (state.heap.functions ++ functions).size - 1 := by
      simp only [Array.size_append]
      omega
    have modules :
        ∀ table ∈ state.registry.modules,
          table.Each (Value.Avoids ((state.heap.functions ++ functions).size - 1)) :=
      fun table member value stored =>
        .inr (((sound.registry.modules table member).values value stored).avoids bound)
    have heap :=
      sound.heap.each.mono fun value (refers : value.Refers _) =>
        show value.Avoids ((state.heap.functions ++ functions).size - 1) from refers.avoids bound
    have table :=
      (holds_getD modules (fun value member =>
        absurd member (Array.not_mem_empty value)) id).of_grows
        (grows_compile .run source (state.registry.moduleAt id) id state.heap.functions.size)
    refine ⟨fun value member => (sound.stack value member).avoids bound, ?_, ?_,
      ⟨heap.classes, heap.objects⟩, forall_mem_setIfInBounds modules table id⟩
    · intro frame member
      rw [show state.frames = #[] from noFrames] at member
      exact absurd member (Array.not_mem_empty frame)
    · intro function member value stored
      rcases Array.mem_append.mp member with old | new
      · rcases Array.mem_iff_getElem?.mp stored with ⟨index, found⟩
        exact ((sound.functions function old).constant found).avoids bound
      · rcases earlier function new value stored with literal | ⟨other, rfl, before⟩
        · cases value with
          | function | boundMethod => cases literal
          | _ => trivial
        · show other ≠ _
          simp only [Array.size_append]
          omega

/-- The module of a text exists and counts as loaded. -/
def readied (state : State) (moduleName : String) : State :=
  { state with
    registry := (state.registry.ensure moduleName).2.modify (state.registry.ensure moduleName).1
      Module.markLoaded }

/-- The last statement of a text of a module is an expression statement. -/
def EndsInExpression (state : State) (moduleName source : String) : Prop :=
  let home := (state.registry.ensure moduleName).1
  ScriptEngine.EndsInExpression source ((state.readied moduleName).registry.moduleAt home) home
    state.heap.functions.size

end State

/-! ## Calls that return -/

namespace OuterCall

variable
  {environment : Environment}
  {state : State}
  {callee : Value}
  {arguments : List Value}
  {outcome other : Except RuntimeError Value}
  {final last : State}

/-- A call returns after a number of steps and lasts before. -/
theorem Returns.machineAt
    {call : OuterCall}
    (returns : call.Returns environment outcome final) :
    ∃ count,
      call.returned outcome final = call.machineAt environment count ∧
        ∀ earlier < count, call.Lasts (call.machineAt environment earlier) :=
  reaches_iff_machineAt.mp returns

/-- A call of the embedding program returns once. -/
theorem Returns.unique
    (returns : (outermost state callee arguments).Returns environment outcome final)
    (again : (outermost state callee arguments).Returns environment other last) :
    other = outcome ∧ last = final := by
  rcases returns.machineAt with ⟨count, isReturned, lasted⟩
  rcases again.machineAt with ⟨moment, alsoReturned, alsoLasted⟩
  have ended : ∀ {outcome final},
      ¬ (outermost state callee arguments).Lasts
        ((outermost state callee arguments).returned outcome final) :=
    fun isLasting => absurd isLasting (Nat.lt_irrefl _)
  have same : count = moment := by
    rcases Nat.lt_trichotomy count moment with before | rfl | after
    · exact absurd (isReturned ▸ alsoLasted count before) ended
    · rfl
    · exact absurd (alsoReturned ▸ lasted moment after) ended
  subst same
  have machines := alsoReturned.trans isReturned.symm
  unfold returned deliver outermost at machines
  cases machines
  exact ⟨rfl, rfl⟩

end OuterCall

namespace Engine

/-- What the embedding program is told of the outcome of a call. -/
def told (outcome : Except RuntimeError Value) : Except EngineError Value :=
  (outcome.mapError EngineError.runtime).map Value.undefinedToNull

/-- A call that is not given up returns, and the embedding program gets to know the outcome. -/
theorem returns_of_callMachine
    {engine : Engine}
    (sound : engine.Sound)
    {callee : Value}
    {arguments : List Value}
    (calleeRefers : callee.Refers engine.state.known)
    (argumentsRefer : ∀ argument ∈ arguments, argument.Refers engine.state.known)
    (finished : (engine.callMachine callee arguments).1 ≠ .error .unfinished) :
    ∃ outcome,
      (OuterCall.outermost engine.state callee arguments).Returns engine.environment outcome
          (engine.callMachine callee arguments).2.state ∧
        (withoutUndefined (engine.callMachine callee arguments)).1 = told outcome := by
  have called := sound.state.call sound.behaves calleeRefers argumentsRefer
  rcases engine with ⟨environment, state, reports⟩
  unfold callMachine at finished ⊢
  simp only at finished ⊢
  split at finished <;> rename_i outcome
  · exact ⟨.ok _, OuterCall.returns_of_call outcome, rfl⟩
  · exact ⟨.error _, OuterCall.returns_of_call outcome, rfl⟩
  · simp only [outcome] at called
    exact absurd rfl (called nofun).2.1
  · exact absurd rfl finished

end Engine

namespace Stage

variable {stage : Stage}

/-- What both calls return. -/
theorem ModesAgree.returns
    (agrees : stage.ModesAgree)
    {environment : Environment}
    (same : stage.environment = environment)
    {outcome result : Except RuntimeError Value}
    {final last : State}
    (returns : stage.runs.Returns environment outcome final)
    (alsoReturns : stage.evals.Returns environment result last) :
    stage.Agree outcome result ∧ final.SameBut stage.body stage.eval last := by
  subst same
  rcases agrees with ⟨_, _, _, _, runsReturns, evalsReturns, agree, differ⟩ | forever
  · rcases OuterCall.Returns.unique returns runsReturns with ⟨rfl, rfl⟩
    rcases OuterCall.Returns.unique alsoReturns evalsReturns with ⟨rfl, rfl⟩
    exact ⟨agree, differ⟩
  · rcases returns.machineAt with ⟨count, isReturned, -⟩
    have lasts := (forever count).1
    rw [← isReturned] at lasts
    exact absurd lasts (Nat.lt_irrefl _)

end Stage

/-! ## Engines -/

namespace Engine

variable {engine : Engine} {moduleName source : String} {body : Nat} {started : State}

theorem state_reportFailure (moduleName : String) (result : Except EngineError α × Engine) :
    (reportFailure moduleName result).2.state = result.2.state := by
  rcases result with ⟨error | value, engine⟩ <;> rfl

/-- A text that has been accepted is called. -/
theorem interpret_of_accepted
    {mode : CompileMode}
    (accepted : engine.state.addNamedSource mode moduleName source = (.ok body, started)) :
    engine.interpret mode moduleName source =
      { engine with state := started }.callMachine (.function body) [] := by
  rcases engine with ⟨environment, state, reports⟩
  unfold interpret compileIn
  simp only at accepted ⊢
  rw [accepted]

/-- An engine after a text has been accepted. -/
theorem Reached.accepted
    {given : Environment}
    {mode : CompileMode}
    (reached : engine.Reached given)
    (accepted : engine.state.addNamedSource mode moduleName source = (.ok body, started)) :
    Reached given { engine with state := started } := by
  have compiled := reached.compile mode moduleName source
  rcases engine with ⟨environment, state, reports⟩
  unfold compileIn at compiled
  simp only at accepted compiled
  rwa [accepted] at compiled

end Engine

section Agreement

variable
  {given : Environment}
  {engine : Engine}
  (behaves : given.host.Behaves)
  (reached : engine.Reached given)
  {moduleName source : String}
  {body : Nat}
  {started : State}
  (accepted : engine.state.addNamedSource .run moduleName source = (.ok body, started))

include behaves reached accepted

/-- A text that an engine accepts in run mode, it accepts in evaluation mode. -/
theorem exists_stage :
    ∃ stage : Stage,
      stage.environment = engine.environment ∧
        stage.started = started ∧
        stage.body = body ∧
        stage.endsInExpression = engine.state.EndsInExpression moduleName source ∧
        engine.state.addNamedSource .eval moduleName source = (.ok body, stage.evaluated) := by
  have sound := reached.sound behaves
  rcases sound.state.prepared moduleName with ⟨ready, inside⟩
  have indexed := (ready.registry.moduleAt inside).indexed
  rcases State.addSource_evaluates indexed accepted with ⟨run, eval, found, bodies, evaluates⟩
  exact ⟨⟨engine.environment, started, body, run, eval, _, bodies, found⟩, rfl, rfl, rfl, rfl,
    evaluates⟩

/-- The calls of the two bodies can be compared. -/
theorem prepared_of_reached
    {stage : Stage}
    (environment : stage.environment = engine.environment)
    (isStarted : stage.started = started)
    (isBody : stage.body = body)
    (evaluates :
      engine.state.addNamedSource .eval moduleName source = (.ok body, stage.evaluated))
    (discreet : stage.runs.Discreet stage.environment stage.body) :
    stage.Prepared := by
  subst isStarted isBody
  have started := reached.accepted accepted
  have evaluated := reached.accepted evaluates
  have sound := started.sound behaves
  have rest := started.atRest behaves
  rcases (reached.sound behaves).state.prepared moduleName with ⟨ready, inside⟩
  have indexed := (ready.registry.moduleAt inside).indexed
  rcases State.run_of_addSource indexed accepted stage.found with ⟨arity, spares⟩
  have avoids := State.avoids_body ready (reached.atRest behaves).noFrames inside accepted
  have within :=
    (started.keeps (State.withinLimits_invariant _)
      (Machine.Fresh.equipped.withinLimits _).state).state
  exact {
    behaves := environment ▸ sound.behaves
    sound := sound.state
    evaluatedSound := (evaluated.sound behaves).state
    avoids := ⟨avoids, started.consistent, stage.lt_size⟩
    within := by
      rw [environment, reached.environment_eq]
      exact within
    noFrames := rest.noFrames
    frameAllowed := environment ▸ rest.frameAllowed
    callAllowed := environment ▸ rest.callAllowed
    arity := arity
    spares := spares
    discreet := discreet }

end Agreement

/--
A text that is accepted in run mode is accepted in evaluation mode, with the same table of the
module and the same functions but for the code of the body; the one drops the value of an
expression statement at the end and returns null where the other returns the value.  If host
routines are discreet, running and evaluating the text have the same effects, and a fault is
the same; evaluation returns the value of the last expression if control gets to its end.
-/
theorem evaluation_agrees_with_running :
    (∀ {source : String} {table : Module} {home firstFunction : Nat} {functions : Array Function},
      table.Indexed →
      (compile .run source table home firstFunction).functions = .ok functions →
        ∃ (nested : Array Function) (run eval : Function),
          functions = nested.push run ∧
            compile .eval source table home firstFunction =
              { functions := .ok (nested.push eval)
                table := (compile .run source table home firstFunction).table } ∧
            Bodies (EndsInExpression source table home firstFunction) run eval) ∧
      ∀ {given : Environment} {engine : Engine} {moduleName source : String} {body : Nat}
        {started : State},
        given.host.Behaves →
        engine.Reached given →
        engine.state.addNamedSource .run moduleName source = (.ok body, started) →
        (OuterCall.outermost started (.function body) []).Discreet engine.environment body →
          ∃ stage : Stage,
            stage.environment = engine.environment ∧
              stage.started = started ∧
              stage.body = body ∧
              stage.endsInExpression = engine.state.EndsInExpression moduleName source ∧
              engine.state.addNamedSource .eval moduleName source = (.ok body, stage.evaluated) ∧
              stage.ModesAgree ∧
              (moduleName = mainModule →
                (engine.run source).1 ≠ .error .unfinished →
                (engine.evaluate source).1 ≠ .error .unfinished →
                  (engine.run source).2.state.SameBut body stage.eval
                      (engine.evaluate source).2.state ∧
                    ∃ outcome result,
                      stage.Agree outcome result ∧
                        (engine.run source).1 = Engine.told outcome ∧
                        (engine.evaluate source).1 = Engine.told result) := by
  refine ⟨compile_evaluates, ?_⟩
  intro given engine moduleName source body started behaves reached accepted discreet
  rcases exists_stage behaves reached accepted with
    ⟨stage, environment, isStarted, isBody, ends, evaluates⟩
  have prepared : stage.Prepared := by
    refine prepared_of_reached behaves reached accepted environment isStarted isBody evaluates ?_
    subst isStarted isBody
    exact environment ▸ discreet
  have agrees := Stage.agree prepared
  refine ⟨stage, environment, isStarted, isBody, ends, evaluates, agrees, ?_⟩
  rintro rfl finished alsoFinished
  subst isStarted isBody
  have runSound := (reached.accepted accepted).sound behaves
  have evalSound := (reached.accepted evaluates).sound behaves
  unfold Engine.run Engine.runModule at finished ⊢
  unfold Engine.evaluate at alsoFinished ⊢
  rw [Engine.fst_reportFailure, Engine.interpret_of_accepted accepted] at finished ⊢
  rw [Engine.interpret_of_accepted evaluates] at alsoFinished ⊢
  have inside : stage.body < stage.evaluated.heap.functions.size := by
    show stage.body < (stage.started.heap.functions.setIfInBounds _ _).size
    rw [Array.size_setIfInBounds]
    exact stage.lt_size
  rcases Engine.returns_of_callMachine runSound
      (show (Value.function stage.body).Refers _ from stage.lt_size) (List.forall_mem_nil _)
      (Engine.finished_withoutUndefined finished) with
    ⟨outcome, returns, isTold⟩
  rcases Engine.returns_of_callMachine evalSound
      (show (Value.function stage.body).Refers _ from inside) (List.forall_mem_nil _)
      (Engine.finished_withoutUndefined alsoFinished) with
    ⟨result, alsoReturns, alsoTold⟩
  rcases agrees.returns environment returns alsoReturns with ⟨agree, differ⟩
  refine ⟨?_, outcome, result, agree, isTold, alsoTold⟩
  rw [Engine.state_reportFailure]
  exact differ

/-- An engine that has accepted a text with nothing but an expression. -/
def statedState : State :=
  ((Engine.create quietEnvironment).state.addNamedSource .run mainModule "true;").2

/-- The body of the text is called. -/
def statedCall : OuterCall :=
  .outermost statedState (.function 0) []

set_option maxRecDepth 3000 in
/-- The call is over after the four instructions of the body. -/
theorem statedCall_steps :
    (statedCall.machineAt quietEnvironment 0).control = .script ∧
      (statedCall.machineAt quietEnvironment 1).control = .script ∧
      (statedCall.machineAt quietEnvironment 2).control = .script ∧
      (statedCall.machineAt quietEnvironment 3).control = .script ∧
      ¬ statedCall.Lasts (statedCall.machineAt quietEnvironment 4) := by
  cbv

/-- None of the instructions is left to the host. -/
theorem statedCall_discreet : statedCall.Discreet quietEnvironment 0 := by
  rcases statedCall_steps with ⟨first, second, third, fourth, ended⟩
  have scripted :
      ∀ machine,
        statedCall.Reaches quietEnvironment machine →
        statedCall.Lasts machine →
          machine.control = .script := by
    intro machine reaches lasts
    rcases reaches.lt_of_lasts lasts ended with ⟨count, bound, rfl⟩
    match count with
    | 0 => exact first
    | 1 => exact second
    | 2 => exact third
    | 3 => exact fourth
  constructor
  · intro machine reaches lasts caller next isControl
    cases (scripted machine reaches lasts).symm.trans isControl
  · intro machine reaches lasts caller program isControl
    cases (scripted machine reaches lasts).symm.trans isControl

/-- The text is compiled in both modes, and both calls go alike. -/
theorem statedText_evaluates :
    (∃ (nested : Array Function) (run eval : Function),
        (compile .run "true;" default 0 0).functions = .ok (nested.push run) ∧
          (compile .eval "true;" default 0 0).functions = .ok (nested.push eval) ∧
          Bodies (EndsInExpression "true;" default 0 0) run eval) ∧
      ∃ stage : Stage,
        stage.started = statedState ∧
          (Engine.create quietEnvironment).state.addNamedSource .eval mainModule "true;" =
            (.ok 0, stage.evaluated) ∧
          stage.ModesAgree := by
  constructor
  · have isAccepted : (compile .run "true;" default 0 0).functions.isOk = true := by cbv
    rcases success : (compile .run "true;" default 0 0).functions with error | functions
    · rw [success] at isAccepted
      cases isAccepted
    · rcases evaluation_agrees_with_running.1 (Module.indexed_empty "" false) success with
        ⟨nested, run, eval, rfl, evaluates, bodies⟩
      exact ⟨nested, run, eval, rfl, congrArg Compiled.functions evaluates, bodies⟩
  · have accepted :
        (Engine.create quietEnvironment).state.addNamedSource .run mainModule "true;" =
          (.ok 0, statedState) := by
      have answer :
          ((Engine.create quietEnvironment).state.addNamedSource .run mainModule "true;").1 =
            .ok 0 := by
        cbv
      exact Prod.ext answer rfl
    have behaves : quietEnvironment.host.Behaves := fun _ _ _ _ _ _ => ⟨rfl, trivial⟩
    rcases evaluation_agrees_with_running.2 behaves .create accepted statedCall_discreet with
      ⟨stage, -, isStarted, -, -, evaluates, agree, -⟩
    exact ⟨stage, isStarted, evaluates, agree⟩

end ScriptEngine
