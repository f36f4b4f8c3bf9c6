import ScriptEngine.Proofs.Machine.Correspondence

/-!
# Calls leave stack and frames as they were

When a call from outside returns, with a value or with an error, the stack holds the
values that it held before, the frames are the same and so are the calls around it.
This holds wherever a call can be made: between two operations of the embedding
program and inside host routines at any depth, whatever these routines do
(`CallPoint`).
-/

namespace ScriptEngine

namespace OuterCall

variable {environment : Environment} {call : OuterCall} {machine : Machine}

/-- Every machine of a call is one of the call alone, carried by the ground. -/
theorem Reaches.corresponds
    (orderly : call.state.Orderly)
    (reaches : call.Reaches environment machine) :
    ∃ alone, call.Corresponds alone machine := by
  induction reaches with
  | entered => exact ⟨_, corresponds_entered orderly⟩
  | step _ lasts induction =>
      rcases induction with ⟨alone, corresponds⟩
      cases corresponds with
      | lasts carries control stacked steady =>
          exact ⟨_, corresponds_step carries control stacked steady⟩
      | returned carries isRelative isActual =>
          rw [isActual] at lasts
          exact absurd lasts (Nat.lt_irrefl _)

/-- Whatever a call does, the state stays orderly. -/
theorem Reaches.orderly
    (orderly : call.state.Orderly)
    (reaches : call.Reaches environment machine) :
    machine.state.Orderly := by
  rcases reaches.corresponds orderly with ⟨alone, corresponds⟩
  have carries : call.ground.Carries alone.state machine.state := by
    cases corresponds with
    | lasts carries => exact carries
    | returned carries => exact carries
  exact carries.orderly.of_same (congrArg Heap.functions carries.heap) carries.registry

/-- A call that has ended has left nothing behind. -/
theorem Reaches.balanced
    (orderly : call.state.Orderly)
    (reaches : call.Reaches environment machine)
    (ended : ¬ call.Lasts machine) :
    machine.state.stack = call.state.stack ∧
      machine.state.frames = call.state.frames ∧
      machine.subRuns = call.around := by
  rcases reaches.corresponds orderly with ⟨alone, corresponds⟩
  cases corresponds with
  | lasts carries control stacked steady =>
      exact absurd stacked.lasts ended
  | returned carries isRelative isActual stack frames =>
      refine ⟨?_, ?_, congrArg Machine.subRuns isActual⟩
      · rw [carries.stack, stack, Array.append_empty]
        rfl
      · rw [carries.frames, frames, Array.map_empty, Array.append_empty]
        rfl

end OuterCall

/-! ## States in which a call can be made -/

theorem State.Sound.orderly
    {held : List Nat}
    {state : State}
    (sound : state.Sound held) :
    state.Orderly := by
  refine ⟨fun function member => ?_, _, sound.registry⟩
  rcases (sound.functions function member).wellTyped with ⟨slots, typed⟩
  exact ⟨slots, _, typed⟩

namespace Engine

/-- An engine between two operations. -/
abbrev Orderly (engine : Engine) : Prop :=
  engine.state.Orderly

variable {engine : Engine}

theorem orderly_create (environment : Environment) : (create environment).Orderly := by
  -- The host plays no part in the state of a new engine.
  have sound : (create { environment with host := Host.empty }).Sound :=
    sound_create fun _ _ _ _ _ _ => ⟨rfl, trivial⟩
  exact sound.state.orderly

theorem orderly_callMachine
    (orderly : engine.Orderly)
    (callee : Value)
    (arguments : List Value) :
    (engine.callMachine callee arguments).2.Orderly := by
  have called : (engine.state.call engine.environment callee arguments).2.Orderly :=
    (OuterCall.Reaches.entered.run engine.environment.settings.patience).orderly orderly
  rcases engine with ⟨environment, state, reports⟩
  unfold callMachine
  simp only
  split <;> rename_i outcome <;> rw [outcome] at called <;> exact called

theorem orderly_reportFailure
    {result : Except EngineError α × Engine}
    (orderly : result.2.Orderly)
    (moduleName : String) :
    (reportFailure moduleName result).2.Orderly := by
  rcases result with ⟨error | value, engine⟩ <;> exact orderly

theorem orderly_compileIn
    (orderly : engine.Orderly)
    (mode : CompileMode)
    (moduleName source : String) :
    (engine.compileIn mode moduleName source).2.Orderly := by
  have added := orderly.addNamedSource mode moduleName source
  rcases engine with ⟨environment, state, reports⟩
  unfold compileIn
  simp only
  split <;> rename_i outcome <;> rw [outcome] at added <;> exact added

theorem orderly_interpret
    (orderly : engine.Orderly)
    (mode : CompileMode)
    (moduleName source : String) :
    (engine.interpret mode moduleName source).2.Orderly := by
  have compiled := orderly_compileIn orderly mode moduleName source
  unfold interpret
  split <;> rename_i outcome <;> rw [outcome] at compiled
  · exact orderly_callMachine compiled _ _
  · exact compiled

theorem orderly_runModule
    (orderly : engine.Orderly)
    (moduleName source : String) :
    (engine.runModule moduleName source).2.Orderly := by
  apply orderly_reportFailure
  exact orderly_interpret orderly .run moduleName source

theorem orderly_callValue
    (orderly : engine.Orderly)
    (callee : Value)
    (arguments : List Value) :
    (engine.callValue callee arguments).2.Orderly := by
  apply orderly_reportFailure
  exact orderly_callMachine orderly callee arguments

theorem orderly_define
    (orderly : engine.Orderly)
    (moduleName name : String)
    (value : Value) :
    (engine.define moduleName name value).Orderly := by
  unfold define
  split
  · exact orderly.withRegistry (orderly.registry.defineBuiltin name value)
  · have defined : (engine.defineVariable moduleName name value).2.Orderly :=
      orderly.withRegistry (orderly.registry.defineVariable moduleName name value)
    split <;> rename_i outcome <;> rw [outcome] at defined <;> exact defined

theorem Reached.orderly
    {environment : Environment}
    (reached : engine.Reached environment) :
    engine.Orderly := by
  induction reached with
  | create => exact orderly_create environment
  | run _ source _ induction => exact orderly_runModule induction mainModule source
  | runModule _ moduleName source _ induction => exact orderly_runModule induction moduleName source
  | evaluate _ source _ induction => exact orderly_interpret induction _ _ _
  | compile _ mode moduleName source induction =>
      exact orderly_compileIn induction mode moduleName source
  | call _ moduleName name _ _ induction =>
      unfold Engine.call
      split
      · exact orderly_callValue induction _ _
      · exact orderly_reportFailure induction _
  | callValue _ _ _ _ induction => exact orderly_callValue induction _ _
  | assign _ moduleName name _ induction =>
      unfold Engine.assign
      split
      · rename_i registry assigned
        exact induction.withRegistry (induction.registry.assign assigned)
      · exact orderly_reportFailure induction _
  | define _ moduleName name _ induction => exact orderly_define induction moduleName name _
  | registerFunction _ moduleName native induction =>
      apply orderly_define
      exact induction.of_same rfl rfl
  | registerClass _ moduleName _ induction =>
      apply orderly_define
      exact induction.build _
  | request _ _ _ induction => exact induction.perform _
  | takeRecords _ induction => exact induction.of_same rfl rfl

end Engine

/--
The states in which a call from outside can be made, with the calls around it.  Any
machine of a call counts, in particular one in which a host routine goes on.
-/
inductive CallPoint (given : Environment) : Environment → State → List SubRun → Prop where
  /-- The embedding program makes a call. -/
  | idle
      {engine : Engine}
      (reached : engine.Reached given) :
      CallPoint given engine.environment engine.state []
  /-- A change is asked for. -/
  | request
      {environment : Environment}
      {state : State}
      {around : List SubRun}
      (point : CallPoint given environment state around)
      (request : HostRequest) :
      CallPoint given environment (request.perform state).2 around
  /-- A call is made and goes on for some time. -/
  | during
      {environment : Environment}
      {call : OuterCall}
      (point : CallPoint given environment call.state call.around)
      {machine : Machine}
      (reaches : call.Reaches environment machine) :
      CallPoint given environment machine.state machine.subRuns

theorem CallPoint.orderly
    {given environment : Environment}
    {state : State}
    {around : List SubRun}
    (point : CallPoint given environment state around) :
    state.Orderly := by
  induction point with
  | idle reached => exact reached.orderly
  | request _ request induction => exact induction.perform request
  | during _ reaches induction => exact reaches.orderly induction

/--
Wherever a call from outside is made and whatever is called, when the call has ended
stack, frames and the calls around it are what they were before.
-/
theorem call_leaves_stack_and_frames
    {given environment : Environment}
    {call : OuterCall}
    (point : CallPoint given environment call.state call.around)
    {machine : Machine}
    (reaches : call.Reaches environment machine)
    (ended : ¬ call.Lasts machine) :
    machine.state.stack = call.state.stack ∧
      machine.state.frames = call.state.frames ∧
      machine.subRuns = call.around :=
  reaches.balanced point.orderly ended

/-- An engine with a routine that calls its argument. -/
def applyingEngine : Engine :=
  (Engine.create { settings := {}, host := OuterCall.carelessHost }).registerFunction ""
    { name := "apply", arity := .exactly 1, routine := .host "apply" }

/-- The routine is called with a class. -/
def applyingCall : OuterCall :=
  .outermost applyingEngine.state (.hostFunction 11) [.classObject 0]

/-- The routine is about to call the class. -/
def applyingMachine : Machine :=
  applyingCall.entered applyingEngine.environment

/-- Inside the routine, null is called with an argument. -/
def refusedCall : OuterCall where
  state := applyingMachine.state
  around := applyingMachine.subRuns
  callee := .null
  arguments := [.bool true]
  awaiting := none

/-- The failure of the call leaves the routine and its argument on the stack. -/
theorem refusedCall_leaves_stack :
    (refusedCall.entered applyingEngine.environment).control.isEnded = true ∧
      (refusedCall.entered applyingEngine.environment).state.stack =
        #[.hostFunction 11, .classObject 0] := by
  have reached : applyingEngine.Reached { settings := {}, host := OuterCall.carelessHost } :=
    .registerFunction .create _ _
  have idle : CallPoint _ applyingEngine.environment applyingCall.state applyingCall.around :=
    .idle reached
  have point : CallPoint _ applyingEngine.environment refusedCall.state refusedCall.around :=
    show CallPoint _ _ applyingMachine.state applyingMachine.subRuns from .during idle .entered
  have left : (refusedCall.entered applyingEngine.environment).subRuns = refusedCall.around := rfl
  have ended : ¬ refusedCall.Lasts (refusedCall.entered applyingEngine.environment) := by
    unfold OuterCall.Lasts
    rw [left]
    exact Nat.lt_irrefl _
  refine ⟨rfl, ?_⟩
  rw [(call_leaves_stack_and_frames point .entered ended).1]
  rfl

end ScriptEngine
