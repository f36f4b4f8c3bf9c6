import ScriptEngine.Proofs.Machine.OuterCall

/-!
# Room to spare

The limits on stack, frames and nested calls are compared with in three places:
when a value is pushed, when a function is activated and when a call from outside
begins.  A run that fails none of these comparisons does not notice the limits:
with larger ones it goes through the same machines, step by step
(`StaysWithinLimits.reaches`).

Two actions that differ only in the limits are compared with `AgreesWithin`, which
is kept by sequences; one lemma per action leads up to one step of the machine.
-/

namespace ScriptEngine

/-- Each of the limits is at most the other one. -/
structure Limits.AtMost (limits larger : Limits) : Prop where
  stackCapacity : limits.stackCapacity ≤ larger.stackCapacity
  maxFrames : limits.maxFrames ≤ larger.maxFrames
  maxNestedCalls : limits.maxNestedCalls ≤ larger.maxNestedCalls

/-- The environment with other limits. -/
def Environment.withLimits (environment : Environment) (limits : Limits) : Environment :=
  { environment with settings := { environment.settings with limits } }

namespace Action

/-- The action fails one of the comparisons with the limits. -/
def Overflows (action : Action α) (state : State) : Prop :=
  (action state).1 = .error (.fault .stackOverflow)

/-- Where the first action fails no comparison with the limits, the second does the same. -/
def AgreesWithin (limited roomy : Action α) : Prop :=
  ∀ state, limited.Overflows state ∨ roomy state = limited state

namespace AgreesWithin

theorem refl (action : Action α) : action.AgreesWithin action :=
  fun _ => .inr rfl

theorem bind
    {limited roomy : Action α}
    {next wide : α → Action β}
    (first : limited.AgreesWithin roomy)
    (second : ∀ result, (next result).AgreesWithin (wide result)) :
    (limited >>= next).AgreesWithin (roomy >>= wide) := by
  intro state
  rcases outcome : limited state with ⟨interruption | result, after⟩
  · have stops := bind_of_error outcome next
    rcases first state with overflows | same
    · left
      unfold Overflows at overflows ⊢
      rw [outcome] at overflows
      rw [stops]
      cases overflows
      rfl
    · right
      rw [stops, bind_of_error (same.trans outcome)]
  · have goesOn := bind_of_ok outcome next
    rcases first state with overflows | same
    · unfold Overflows at overflows
      rw [outcome] at overflows
      cases overflows
    · unfold Overflows
      rw [goesOn, bind_of_ok (same.trans outcome)]
      exact second result after

theorem andThen
    (action : Action α)
    {next wide : α → Action β}
    (second : ∀ result, (next result).AgreesWithin (wide result)) :
    (action >>= next).AgreesWithin (action >>= wide) :=
  bind (refl action) second

variable {limits larger : Limits}

theorem push
    (room : limits.AtMost larger)
    (value : Value) :
    (push limits value).AgreesWithin (Action.push larger value) := by
  intro state
  unfold Overflows Action.push
  by_cases fits : state.stack.size < limits.stackCapacity
  · right
    rw [if_pos fits, if_pos (Nat.lt_of_lt_of_le fits room.stackCapacity)]
  · left
    rw [if_neg fits]

theorem pushFrame
    (room : limits.AtMost larger)
    (function : Function)
    (argumentCount : Nat)
    (initializer : Bool) :
    (pushFrame limits function argumentCount initializer).AgreesWithin
      (Action.pushFrame larger function argumentCount initializer) := by
  intro state
  unfold Action.pushFrame Overflows
  simp only [raise_bind]
  by_cases arity : argumentCount ≠ function.arity
  · right
    rw [if_pos arity, if_pos arity]
  · rw [if_neg arity, if_neg arity, look_bind, look_bind]
    by_cases full : limits.maxFrames ≤ state.frames.size
    · left
      rw [if_pos full]
      rfl
    · right
      have bound := room.maxFrames
      rw [if_neg full, if_neg (by omega)]

end AgreesWithin

end Action

/-! ## Actions -/

namespace Action

variable {environment : Environment} {larger : Limits}

theorem completeHostCall_agrees
    (room : environment.settings.limits.AtMost larger)
    (call : HostCall)
    (value : Value) :
    (completeHostCall environment call value).AgreesWithin
      (completeHostCall (environment.withLimits larger) call value) := by
  unfold completeHostCall
  exact .andThen _ fun _ => .bind (.push room value) fun _ => .refl _

theorem completeAtOnce_agrees
    (room : environment.settings.limits.AtMost larger)
    (call : HostCall)
    (result : Except String Value) :
    (completeAtOnce environment call result).AgreesWithin
      (completeAtOnce (environment.withLimits larger) call result) := by
  cases result with
  | ok value => exact .bind (completeHostCall_agrees room call value) fun _ => .refl _
  | error message => exact .refl _

theorem callNative_agrees
    (room : environment.settings.limits.AtMost larger)
    (native : Native)
    (argumentCount : Nat)
    (constructed : Option Value) :
    (callNative environment native argumentCount constructed).AgreesWithin
      (callNative (environment.withLimits larger) native argumentCount constructed) := by
  unfold callNative
  extract_lets goOn goOnWide
  have goesOn : (goOn ()).AgreesWithin (goOnWide ()) := by
    refine .andThen _ fun slot => .andThen _ fun receiver => .andThen _ fun arguments => ?_
    cases native.routine with
    | sequence method => exact .andThen _ fun result => completeAtOnce_agrees room _ result
    | dictionary method => exact .andThen _ fun result => completeAtOnce_agrees room _ result
    | host key => exact .refl _
  cases native.arity with
  | exactly expected =>
      simp only
      split
      · exact .andThen _ fun _ => goesOn
      · exact goesOn
  | any => exact goesOn

theorem construct_agrees
    (room : environment.settings.limits.AtMost larger)
    (classId argumentCount : Nat) :
    (construct environment classId argumentCount).AgreesWithin
      (construct (environment.withLimits larger) classId argumentCount) := by
  unfold construct
  refine .andThen _ fun slot => .andThen _ fun created => .andThen _ fun _ => ?_
  refine .andThen _ fun initializer => ?_
  rcases initializer with _ | method
  · exact .refl _
  · cases method with
    | function id =>
        exact .andThen _ fun function => .bind (.pushFrame room function _ _) fun _ => .refl _
    | hostMethod id => exact .andThen _ fun native => callNative_agrees room native _ _
    | _ => exact .refl _

theorem callValue_agrees
    (room : environment.settings.limits.AtMost larger)
    (callee : Value)
    (argumentCount : Nat) :
    (callValue environment callee argumentCount).AgreesWithin
      (callValue (environment.withLimits larger) callee argumentCount) := by
  induction callee with
  | function id =>
      unfold callValue
      exact .andThen _ fun function => .bind (.pushFrame room function _ _) fun _ => .refl _
  | boundMethod id receiver method _ induction =>
      unfold callValue
      exact .andThen _ fun slot => .andThen _ fun _ => induction
  | classObject id =>
      unfold callValue
      exact construct_agrees room id argumentCount
  | hostFunction id | hostMethod id =>
      unfold callValue
      exact .andThen _ fun native => callNative_agrees room native _ _
  | _ =>
      unfold callValue
      exact .refl _

theorem invoke_agrees
    (room : environment.settings.limits.AtMost larger)
    (name : String)
    (argumentCount : Nat) :
    (invoke environment name argumentCount).AgreesWithin
      (invoke (environment.withLimits larger) name argumentCount) := by
  have calls := fun value => callValue_agrees room value argumentCount
  unfold invoke
  refine .andThen _ fun receiver => .andThen _ fun slot => ?_
  cases receiver with
  | object id =>
      refine .andThen _ fun field => ?_
      rcases field with _ | value
      · refine .andThen _ fun method => ?_
        rcases method with _ | method
        · exact .refl _
        · exact calls method
      · exact .andThen _ fun _ => calls value
  | classObject id =>
      refine .andThen _ fun method => ?_
      rcases method with _ | method
      · exact .refl _
      · exact calls method
  | moduleHandle id name => exact .andThen _ fun value => .andThen _ fun _ => calls value
  | _ => exact .refl _

theorem importModule_agrees
    (room : environment.settings.limits.AtMost larger)
    (name : String) :
    (importModule environment name).AgreesWithin
      (importModule (environment.withLimits larger) name) := by
  unfold importModule
  refine .andThen _ fun existing? => .andThen _ fun loaded? => ?_
  rcases loaded? with _ | id
  · refine .andThen (requestSource environment name) fun source? => ?_
    rcases source? with _ | source
    · rcases existing? with _ | id
      · exact .refl _
      · exact .andThen _ fun _ => .bind (.push room _) fun _ => .refl _
    · refine .andThen _ fun id => .andThen _ fun compiled => ?_
      rcases compiled with error | body
      · exact .refl _
      · exact .andThen _ fun _ => .bind (.push room _) fun _ => callValue_agrees room _ _
  · exact .bind (.push room _) fun _ => .refl _

theorem binaryNumeric_agrees
    (room : environment.settings.limits.AtMost larger)
    (operation : Float → Float → Value) :
    (binaryNumeric environment operation).AgreesWithin
      (binaryNumeric (environment.withLimits larger) operation) := by
  unfold binaryNumeric
  refine .andThen _ fun right => .andThen _ fun left => ?_
  cases left with
  | number left =>
      cases right with
      | number right => exact .push room _
      | _ => exact .refl _
  | _ => exact .refl _

theorem add_agrees (room : environment.settings.limits.AtMost larger) :
    (add environment).AgreesWithin (add (environment.withLimits larger)) := by
  unfold add
  refine .andThen _ fun right => .andThen _ fun left => ?_
  cases sum? left right with
  | some value => exact .push room value
  | none => exact .refl _

theorem getLocal_agrees
    (room : environment.settings.limits.AtMost larger)
    (slot : Nat) :
    (getLocal environment slot).AgreesWithin (getLocal (environment.withLimits larger) slot) := by
  unfold getLocal
  refine .andThen _ fun frame => .andThen _ fun value? => ?_
  rcases value? with _ | value
  · exact .refl _
  · exact .push room value

theorem leave_agrees
    (room : environment.settings.limits.AtMost larger)
    (entryDepth : Nat) :
    (leave environment entryDepth).AgreesWithin
      (leave (environment.withLimits larger) entryDepth) := by
  unfold leave
  refine .andThen _ fun result => .andThen _ fun finished => .andThen _ fun _ => ?_
  simp only
  have goesOn := fun value =>
    AgreesWithin.andThen (cutStack finished.base) fun _ =>
      AgreesWithin.andThen (look (·.frames.size)) fun size =>
        show (if size ≤ entryDepth then pure (.finished value) else do
            push environment.settings.limits value
            pure .proceed : Action Transition).AgreesWithin
          (if size ≤ entryDepth then pure (.finished value) else do
            push larger value
            pure .proceed) by
          split
          · exact .refl _
          · exact .bind (.push room value) fun _ => .refl _
  split
  · exact .andThen _ goesOn
  · exact .andThen _ goesOn

theorem setProperty_agrees
    (room : environment.settings.limits.AtMost larger)
    (name : String) :
    (setProperty environment name).AgreesWithin
      (setProperty (environment.withLimits larger) name) := by
  unfold setProperty
  refine .andThen _ fun value => .andThen _ fun receiver => ?_
  cases receiver with
  | object id => exact .andThen _ fun _ => .push room value
  | _ => exact .refl _

theorem andProceed_agrees
    {limited roomy : Action Unit}
    (agrees : limited.AgreesWithin roomy) :
    (andProceed limited).AgreesWithin (andProceed roomy) :=
  .bind agrees fun _ => .refl _

/-- An instruction notices the limits only where it fails a comparison with them. -/
theorem execute_agrees
    (room : environment.settings.limits.AtMost larger)
    (entryDepth : Nat)
    (instruction : Instruction) :
    (execute environment entryDepth instruction).AgreesWithin
      (execute (environment.withLimits larger) entryDepth instruction) := by
  cases instruction with
  | constant index | constantLong index =>
      exact andProceed_agrees (.andThen _ fun value => .push room value)
  | pushNull | pushTrue | pushFalse => exact andProceed_agrees (.push room _)
  | getLocal slot => exact andProceed_agrees (getLocal_agrees room _)
  | getModule slot => exact andProceed_agrees (.andThen _ fun value => .push room value)
  | equal =>
      exact andProceed_agrees (.andThen _ fun right => .andThen _ fun left => .push room _)
  | greater | less | subtract | multiply | divide | modulo =>
      exact andProceed_agrees (binaryNumeric_agrees room _)
  | add => exact andProceed_agrees (add_agrees room)
  | negateTruth => exact andProceed_agrees (.andThen _ fun value => .push room _)
  | negate =>
      refine andProceed_agrees (.andThen _ fun value => ?_)
      cases value with
      | number number => exact .push room _
      | _ => exact .refl _
  | call argumentCount => exact .andThen _ fun callee => callValue_agrees room callee _
  | invoke index argumentCount => exact .andThen _ fun name => invoke_agrees room name _
  | leave => exact leave_agrees room entryDepth
  | makeClass index =>
      exact andProceed_agrees (.andThen _ fun name => .andThen _ fun id => .push room _)
  | getProperty index =>
      exact andProceed_agrees
        (.andThen _ fun name => .andThen _ fun receiver => .andThen _ fun value => .push room value)
  | setProperty index =>
      exact andProceed_agrees (.andThen _ fun name => setProperty_agrees room name)
  | getIndex =>
      exact andProceed_agrees
        (.andThen _ fun index => .andThen _ fun receiver => .andThen _ fun value =>
          .push room value)
  | setIndex =>
      exact andProceed_agrees
        (.andThen _ fun value => .andThen _ fun index => .andThen _ fun receiver =>
          .andThen _ fun _ => .push room value)
  | importModule index => exact .andThen _ fun name => importModule_agrees room name
  | _ => exact .refl _

theorem step_agrees
    (room : environment.settings.limits.AtMost larger)
    (entryDepth : Nat) :
    (step environment entryDepth).AgreesWithin
      (step (environment.withLimits larger) entryDepth) := by
  unfold step
  extract_lets goOn goOnWide
  have goesOn : (goOn ()).AgreesWithin (goOnWide ()) := by
    refine .andThen _ fun frame => ?_
    cases Instruction.decode frame.function.chunk.code frame.offset with
    | complete instruction => exact .andThen _ fun _ => execute_agrees room entryDepth instruction
    | _ => exact .refl _
  show (if environment.settings.trace then _ else _ : Action Transition).AgreesWithin
    (if environment.settings.trace then _ else _)
  split
  · exact .andThen _ fun _ => goesOn
  · exact goesOn

end Action

/-! ## Steps -/

namespace Machine

variable {environment : Environment} {larger : Limits}

theorem pushAll_agrees
    (room : environment.settings.limits.AtMost larger)
    (values : List Value) :
    (pushAll environment values).AgreesWithin
      (pushAll (environment.withLimits larger) values) := by
  induction values with
  | nil => exact .refl _
  | cons value rest induction => exact .bind (.push room value) fun _ => induction

theorem enter_agrees
    (room : environment.settings.limits.AtMost larger)
    (depth : Nat)
    (callee : Value)
    (arguments : List Value) :
    (enter environment depth callee arguments).AgreesWithin
      (enter (environment.withLimits larger) depth callee arguments) := by
  intro state
  unfold enter
  simp only [Action.raise_bind]
  by_cases deep : environment.settings.limits.maxNestedCalls < depth
  · left
    rw [if_pos deep]
    rfl
  · have shallow : ¬ larger.maxNestedCalls < depth := by
      have bound := room.maxNestedCalls
      omega
    rw [if_neg deep]
    show _ ∨ (if larger.maxNestedCalls < depth then _ else _ : Action Transition) state = _
    rw [if_neg shallow]
    by_cases many : Compiler.maxArguments < arguments.length
    · right
      rw [if_pos many, if_pos many]
    · rw [if_neg many, if_neg many]
      revert state
      exact Action.AgreesWithin.bind (.push room callee) fun _ =>
        .bind (pushAll_agrees room arguments) fun _ => Action.callValue_agrees room callee _

/-- The next step fails one of the comparisons with the limits. -/
def Overflows (environment : Environment) (machine : Machine) : Prop :=
  ∃ action subRuns,
    machine.nextAction? environment = some (action, subRuns) ∧ action.Overflows machine.state

/-- A step that fails no comparison with the limits is the same with larger ones. -/
theorem step_of_larger_limits
    (room : environment.settings.limits.AtMost larger)
    {machine : Machine}
    (within : ¬ machine.Overflows environment) :
    machine.step (environment.withLimits larger) = machine.step environment := by
  -- Without an action the step reads nothing of the settings.
  have agree :
      ∀ action wide subRuns,
        machine.nextAction? environment = some (action, subRuns) →
        machine.nextAction? (environment.withLimits larger) = some (wide, subRuns) →
        action.AgreesWithin wide →
          machine.step (environment.withLimits larger) = machine.step environment := by
    intro action wide subRuns isNext isWide agrees
    rw [step_eq_settle isNext, step_eq_settle isWide]
    rcases agrees machine.state with overflows | same
    · exact absurd ⟨action, subRuns, isNext, overflows⟩ within
    · rw [same]
  rcases machine with ⟨state, control, subRuns⟩
  cases control with
  | script => exact agree _ _ _ rfl rfl (Action.step_agrees room _)
  | host call program =>
      cases program with
      | finish value =>
          refine agree _ _ _ rfl rfl ?_
          exact .bind (Action.completeHostCall_agrees room call value) fun _ => .refl _
      | call callee arguments next => exact agree _ _ _ rfl rfl (enter_agrees room _ _ _)
      | _ => rfl
  | _ => rfl

end Machine

/-! ## Calls from outside -/

namespace OuterCall

/-- No comparison with the limits fails during the call, in it or in calls inside it. -/
structure StaysWithinLimits (environment : Environment) (call : OuterCall) : Prop where
  enters :
    ¬ (Machine.enter environment (call.around.length + 1) call.callee call.arguments).Overflows
      call.state
  runs :
    ∀ machine,
      call.Reaches environment machine → call.Lasts machine → ¬ machine.Overflows environment

variable {environment : Environment} {larger : Limits} {call : OuterCall}

/-- The call begins in the same way with larger limits. -/
theorem StaysWithinLimits.entered_eq
    (room : environment.settings.limits.AtMost larger)
    (within : call.StaysWithinLimits environment) :
    call.entered (environment.withLimits larger) = call.entered environment := by
  unfold entered Machine.start
  have agrees :=
    Machine.enter_agrees room (call.around.length + 1) call.callee call.arguments call.state
  rcases agrees with overflows | same
  · exact absurd overflows within.enters
  · rw [same]

/-- The call goes through the same machines with larger limits. -/
theorem StaysWithinLimits.reaches
    (room : environment.settings.limits.AtMost larger)
    (within : call.StaysWithinLimits environment)
    {machine : Machine}
    (reaches : call.Reaches environment machine) :
    call.Reaches (environment.withLimits larger) machine := by
  induction reaches with
  | entered =>
      rw [← within.entered_eq room]
      exact .entered
  | step before lasts induction =>
      rw [← Machine.step_of_larger_limits room (within.runs _ before lasts)]
      exact .step induction lasts

/-- Larger limits do not change a call that fails no comparison with the limits: the
outcome, the heap, the modules and the journal that it leaves are the same. -/
theorem returns_of_larger_limits
    (room : environment.settings.limits.AtMost larger)
    (within : call.StaysWithinLimits environment)
    {outcome : Except RuntimeError Value}
    {final : State}
    (returns : call.Returns environment outcome final) :
    call.Returns (environment.withLimits larger) outcome final :=
  within.reaches room returns

/-- A host whose routines call their first argument and do not care what becomes of it. -/
def carelessHost : Host :=
  fun _ _ arguments => .call (arguments.headD .null) [] fun _ => .finish (.bool true)

/-- A function that negates null. -/
def negatingFunction : Function where
  name := some "f"
  arity := 0
  home := 0
  chunk := { code := (Instruction.encode [.pushNull, .negate, .leave]).toArray }

/-- The call of a careless routine with a function that fails. -/
def carelessCall : OuterCall :=
  outermost
    { heap :=
        { functions := #[negatingFunction]
          natives := #[{ name := "attempt", arity := .exactly 1, routine := .host "attempt" }] } }
    (.hostFunction 0) [.function 0]

/-- An environment in which the call has just enough room. -/
def tightEnvironment : Environment where
  settings := { limits := { stackCapacity := 4, maxFrames := 1, maxNestedCalls := 2 } }
  host := carelessHost

theorem carelessCall_ended : ¬ carelessCall.Lasts (carelessCall.machineAt tightEnvironment 4) :=
  Nat.lt_irrefl 0

theorem carelessCall_stays_within_limits : carelessCall.StaysWithinLimits tightEnvironment where
  enters := nofun
  runs := by
    intro machine reaches lasts
    rcases reaches.lt_of_lasts lasts carelessCall_ended with ⟨count, bound, rfl⟩
    match count, bound with
    | 0, _ | 1, _ | 2, _ | 3, _ =>
        rintro ⟨action, subRuns, isNext, overflows⟩
        cases isNext
        cases overflows

/-- The failure inside the call is passed over with the usual limits as well. -/
theorem carelessCall_returns_with_usual_limits :
    carelessCall.Returns (tightEnvironment.withLimits {}) (.ok (.bool true))
      carelessCall.state := by
  have room : tightEnvironment.settings.limits.AtMost {} := by
    constructor <;> decide
  apply returns_of_larger_limits room carelessCall_stays_within_limits
  exact reaches_iff_machineAt.mpr ⟨4, rfl, by decide⟩

end OuterCall

end ScriptEngine
