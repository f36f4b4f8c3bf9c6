import ScriptEngine.Proofs.Machine.RelocatedStep

/-!
# Machines on the ground

A call from outside, wherever it begins, goes the way of the same call made by the
embedding program on an empty stack and without frames (`OuterCall.alone`), with
what the ground leaves of the limits.  `OuterCall.Corresponds` relates the machines
of the two, step by step until both calls have returned (`corresponds_step`).  A
host routine looks at the actual state, so the machine of the call alone is told
what there is to see (`Machine.stepSeeing`).
-/

namespace ScriptEngine

open Relative

/-- A call from outside on values and frames that were there before. -/
def SubRun.raised (ground : Ground) (subRun : SubRun) : SubRun where
  stackMark := ground.height + subRun.stackMark
  entryDepth := ground.frames.size + subRun.entryDepth
  awaiting := subRun.awaiting.map fun (call, next) => (call.raised ground.height, next)

theorem SubRun.awaiting_raised
    {ground : Ground}
    {subRun : SubRun}
    {caller : HostCall}
    {next : Except RuntimeError Value → HostProgram}
    (awaiting : subRun.awaiting = some (caller, next)) :
    (subRun.raised ground).awaiting = some (caller.raised ground.height, next) := by
  unfold SubRun.raised
  rw [awaiting]
  rfl

/-- What the machine does next, on values that were there before. -/
def Control.raised (height : Nat) : Control → Control
  | .script => .script
  | .host call program => .host (call.raised height) program
  | .ended outcome => .ended outcome
  | .stuck => .stuck

/-- A step in which a host routine that looks at the state sees another one. -/
def Machine.stepSeeing (environment : Environment) (seen : State) (machine : Machine) : Machine :=
  match machine.control with
  | .host call (.inspect next) => { machine with control := .host call (next seen) }
  | _ => machine.step environment

theorem Machine.stepSeeing_eq_step
    {environment : Environment}
    {machine : Machine}
    {action : Action Transition}
    {subRuns : List SubRun}
    (isNext : machine.nextAction? environment = some (action, subRuns))
    (seen : State) :
    machine.stepSeeing environment seen = machine.step environment := by
  unfold Machine.stepSeeing
  split
  · rename_i isControl
    rcases machine with ⟨state, control, present⟩
    change control = _ at isControl
    subst isControl
    cases isNext
  · rfl

/-! ## Entering a call -/

namespace Machine

open Action

variable
  {environment : Environment}
  {ground : Ground}
  {actual relative : State}
  {subRuns : List SubRun}

theorem pushAll_goes
    {slot : Nat}
    {next following : Unit → Action Transition}
    (values : List Value)
    (carries : ground.Carries relative actual)
    (waiting : Waiting relative.activeFrames subRuns slot)
    (bound : slot ≤ relative.stack.size)
    (goes :
      ∀ after final,
        ground.Carries final after →
        Waiting final.activeFrames subRuns slot →
        final.stack.size = relative.stack.size + values.length →
          Goes ground subRuns (next ()) (following ()) after final) :
    Goes ground subRuns (pushAll environment values >>= next)
      (pushAll (ground.environment environment) values >>= following) actual relative := by
  induction values generalizing actual relative with
  | nil => exact goes actual relative carries waiting rfl
  | cons value rest induction =>
      unfold pushAll
      simp only [bind_assoc]
      apply Tracks.bind
      apply Tracks.push carries
      · apply induction (carries.push value) waiting
        · simp only [Array.size_push]
          omega
        · intro after final carried waits size
          apply goes after final carried waits
          rw [size, Array.size_push, List.length_cons]
          omega
      · exact ⟨carries, [], _, slot, rfl, bound, waiting⟩

/-- A call from outside is entered in the same way on any ground. -/
theorem enter_goes
    (carries : ground.Carries relative actual)
    (waiting : Waiting relative.activeFrames subRuns relative.stack.size)
    (depth : Nat)
    (callee : Value)
    (arguments : List Value) :
    Goes ground subRuns (enter environment (ground.calls + depth + 1) callee arguments)
      (enter (ground.environment environment) (depth + 1) callee arguments) actual relative := by
  have fails : ground.Carries relative actual ∧ Unwinds subRuns relative :=
    ⟨carries, [], _, _, rfl, Nat.le_refl _, waiting⟩
  have sameLimit :
      environment.settings.limits.maxNestedCalls < ground.calls + depth + 1 ↔
        (ground.environment environment).settings.limits.maxNestedCalls < depth + 1 := by
    simp only [Ground.environment, Environment.withLimits, Ground.limits]
    omega
  unfold enter
  simp only [raise_bind]
  by_cases deep : environment.settings.limits.maxNestedCalls < ground.calls + depth + 1
  · rw [if_pos deep, if_pos (sameLimit.mp deep)]
    exact .raise fails
  · rw [if_neg deep, if_neg (deep ∘ sameLimit.mpr)]
    split
    · exact .raise fails
    · apply Tracks.bind
      apply Tracks.push carries
      · refine pushAll_goes arguments (carries.push callee) waiting ?_ ?_
        · simp
        · intro after final carried waits size
          refine callValue_goes ⟨carried, ?_, waits⟩ callee
          rw [size, Array.size_push]
          omega
      · exact fails

end Machine

namespace OuterCall

/-- What lies beneath the call. -/
def ground (call : OuterCall) : Ground where
  stack := call.state.stack
  frames := call.state.frames
  calls := call.around.length
  texts := call.state.journal.texts
  loads := call.state.journal.loads

/-- The same call, made by the embedding program on nothing. -/
def alone (call : OuterCall) : OuterCall :=
  outermost { heap := call.state.heap, registry := call.state.registry } call.callee call.arguments

/-- Something waits for whatever the machine does next. -/
def Steady (machine : Machine) : Prop :=
  match machine.control with
  | .script => Ready machine.state machine.subRuns
  | .host call _ =>
    Waiting machine.state.activeFrames machine.subRuns call.slot ∧
      call.slot < machine.state.stack.size
  | .ended _ => False
  | .stuck => True

/-- The calls inside the call, the call and those around it, with and without the ground. -/
structure Stacked (call : OuterCall) (relative actual : List SubRun) : Prop where
  split :
    ∃ inner,
      relative = inner ++ [call.alone.subRun] ∧
        actual = inner.map (SubRun.raised call.ground) ++ call.subRun :: call.around

/-- A machine of the call and the machine of the call alone. -/
inductive Corresponds (call : OuterCall) (relative actual : Machine) : Prop where
  /-- The call goes on. -/
  | lasts
      (carries : call.ground.Carries relative.state actual.state)
      (control : actual.control = relative.control.raised call.ground.height)
      (stacked : call.Stacked relative.subRuns actual.subRuns)
      (steady : Steady relative)
  /-- The call has returned, and nothing of it is left on the stack. -/
  | returned
      {outcome : Except RuntimeError Value}
      (carries : call.ground.Carries relative.state actual.state)
      (isRelative : relative = call.alone.returned outcome relative.state)
      (isActual : actual = call.returned outcome actual.state)
      (stack : relative.state.stack = #[])
      (frames : relative.state.frames = #[])

variable
  {environment : Environment}
  {call : OuterCall}
  {actual relative : State}
  {actualSubRuns subRuns : List SubRun}
  {control counterpart : Control}

theorem Stacked.entryDepth
    (stacked : call.Stacked subRuns actualSubRuns) :
    entryDepthOf actualSubRuns = call.ground.frames.size + entryDepthOf subRuns := by
  rcases stacked.split with ⟨inner, rfl, rfl⟩
  cases inner with
  | nil => rfl
  | cons subRun inner => rfl

theorem Stacked.length
    (stacked : call.Stacked subRuns actualSubRuns) :
    actualSubRuns.length = call.ground.calls + subRuns.length := by
  rcases stacked.split with ⟨inner, rfl, rfl⟩
  simp only [List.length_append, List.length_map, List.length_cons, List.length_nil, ground]
  omega

theorem Stacked.lasts
    {machine : Machine}
    (stacked : call.Stacked subRuns machine.subRuns) :
    call.Lasts machine := by
  rcases stacked.split with ⟨inner, -, split⟩
  unfold Lasts
  rw [split, List.length_append, List.length_cons]
  omega

/-- The innermost calls began at corresponding places. -/
theorem Stacked.innermost
    {first : SubRun}
    {rest : List SubRun}
    (stacked : call.Stacked (first :: rest) actualSubRuns) :
    ∃ awaiting others,
      actualSubRuns =
        { stackMark := call.ground.height + first.stackMark
          entryDepth := call.ground.frames.size + first.entryDepth
          awaiting } :: others := by
  rcases stacked.split with ⟨inner, isRelative, rfl⟩
  cases inner with
  | nil =>
      cases isRelative
      exact ⟨call.awaiting, call.around, rfl⟩
  | cons innermost inner =>
      cases isRelative
      exact ⟨_, _, rfl⟩

theorem waiting_depth
    {frames : List Frame}
    {slot : Nat}
    (waiting : Waiting frames subRuns slot) :
    entryDepthOf subRuns ≤ frames.length := by
  induction waiting with
  | function _ _ _ _ induction => exact Nat.le_succ_of_le induction
  | beginning _ _ depth => exact Nat.le_of_eq depth
  | nested _ _ depth => exact Nat.le_of_eq depth

/-- How the innermost call from outside ends. -/
inductive Ends (frames : List Frame) : List SubRun → Nat → Prop where
  | beginning
      {subRun : SubRun}
      (awaiting : subRun.awaiting = none)
      (isEmpty : frames = []) :
      Ends frames [subRun] 0
  | nested
      {subRun : SubRun}
      {rest : List SubRun}
      {slot : Nat}
      {caller : HostCall}
      {next : Except RuntimeError Value → HostProgram}
      (awaiting : subRun.awaiting = some (caller, next))
      (order : caller.slot < slot)
      (outer : Waiting frames rest caller.slot) :
      Ends frames (subRun :: rest) slot

theorem ends_of_waiting
    {frames : List Frame}
    {slot : Nat}
    (waiting : Waiting frames subRuns slot)
    (bound : frames.length ≤ entryDepthOf subRuns) :
    Ends frames subRuns slot := by
  cases waiting with
  | function _ _ _ outer =>
      have depth := waiting_depth outer
      rw [List.length_cons] at bound
      omega
  | beginning awaiting => exact .beginning awaiting rfl
  | nested awaiting _ _ order outer => exact .nested awaiting order outer

/-- The innermost call from outside around any number of functions. -/
theorem unwind
    {frames : List Frame}
    {slot : Nat}
    (waiting : Waiting frames subRuns slot) :
    ∃ above outer subRun rest,
      frames = above ++ outer ∧
        subRuns = subRun :: rest ∧
        outer.length = subRun.entryDepth ∧
        subRun.stackMark ≤ slot ∧
        Waiting outer subRuns subRun.stackMark := by
  induction waiting with
  | function _ _ order _ induction =>
      rcases induction with ⟨above, outer, subRun, rest, rfl, rfl, depth, bound, waits⟩
      exact ⟨_ :: above, outer, subRun, rest, rfl, rfl, depth, Nat.le_trans bound order, waits⟩
  | beginning awaiting mark depth =>
      refine ⟨[], [], _, _, rfl, rfl, depth.symm, Nat.le_of_eq mark, ?_⟩
      rw [mark]
      exact .beginning awaiting mark depth
  | nested awaiting mark depth order outer _ =>
      subst mark
      exact ⟨[], _, _, _, rfl, rfl, depth.symm, Nat.le_refl _,
        .nested awaiting rfl depth order outer⟩

theorem conclude_of_awaiting
    {state : State}
    {first : SubRun}
    {rest : List SubRun}
    {caller : HostCall}
    {next : Except RuntimeError Value → HostProgram}
    (awaiting : first.awaiting = some (caller, next))
    (outcome : Except RuntimeError Value) :
    Machine.conclude { state, control, subRuns := first :: rest } outcome =
      { state, control := .host caller (next outcome), subRuns := rest } := by
  rcases first with ⟨mark, depth, _⟩
  cases awaiting
  rfl

/-- The outcome of the innermost call from outside is passed on in the same way. -/
theorem corresponds_conclude
    (carries : call.ground.Carries relative actual)
    (stacked : call.Stacked subRuns actualSubRuns)
    (ends : Ends relative.activeFrames subRuns relative.stack.size)
    (outcome : Except RuntimeError Value) :
    call.Corresponds
      (Machine.conclude { state := relative, control := counterpart, subRuns } outcome)
      (Machine.conclude { state := actual, control, subRuns := actualSubRuns } outcome) := by
  rcases stacked.split with ⟨inner, isRelative, rfl⟩
  generalize isSize : relative.stack.size = size at ends
  cases ends with
  | beginning awaiting isEmpty =>
      have noInner : inner = [] := by
        have length := congrArg List.length isRelative
        simpa using length
      subst noInner
      cases isRelative
      have noFrames : relative.frames = #[] := by
        apply Array.toList_inj.mp
        simpa using isEmpty
      rw [List.map_nil, List.nil_append, call.conclude_eq]
      exact .returned carries rfl rfl (Array.eq_empty_of_size_eq_zero isSize) noFrames
  | nested awaiting order outer =>
      cases inner with
      | nil =>
          cases isRelative
          cases awaiting
      | cons innermost inner =>
          rcases List.cons.inj isRelative with ⟨same, rfl⟩
          rw [conclude_of_awaiting awaiting, List.map_cons, List.cons_append,
            conclude_of_awaiting (SubRun.awaiting_raised (same ▸ awaiting))]
          refine .lasts carries rfl ⟨inner, rfl, rfl⟩ ⟨outer, ?_⟩
          show _ < relative.stack.size
          rw [isSize]
          exact order

theorem traceFrom_carries
    (carries : call.ground.Carries relative actual)
    (depth : Nat) :
    Machine.traceFrom actual (call.ground.frames.size + depth) =
      Machine.traceFrom relative depth := by
  unfold Machine.traceFrom
  rw [carries.frames, carries.registry, Array.toList_append, ← Array.length_toList,
    List.drop_length_add_append, Array.toList_map, ← List.map_drop, ← List.map_reverse,
    List.map_map]
  rfl

/-- A fault ends the innermost call from outside in the same way, with the same trace. -/
theorem corresponds_raise
    (carries : call.ground.Carries relative actual)
    (stacked : call.Stacked subRuns actualSubRuns)
    (unwinds : Unwinds subRuns relative)
    (fault : Fault) :
    call.Corresponds (Machine.raise { state := relative, control := counterpart, subRuns } fault)
      (Machine.raise { state := actual, control, subRuns := actualSubRuns } fault) := by
  rcases unwinds with ⟨above, frames, slot, split, bound, waiting⟩
  rcases unwind waiting with ⟨inner, outer, innermost, rest, rfl, rfl, depth, marked, waits⟩
  rcases stacked.innermost with ⟨awaiting, others, rfl⟩
  rw [← List.append_assoc] at split
  have cutFrames : (relative.frames.shrink innermost.entryDepth).toList.reverse = outer := by
    rw [← depth]
    exact Machine.reverse_shrink split
  have cutSize : (relative.stack.shrink innermost.stackMark).size = innermost.stackMark := by
    rw [Array.size_shrink]
    omega
  have cut := (carries.cutStack innermost.stackMark).cutFrames innermost.entryDepth
  unfold Machine.raise
  simp only [traceFrom_carries carries]
  apply corresponds_conclude cut stacked
  simp only [State.activeFrames, cutFrames, cutSize]
  exact ends_of_waiting waits (Nat.le_of_eq depth)

/-- A result lets the function go on that waits for it. -/
theorem ready_of_returned
    {slot : Nat}
    (returned : Returned relative subRuns slot)
    (deeper : entryDepthOf subRuns < relative.frames.size) :
    Ready relative subRuns := by
  have size := returned.size
  have waiting := returned.waiting
  have count : relative.activeFrames.length = relative.frames.size := by
    simp
  rw [← count] at deeper
  generalize isFrames : relative.activeFrames = frames at waiting deeper
  cases waiting with
  | function shape height _ outer =>
      exact ⟨_, _, _, ⟨isFrames, size.trans height.symm, outer⟩, .inr ⟨_, rfl, shape⟩⟩
  | beginning => exact absurd deeper (Nat.not_lt_zero _)
  | nested _ _ depth =>
      simp only [entryDepthOf] at deeper
      omega

/-- The innermost function goes on, or its call from outside ends with the result. -/
theorem corresponds_resume
    (carries : call.ground.Carries relative actual)
    (stacked : call.Stacked subRuns actualSubRuns)
    (continues : Continues subRuns .proceed relative) :
    call.Corresponds (Machine.resume { state := relative, control := counterpart, subRuns })
      (Machine.resume { state := actual, control, subRuns := actualSubRuns }) := by
  have sameDepth :
      entryDepthOf actualSubRuns < actual.frames.size ↔
        entryDepthOf subRuns < relative.frames.size := by
    rw [stacked.entryDepth, carries.size_frames]
    omega
  have count : relative.activeFrames.length = relative.frames.size := by
    simp
  unfold Machine.resume
  simp only [Machine.entryDepth_eq]
  by_cases deeper : entryDepthOf subRuns < relative.frames.size
  · rw [if_pos deeper, if_pos (sameDepth.mpr deeper)]
    refine .lasts carries rfl stacked ?_
    rcases continues with ready | ⟨slot, returned⟩
    · exact ready
    · exact ready_of_returned returned deeper
  · rw [if_neg deeper, if_neg (deeper ∘ sameDepth.mp)]
    rcases continues with ⟨frame, rest, height, active, -⟩ | ⟨slot, size, waiting⟩
    · have depth := waiting_depth active.waiting
      rw [active.frames, List.length_cons] at count
      omega
    · rcases carries.back_stack (by omega) with ⟨value, last, same⟩
      simp only [Action.pop, last, same]
      apply corresponds_conclude (carries.pop (by omega)) stacked
      simp only [Array.size_pop, size, Nat.add_sub_cancel]
      exact ends_of_waiting waiting (Nat.le_trans (Nat.le_of_eq count) (Nat.le_of_not_lt deeper))

/-- The machines go on after actions that lead to the same. -/
theorem corresponds_settle
    {upper lower : Action Transition}
    (stacked : call.Stacked subRuns actualSubRuns)
    (goes : Action.Goes call.ground subRuns upper lower actual relative) :
    call.Corresponds (Machine.settle counterpart subRuns (lower relative))
      (Machine.settle control actualSubRuns (upper actual)) := by
  unfold Action.Goes Action.Tracks at goes
  rcases outcome : upper actual with ⟨interruption | transition, after⟩ <;>
    rcases relativeOutcome : lower relative with ⟨other | found, final⟩ <;>
    rw [outcome, relativeOutcome] at goes
  · rcases goes with ⟨rfl, carries, unwinds⟩
    cases interruption with
    | fault fault => exact corresponds_raise carries stacked unwinds fault
    | stuck => exact .lasts carries rfl stacked trivial
  · cases goes
  · cases goes
  · rcases goes with ⟨rfl, carries, continues⟩
    cases found with
    | proceed => exact corresponds_resume carries stacked continues
    | enterHost caller program => exact .lasts carries rfl stacked continues
    | finished value =>
        apply corresponds_conclude carries stacked
        exact ends_of_waiting continues.1 (by simpa using continues.2)

/-! ## Steps -/

/-- The call is entered as the call alone is. -/
theorem entered_goes
    (orderly : call.state.Orderly) :
    Action.Goes call.ground [call.alone.subRun]
      (Machine.enter environment (call.around.length + 1) call.callee call.arguments)
      (Machine.enter (call.ground.environment environment) 1 call.callee call.arguments)
      call.state call.alone.state := by
  have carries : call.ground.Carries call.alone.state call.state := by
    refine ⟨?_, ?_, rfl, rfl, ?_, ?_, orderly.of_same rfl rfl⟩
    all_goals simp [ground, alone, outermost]
  exact Machine.enter_goes carries (.beginning rfl rfl rfl) 0 call.callee call.arguments

theorem corresponds_entered
    (orderly : call.state.Orderly) :
    call.Corresponds (call.alone.entered (call.ground.environment environment))
      (call.entered environment) :=
  corresponds_settle ⟨⟨[], rfl, rfl⟩⟩ (entered_goes orderly)

/-- The action of the next step is the same, with and without the ground. -/
theorem nextAction_goes
    {alone machine : Machine}
    (carries : call.ground.Carries alone.state machine.state)
    (sameControl : machine.control = alone.control.raised call.ground.height)
    (stacked : call.Stacked alone.subRuns machine.subRuns)
    (steady : Steady alone)
    {lower : Action Transition}
    {subRuns : List SubRun}
    (isNext : alone.nextAction? (call.ground.environment environment) = some (lower, subRuns)) :
    ∃ upper actualSubRuns,
      machine.nextAction? environment = some (upper, actualSubRuns) ∧
        call.Stacked subRuns actualSubRuns ∧
        Action.Goes call.ground subRuns upper lower machine.state alone.state := by
  rcases machine with ⟨actual, control, actualSubRuns⟩
  rcases alone with ⟨relative, counterpart, present⟩
  change control = counterpart.raised call.ground.height at sameControl
  subst sameControl
  cases counterpart with
  | script =>
      cases isNext
      refine ⟨_, _, rfl, stacked, ?_⟩
      simp only
      rw [stacked.entryDepth]
      exact Action.step_goes carries steady
  | host caller program =>
      rcases steady with ⟨waiting, inside⟩
      cases program with
      | finish value =>
          cases isNext
          exact ⟨_, _, rfl, stacked,
            Action.completeHostCall_goes carries waiting (Nat.le_of_lt inside) value⟩
      | call callee arguments next =>
          cases isNext
          refine ⟨_, _, rfl, ?_, ?_⟩
          · rcases stacked.split with ⟨inner, isRelative, isActual⟩
            refine ⟨_ :: inner, congrArg _ isRelative, ?_⟩
            simp only at isActual ⊢
            rw [isActual, carries.size_stack, carries.size_frames]
            rfl
          · simp only
            rw [stacked.length]
            exact Machine.enter_goes carries (.nested rfl rfl (by simp) inside waiting) _ callee
              arguments
      | fail | inspect | perform => cases isNext
  | ended | stuck => cases isNext

/-- Every step of the call is a step of the call alone. -/
theorem corresponds_step
    {alone machine : Machine}
    (carries : call.ground.Carries alone.state machine.state)
    (sameControl : machine.control = alone.control.raised call.ground.height)
    (stacked : call.Stacked alone.subRuns machine.subRuns)
    (steady : Steady alone) :
    call.Corresponds (alone.stepSeeing (call.ground.environment environment) machine.state)
      (machine.step environment) := by
  rcases isNext : alone.nextAction? (call.ground.environment environment) with _ | ⟨lower, subRuns⟩
  · rcases machine with ⟨actual, control, actualSubRuns⟩
    rcases alone with ⟨relative, counterpart, subRuns⟩
    change control = counterpart.raised call.ground.height at sameControl
    subst sameControl
    cases counterpart with
    | script => cases isNext
    | host caller program =>
        rcases steady with ⟨waiting, inside⟩
        cases program with
        | finish | call => cases isNext
        | fail message =>
            refine corresponds_raise carries stacked ?_ (.host message)
            exact ⟨[], _, caller.slot, rfl, Nat.le_of_lt inside, waiting⟩
        | inspect next => exact .lasts carries rfl stacked ⟨waiting, inside⟩
        | perform request next =>
            rcases carries.perform request with ⟨same, performed⟩
            rcases request.frames_perform relative with ⟨stack, frames⟩
            refine .lasts performed ?_ stacked ⟨?_, ?_⟩
            · show Control.host _ (next (request.perform actual).1) = _
              rw [same]
              rfl
            · show Waiting (request.perform relative).2.frames.toList.reverse subRuns caller.slot
              rw [frames]
              exact waiting
            · show caller.slot < (request.perform relative).2.stack.size
              rw [stack]
              exact inside
    | ended outcome => cases steady
    | stuck => exact .lasts carries rfl stacked trivial
  · rcases nextAction_goes carries sameControl stacked steady isNext with
      ⟨upper, actualSubRuns, isActual, nested, goes⟩
    rw [Machine.stepSeeing_eq_step isNext, Machine.step_eq_settle isNext,
      Machine.step_eq_settle isActual]
    exact corresponds_settle nested goes

end OuterCall

end ScriptEngine
