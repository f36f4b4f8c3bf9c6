import ScriptEngine.Proofs.Machine.Balance

/-!
# Calls do not depend on what lies beneath them

Two calls of the same value, made with the same heap and modules but on different
stacks, frames and surrounding calls, go through the same machines of the call alone
(`OuterCall.lockstep`): as long as neither runs into a limit, and no host routine
looks at stack or frames, they have the same outcome, write the same texts and
leave the same heap and modules.
-/

namespace ScriptEngine

/-- A look at the state that tells nothing about stack, frames and journal. -/
def IgnoresStack (next : State → HostProgram) : Prop :=
  ∀ first second : State,
    first.heap = second.heap → first.registry = second.registry → next first = next second

namespace Ground

theorem limits_atMost (ground : Ground) (limits : Limits) :
    (ground.limits limits).AtMost limits :=
  ⟨Nat.sub_le _ _, Nat.sub_le _ _, Nat.sub_le _ _⟩

end Ground

/-- An action runs into a limit on the ground if it does so for itself. -/
theorem Action.Goes.overflows
    {ground : Ground}
    {subRuns : List SubRun}
    {upper lower : Action Transition}
    {actual relative : State}
    (goes : Goes ground subRuns upper lower actual relative)
    (overflows : lower.Overflows relative) :
    upper.Overflows actual := by
  unfold Goes Tracks at goes
  unfold Overflows at overflows ⊢
  rcases outcome : upper actual with ⟨interruption | transition, after⟩ <;>
    rcases counterpart : lower relative with ⟨other | found, final⟩ <;>
    rw [outcome, counterpart] at goes <;>
    rw [counterpart] at overflows
  · rcases goes with ⟨rfl, -⟩
    exact overflows
  · cases goes
  · cases goes
  · cases overflows

namespace OuterCall

/-- No host routine looks at stack, frames or journal during the call. -/
def LooksAside (environment : Environment) (call : OuterCall) : Prop :=
  ∀ machine,
    call.Reaches environment machine →
    call.Lasts machine →
      ∀ caller next, machine.control = .host caller (.inspect next) → IgnoresStack next

variable {environment : Environment} {call : OuterCall}

/-- Less room does not matter to a call alone that is entered within the limits. -/
theorem entered_alone
    (orderly : call.state.Orderly)
    (within : call.StaysWithinLimits environment) :
    call.alone.entered environment = call.alone.entered (call.ground.environment environment) := by
  have room :
      (call.ground.environment environment).settings.limits.AtMost environment.settings.limits :=
    call.ground.limits_atMost environment.settings.limits
  have agrees := Machine.enter_agrees room 1 call.callee call.arguments call.alone.state
  rcases agrees with overflows | same
  · exact absurd ((entered_goes orderly).overflows overflows) within.enters
  · exact congrArg (Machine.settle .script _) same

/-- Nor does it matter to its steps. -/
theorem stepSeeing_alone
    {alone machine : Machine}
    (carries : call.ground.Carries alone.state machine.state)
    (sameControl : machine.control = alone.control.raised call.ground.height)
    (stacked : call.Stacked alone.subRuns machine.subRuns)
    (steady : Steady alone)
    (within : ¬ machine.Overflows environment)
    (seen : State) :
    alone.stepSeeing environment seen =
      alone.stepSeeing (call.ground.environment environment) seen := by
  have aloneWithin : ¬ alone.Overflows (call.ground.environment environment) := by
    rintro ⟨lower, subRuns, isNext, overflows⟩
    rcases nextAction_goes carries sameControl stacked steady isNext with
      ⟨upper, actualSubRuns, isActual, -, goes⟩
    exact within ⟨upper, actualSubRuns, isActual, goes.overflows overflows⟩
  have room :
      (call.ground.environment environment).settings.limits.AtMost environment.settings.limits :=
    call.ground.limits_atMost environment.settings.limits
  have stepped := Machine.step_of_larger_limits room aloneWithin
  unfold Machine.stepSeeing
  split
  · rfl
  · exact stepped

theorem stepSeeing_of_ignoresStack
    {machine : Machine}
    {first second : State}
    (sameHeap : first.heap = second.heap)
    (sameRegistry : first.registry = second.registry)
    (aside :
      ∀ caller next, machine.control = .host caller (.inspect next) → IgnoresStack next) :
    machine.stepSeeing environment first = machine.stepSeeing environment second := by
  unfold Machine.stepSeeing
  split
  · rename_i caller next isControl
    rw [aside caller next isControl first second sameHeap sameRegistry]
  · rfl

/-- Two calls go through the same machines of the call alone. -/
theorem lockstep
    {first second : OuterCall}
    (sameHeap : first.state.heap = second.state.heap)
    (sameRegistry : first.state.registry = second.state.registry)
    (sameCallee : first.callee = second.callee)
    (sameArguments : first.arguments = second.arguments)
    (orderly : first.state.Orderly)
    (firstWithin : first.StaysWithinLimits environment)
    (secondWithin : second.StaysWithinLimits environment)
    (aside : first.LooksAside environment)
    {machine : Machine}
    (reaches : first.Reaches environment machine) :
    ∃ alone other,
      second.Reaches environment other ∧
        first.Corresponds alone machine ∧
        second.Corresponds alone other := by
  have secondOrderly : second.state.Orderly :=
    orderly.of_same (congrArg Heap.functions sameHeap.symm) sameRegistry.symm
  have sameAlone : first.alone = second.alone := by
    unfold alone
    rw [sameHeap, sameRegistry, sameCallee, sameArguments]
  induction reaches with
  | entered =>
      refine ⟨_, _, .entered, corresponds_entered orderly, ?_⟩
      rw [← entered_alone orderly firstWithin, sameAlone, entered_alone secondOrderly secondWithin]
      exact corresponds_entered secondOrderly
  | step before lasts induction =>
      rename_i machine
      rcases induction with ⟨alone, other, reached, firstCorresponds, secondCorresponds⟩
      cases firstCorresponds with
      | returned carries isRelative isActual =>
          rw [isActual] at lasts
          exact absurd lasts (Nat.lt_irrefl _)
      | lasts carries control stacked steady =>
          cases secondCorresponds with
          | returned _ isRelative =>
              rw [isRelative] at steady
              cases steady
          | lasts otherCarries otherControl otherStacked _ =>
              have otherLasts : second.Lasts other := otherStacked.lasts
              have stepped :
                  first.Corresponds
                    (alone.stepSeeing (first.ground.environment environment) machine.state)
                    (machine.step environment) :=
                corresponds_step carries control stacked steady
              have otherStepped :
                  second.Corresponds
                    (alone.stepSeeing (second.ground.environment environment) other.state)
                    (other.step environment) :=
                corresponds_step otherCarries otherControl otherStacked steady
              rw [← stepSeeing_alone carries control stacked steady
                (firstWithin.runs machine before lasts)] at stepped
              rw [← stepSeeing_alone otherCarries otherControl otherStacked steady
                (secondWithin.runs other reached otherLasts)] at otherStepped
              have sameSeen :
                  alone.stepSeeing environment other.state =
                    alone.stepSeeing environment machine.state := by
                apply stepSeeing_of_ignoresStack
                · rw [carries.heap, otherCarries.heap]
                · rw [carries.registry, otherCarries.registry]
                · intro caller next isControl
                  refine aside machine before lasts (caller.raised first.ground.height) next ?_
                  rw [control, isControl]
                  rfl
              rw [sameSeen] at otherStepped
              exact ⟨_, _, .step reached otherLasts, stepped, otherStepped⟩

end OuterCall

/--
Calls with the same heap and modules that do not run into limits, on whatever stack
and frames: when the one has ended, both have returned with the same outcome, and
what they have written and left behind is the same.
-/
theorem call_ignores_what_lies_beneath
    {environment : Environment}
    {first second : OuterCall}
    (sameHeap : first.state.heap = second.state.heap)
    (sameRegistry : first.state.registry = second.state.registry)
    (sameCallee : first.callee = second.callee)
    (sameArguments : first.arguments = second.arguments)
    (orderly : first.state.Orderly)
    (firstWithin : first.StaysWithinLimits environment)
    (secondWithin : second.StaysWithinLimits environment)
    (aside : first.LooksAside environment)
    {machine : Machine}
    (reaches : first.Reaches environment machine)
    (ended : ¬ first.Lasts machine) :
    ∃ outcome final other texts,
      machine = first.returned outcome final ∧
        second.Returns environment outcome other ∧
        final.heap = other.heap ∧
        final.registry = other.registry ∧
        final.journal.texts = first.state.journal.texts ++ texts ∧
        other.journal.texts = second.state.journal.texts ++ texts := by
  rcases OuterCall.lockstep sameHeap sameRegistry sameCallee sameArguments orderly firstWithin
    secondWithin aside reaches with ⟨alone, other, reached, firstCorresponds, secondCorresponds⟩
  cases firstCorresponds with
  | lasts _ _ stacked => exact absurd stacked.lasts ended
  | @returned outcome carries isRelative isActual _ _ =>
      cases secondCorresponds with
      | lasts _ _ _ steady =>
          rw [isRelative] at steady
          cases steady
      | @returned otherOutcome otherCarries isOther isOtherActual _ _ =>
          have sameOutcome : outcome = otherOutcome := by
            rw [isRelative] at isOther
            injection congrArg Machine.control isOther
          subst sameOutcome
          rw [isOtherActual] at reached
          exact ⟨outcome, machine.state, other.state, alone.state.journal.texts, isActual, reached,
            carries.heap.trans otherCarries.heap.symm,
            carries.registry.trans otherCarries.registry.symm, carries.texts, otherCarries.texts⟩

theorem negatingFunction_isTyped : OuterCall.negatingFunction.IsTyped := by
  refine ⟨0, fun _ => True, ⟨[(.plain 1, .pushNull), (.plain 2, .negate), (.plain 2, .leave)],
    rfl, rfl, ?_⟩, fun _ member => absurd member Chunk.not_mem_constants_empty⟩
  intro shapeAt offset placed
  rcases placed with ⟨-, second, third, -⟩
  refine ⟨⟨by decide, .inr trivial, nofun, nofun, ?_⟩, ⟨by decide, .inr trivial, nofun, nofun, ?_⟩,
    ⟨by decide, .inr trivial, nofun, nofun, nofun⟩, trivial⟩
  · intro target member
    rw [List.mem_singleton.mp member]
    exact second
  · intro target member
    rw [List.mem_singleton.mp member]
    exact third

/-- An environment without routines. -/
def quietEnvironment : Environment where
  settings := {}
  host := Host.empty

/-- The state of a new engine to which a function has been added. -/
def negatingState : State :=
  { (Engine.create quietEnvironment).state with
    heap :=
      { (Engine.create quietEnvironment).state.heap with
        functions := #[OuterCall.negatingFunction] } }

/-- The function is called on nothing. -/
def plainCall : OuterCall :=
  .outermost negatingState (.function 0) []

/-- The function is called on values and a frame that were there before. -/
def groundedCall : OuterCall where
  state :=
    { negatingState with
      stack := #[.null, .bool true]
      frames :=
        #[{ function := OuterCall.negatingFunction, offset := 1, base := 0,
            initializer := false }] }
  around := [{ stackMark := 0, entryDepth := 0, awaiting := none }]
  callee := .function 0
  arguments := []
  awaiting := none

/-- The failure of the function. -/
def negationError : RuntimeError where
  fault := .operandNotNumber
  trace := [{ line := 0, function := "f", moduleName := "" }]

theorem negatingState_orderly : negatingState.Orderly := by
  refine ⟨?_, (Engine.orderly_create quietEnvironment).registry⟩
  intro function member
  rw [Array.mem_singleton.mp member]
  exact negatingFunction_isTyped

theorem plainCall_ended : ¬ plainCall.Lasts (plainCall.machineAt quietEnvironment 2) :=
  Nat.lt_irrefl 0

theorem plainCall_stays_within_limits : plainCall.StaysWithinLimits quietEnvironment where
  enters := nofun
  runs := by
    intro machine reaches lasts
    rcases reaches.lt_of_lasts lasts plainCall_ended with ⟨count, bound, rfl⟩
    match count, bound with
    | 0, _ | 1, _ =>
        rintro ⟨action, subRuns, isNext, overflows⟩
        cases isNext
        cases overflows

theorem groundedCall_stays_within_limits : groundedCall.StaysWithinLimits quietEnvironment where
  enters := nofun
  runs := by
    have ended : ¬ groundedCall.Lasts (groundedCall.machineAt quietEnvironment 2) :=
      Nat.lt_irrefl 1
    intro machine reaches lasts
    rcases reaches.lt_of_lasts lasts ended with ⟨count, bound, rfl⟩
    match count, bound with
    | 0, _ | 1, _ =>
        rintro ⟨action, subRuns, isNext, overflows⟩
        cases isNext
        cases overflows

/-- On values and a frame that were there before, the function fails as it does on nothing. -/
theorem groundedCall_fails_alike :
    ∃ final,
      groundedCall.Returns quietEnvironment (.error negationError) final := by
  have aside : plainCall.LooksAside quietEnvironment := by
    intro machine reaches lasts
    rcases reaches.lt_of_lasts lasts plainCall_ended with ⟨count, bound, rfl⟩
    match count, bound with
    | 0, _ | 1, _ =>
        intro caller next isControl
        cases isControl
  have reaches :
      plainCall.Reaches quietEnvironment (plainCall.machineAt quietEnvironment 2) :=
    OuterCall.reaches_iff_machineAt.mpr ⟨2, rfl, by decide⟩
  have sameHeap : plainCall.state.heap = groundedCall.state.heap := rfl
  rcases call_ignores_what_lies_beneath sameHeap rfl rfl rfl negatingState_orderly
      plainCall_stays_within_limits groundedCall_stays_within_limits aside reaches
      plainCall_ended with
    ⟨outcome, final, other, texts, isReturned, returns, -⟩
  have fails :
      (plainCall.machineAt quietEnvironment 2).control = .ended (.error negationError) := rfl
  rw [isReturned] at fails
  cases fails
  exact ⟨other, returns⟩

end ScriptEngine
