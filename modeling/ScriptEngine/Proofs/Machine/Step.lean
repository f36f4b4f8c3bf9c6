import ScriptEngine.Proofs.Machine.Execution

/-!
# Steps of the machine

`Action.step_ensures` puts the instructions together: where a function is ready,
its next instruction leads to a state in which the machine can go on.  From there
the invariant of the whole machine, `Machine.Sound`, is kept by every step: of
compiled functions, of host routines and of calls from outside.
-/

namespace ScriptEngine

namespace Action

open State

variable
  {environment : Environment}
  {state : State}
  {frame : Frame}
  {rest : List Frame}
  {subRuns : List SubRun}
  {shape : Shape}
  {offset : Nat}
  {instruction : Instruction}

/-- The values that an instruction takes are above those that it leaves. -/
theorem split_height (steps : frame.function.Steps offset shape instruction) :
    ∃ lower, shape.height = lower + instruction.takes :=
  ⟨shape.height - instruction.takes, by have takes := steps.takes; omega⟩

/-- The shape behind an instruction after which nothing is known about classes. -/
theorem shapeAt_plain
    {lower : Nat}
    (steps : frame.function.Steps offset shape instruction)
    (moved : frame.offset = offset + instruction.length)
    (heights : shape.height = lower + instruction.takes)
    (straight : instruction.isStraight = true)
    (plain : instruction.markAfter shape = .plain) :
    frame.function.ShapeAt frame.offset (.plain (lower + instruction.gives)) := by
  have next := shapeAt_next steps moved straight
  unfold Instruction.after at next
  rw [plain, heights, Nat.add_sub_cancel] at next
  exact next

/-- Every instruction of a well-typed function leads to a state in which the machine goes on. -/
theorem execute_ensures
    (behaves : environment.host.Behaves)
    (active : state.Active frame rest subRuns shape.height)
    (mark : state.MarkHolds frame.function shape.mark)
    (steps : frame.function.Steps offset shape instruction)
    (moved : frame.offset = offset + instruction.length) :
    (execute environment (entryDepthOf subRuns) instruction).Ensures state (Continues subRuns)
      (Aborts subRuns) := by
  rcases split_height steps with ⟨lower, heights⟩
  rcases steps.operands with ⟨slots, operands⟩
  have plain := shapeAt_plain steps moved heights
  have lowered := active
  rw [heights] at lowered
  cases instruction with
  | constant index | constantLong index =>
      exact constant_executes _ active mark (shapeAt_next steps moved rfl) operands
  | pushNull | pushTrue | pushFalse =>
      exact andProceed_ensures (push_continues lowered (plain rfl rfl) trivial)
  | pop => exact pop_executes lowered (plain rfl rfl)
  | getLocal slot => exact getLocal_executes active mark steps moved
  | setLocal slot => exact setLocal_executes active steps moved
  | getModule slot => exact getModule_executes _ active mark steps moved
  | setModule slot => exact setModule_executes active steps moved
  | defineModule slot => exact defineModule_executes active mark steps moved
  | equal => exact equal_executes _ lowered (plain rfl rfl)
  | greater | less | subtract | multiply | divide | modulo =>
      exact binaryNumeric_executes lowered (plain rfl rfl) fun _ _ => trivial
  | add => exact add_executes lowered (plain rfl rfl)
  | negateTruth => exact negateTruth_executes _ lowered (plain rfl rfl)
  | negate => exact negate_executes _ lowered (plain rfl rfl)
  | print => exact print_executes lowered (plain rfl rfl)
  | jump distance => exact jump_executes active steps moved
  | jumpIfFalse distance => exact jumpIfFalse_executes active steps moved
  | loop distance => exact loop_executes active steps moved
  | call argumentCount =>
      apply Ensures.bind
      apply peek_ensures lowered
      · show argumentCount.toNat < lower + (argumentCount.toNat + 1)
        omega
      · intro refers
        exact callValue_ensures behaves (lowered.calling (plain rfl rfl)) refers
  | invoke index argumentCount =>
      apply Ensures.bind
      apply name_ensures active operands
      intro name
      exact invoke_ensures behaves (lowered.calling (plain rfl rfl)) name
  | leave => exact leave_executes lowered
  | makeClass index => exact makeClass_executes _ active (shapeAt_next steps moved rfl) operands
  | method index =>
      have next := shapeAt_next steps moved rfl
      unfold Instruction.after at next
      rw [heights, Nat.add_sub_cancel] at next
      rw [steps.attaches rfl] at mark
      exact attach_executes lowered next operands mark
        (fun id name _ refers => active.sound.heap.setMethod id name refers) fun _ _ _ => rfl
  | staticMethod index =>
      have next := shapeAt_next steps moved rfl
      unfold Instruction.after at next
      rw [heights, Nat.add_sub_cancel] at next
      rw [steps.attaches rfl] at mark
      exact attach_executes lowered next operands mark
        (fun id name _ refers => active.sound.heap.setStatic id name refers) fun _ _ _ => rfl
  | getProperty index => exact getProperty_executes _ lowered (plain rfl rfl) operands
  | setProperty index => exact setProperty_executes lowered (plain rfl rfl) operands
  | getIndex => exact getIndex_executes _ lowered (plain rfl rfl)
  | setIndex => exact setIndex_executes _ lowered (plain rfl rfl)
  | importModule index => exact importModule_executes behaves lowered (plain rfl rfl) operands

/-- Reading an instruction moves the innermost frame behind it. -/
theorem fetch_ensures
    {success : Unit → State → Prop}
    {failure : Interruption → State → Prop}
    (active : state.Active frame rest subRuns shape.height)
    (steps : frame.function.Steps offset shape instruction)
    (holds :
      ∀ after,
        after.Active { frame with offset := offset + instruction.length } rest subRuns
          shape.height →
        after.stack = state.stack ∧ after.registry = state.registry →
          success () after) :
    (fetch offset instruction).Ensures state success failure := by
  unfold fetch
  split
  · rename_i index argumentCount
    rcases steps.operands with ⟨slots, operands⟩
    apply Ensures.bind
    apply moveTo_ensures active
    intro between named same
    apply Ensures.bind
    apply name_ensures named operands
    intro _
    apply moveTo_ensures named
    intro after moved unchanged
    apply holds after moved
    rw [unchanged.1, unchanged.2]
    exact same
  · apply moveTo_ensures active
    exact holds

theorem markHolds_of_same
    {after : State}
    {function : Function}
    {mark : Mark}
    (holds : state.MarkHolds function mark)
    (stack : after.stack = state.stack)
    (registry : after.registry = state.registry) :
    after.MarkHolds function mark := by
  unfold State.MarkHolds at holds ⊢
  rw [stack, registry]
  exact holds

/-- The next instruction leads to a state in which the machine goes on. -/
theorem step_ensures
    (behaves : environment.host.Behaves)
    (ready : state.Ready subRuns) :
    (step environment (entryDepthOf subRuns)).Ensures state (Continues subRuns)
      (Aborts subRuns) := by
  rcases ready with ⟨frame, rest, shape, active, shaped, mark⟩
  rcases shaped.steps with ⟨instruction, steps⟩
  unfold step
  extract_lets goOn
  -- The journal has no influence on what follows.
  have goesOn :
      ∀ journal,
        (goOn ()).Ensures { state with journal } (Continues subRuns) (Aborts subRuns) := by
    intro journal
    have begins := active.withJournal journal
    apply Ensures.bind
    apply frame_ensures begins
    rw [steps.decoded]
    apply Ensures.bind
    apply fetch_ensures begins steps
    intro after moved unchanged
    exact execute_ensures behaves moved (markHolds_of_same mark unchanged.1 unchanged.2) steps rfl
  split
  · apply Ensures.bind
    apply Ensures.change
    exact goesOn _
  · exact goesOn state.journal

end Action

/-! ## The invariant of the machine -/

/-- The invariant of a run, for every kind of next step. -/
def Machine.Sound (machine : Machine) : Prop :=
  match machine.control with
  | .script => machine.state.Ready machine.subRuns
  | .host call program =>
    ∃ held,
      machine.state.Sound held ∧
        machine.state.Waits machine.state.activeFrames machine.subRuns call.slot ∧
        call.slot < machine.state.stack.size ∧
        (∀ value, call.constructed = some value → value.Refers machine.state.known) ∧
        program.Behaves machine.state.known held
  | .ended outcome => machine.state.Sound [] ∧ OutcomeRefers machine.state.known outcome
  | .stuck => False

namespace Machine

open State

variable
  {environment : Environment}
  {state : State}
  {control : Control}
  {subRuns : List SubRun}

/-- The outcome of a call from outside is passed on to where it is awaited. -/
theorem sound_conclude
    {outcome : Except RuntimeError Value}
    (sound : state.Sound [])
    (refers : OutcomeRefers state.known outcome)
    (ends :
      Ends state.known state.registry.modules.size state.activeFrames subRuns state.stack.size) :
    (conclude { state, control, subRuns } outcome).Sound := by
  cases subRuns with
  | nil => cases ends
  | cons subRun outer =>
      rcases subRun with ⟨stackMark, entryDepth, awaiting⟩
      generalize size : state.stack.size = mark at ends
      cases ends with
      | outermost isNone =>
          cases isNone
          exact ⟨sound, refers⟩
      | nested isSome order constructed behaves below =>
          cases isSome
          refine ⟨[], sound, below, ?_, constructed, behaves _ outcome (Nat.le_refl _) refers⟩
          show _ < state.stack.size
          rw [size]
          exact order

theorem reverse_shrink
    {items : Array α}
    {above below : List α}
    (split : items.toList.reverse = above ++ below) :
    (items.shrink below.length).toList.reverse = below := by
  have whole := congrArg List.reverse split
  rw [List.reverse_reverse, List.reverse_append] at whole
  rw [Array.toList_shrink, whole, ← List.length_reverse, List.take_left', List.reverse_reverse]
  rfl

/-- A fault cuts stack and frames back to where the call from outside began. -/
theorem sound_raise
    {fault : Fault}
    (aborts : Aborts subRuns (.fault fault) state) :
    (raise { state, control, subRuns } fault).Sound := by
  have sound := aborts.sound
  rcases aborts.unwinds with ⟨above, frames, slot, split, bound, below⟩
  rcases below.unwind with ⟨inner, outer, mark, rfl, depth, markBound, ends⟩
  rw [← List.append_assoc] at split
  cases subRuns with
  | nil => cases ends
  | cons subRun others =>
      have isMark : mark = subRun.stackMark := by
        cases ends <;> rfl
      subst isMark
      change outer.length = subRun.entryDepth at depth
      have cutFrames : (state.frames.shrink subRun.entryDepth).toList.reverse = outer := by
        rw [← depth]
        exact reverse_shrink split
      have cutStack : (state.stack.shrink subRun.stackMark).size = subRun.stackMark := by
        rw [Array.size_shrink]
        omega
      apply sound_conclude
      · exact ⟨fun value member => sound.stack value (mem_of_mem_shrink member), sound.heap,
          sound.functions, sound.registry⟩
      · exact nofun
      · simp only [activeFrames, cutFrames, cutStack]
        exact ends

/-- The innermost function belongs to the innermost call from outside. -/
theorem entryDepth_lt_of_ready (ready : state.Ready subRuns) :
    entryDepthOf subRuns < state.frames.size := by
  rcases ready with ⟨frame, rest, shape, active, -, -⟩
  have depth := active.below.cases_depth.1
  have count : state.activeFrames.length = state.frames.size := by
    simp
  rw [active.frames, List.length_cons] at count
  omega

theorem entryDepth_eq (machine : Machine) :
    machine.entryDepth = entryDepthOf machine.subRuns := by
  unfold Machine.entryDepth
  split <;> rename_i same <;> rw [same] <;> rfl

/-- A result on the stack that nobody inside the call waits for is there to be taken. -/
theorem sound_resume
    (continues : Continues subRuns .proceed state) :
    (resume { state, control, subRuns }).Sound := by
  unfold resume
  rw [entryDepth_eq]
  split
  · rename_i deeper
    rcases continues with ready | ⟨slot, returned⟩
    · exact ready
    · exact returned.ready deeper
  · rename_i ended
    rcases continues with ready | ⟨slot, returned⟩
    · exact absurd (entryDepth_lt_of_ready ready) ended
    · have size := returned.height
      have last : ∃ value, state.stack.back? = some value := by
        rw [Array.back?_eq_getElem?, Array.getElem?_eq_getElem (by omega)]
        exact ⟨_, rfl⟩
      rcases last with ⟨value, last⟩
      simp only [Action.pop, last]
      apply sound_conclude
      · apply returned.sound.withStack
        intro other member
        exact returned.sound.stack other (mem_of_mem_pop member)
      · rintro _ ⟨⟩
        exact returned.sound.stack value (Array.mem_of_back? last)
      · have ends := returned.below.cases_depth.2 (by simpa using Nat.le_of_not_lt ended)
        simp only [Array.size_pop, size, Nat.add_sub_cancel]
        exact ends

/-- The machine goes on after an action. -/
theorem sound_settle
    {action : Action Transition}
    (ensures : action.Ensures state (Continues subRuns) (Aborts subRuns)) :
    (settle control subRuns (action state)).Sound := by
  unfold Action.Ensures at ensures
  rcases outcome : action state with ⟨interruption | transition, after⟩
  · rw [outcome] at ensures
    rcases ensures.fault with ⟨fault, rfl, -⟩
    exact sound_raise ensures
  · rw [outcome] at ensures
    cases transition with
    | proceed => exact sound_resume ensures
    | enterHost call program => exact ⟨[], ensures⟩
    | finished value =>
        rcases ensures with ⟨sound, refers, ends⟩
        apply sound_conclude sound _ ends
        rintro _ ⟨⟩
        exact refers

/-! ## Calls from outside -/

/-- The arguments of a call are pushed above a slot. -/
theorem pushAll_ensures
    {slot : Nat}
    {success : Unit → State → Prop}
    (values : List Value)
    (sound : state.Sound [])
    (below : state.Waits state.activeFrames subRuns slot)
    (bound : slot ≤ state.stack.size)
    (refer : ∀ value ∈ values, value.Refers state.known)
    (holds :
      ∀ after : State,
        after.Sound [] →
        after.Waits after.activeFrames subRuns slot →
        after.stack.size = state.stack.size + values.length →
        after.known = state.known →
          success () after) :
    (pushAll environment values).Ensures state success (Aborts subRuns) := by
  induction values generalizing state with
  | nil => exact holds state sound below rfl rfl
  | cons value rest induction =>
      unfold pushAll
      apply Action.Ensures.bind
      apply Action.Ensures.push
      · apply induction (sound.withStack
          (forall_mem_push sound.stack (refer value List.mem_cons_self)))
          below
        · simp only [Array.size_push]
          omega
        · exact fun other member => refer other (List.mem_cons_of_mem value member)
        · intro after afterSound afterBelow size same
          apply holds after afterSound afterBelow _ same
          rw [size, Array.size_push, List.length_cons]
          omega
      · exact aborts_of_waits sound below bound rfl

/-- A call from outside enters its callee, unless it runs into a limit. -/
theorem enter_ensures
    (behaves : environment.host.Behaves)
    {callee : Value}
    {arguments : List Value}
    (sound : state.Sound [])
    (below : state.Waits state.activeFrames subRuns state.stack.size)
    (calleeRefers : callee.Refers state.known)
    (argumentsRefer : ∀ argument ∈ arguments, argument.Refers state.known)
    (depth : Nat) :
    (enter environment depth callee arguments).Ensures state (Continues subRuns)
      (Aborts subRuns) := by
  have aborts : ∀ fault, fault.isInternal = false → Aborts subRuns (.fault fault) state :=
    fun _ => aborts_of_waits sound below (Nat.le_refl _)
  unfold enter
  simp only
  split
  · exact .bind (.raise (aborts _ rfl))
  · split
    · exact .bind (.raise (aborts _ rfl))
    · apply Action.Ensures.bind
      apply Action.Ensures.push
      · apply Action.Ensures.bind
        apply pushAll_ensures arguments
          (sound.withStack (forall_mem_push sound.stack calleeRefers)) below
        · simp
        · exact argumentsRefer
        · intro after afterSound afterBelow size same
          have calling : after.Calling subRuns state.stack.size arguments.length := by
            refine ⟨afterSound, afterBelow, ?_⟩
            rw [size, Array.size_push]
            omega
          apply Action.callValue_ensures behaves calling
          rw [same]
          exact calleeRefers
      · exact aborts _ rfl

/-- The outermost call from outside begins well in any sound state. -/
theorem sound_start_outermost
    (behaves : environment.host.Behaves)
    {callee : Value}
    {arguments : List Value}
    (sound : state.Sound [])
    (calleeRefers : callee.Refers state.known)
    (argumentsRefer : ∀ argument ∈ arguments, argument.Refers state.known) :
    (start environment state [] callee arguments none).Sound := by
  apply sound_settle
  apply enter_ensures behaves sound _ calleeRefers argumentsRefer
  apply Below.outermost rfl rfl
  simp

/-- The action of the next step and the calls from outside during it, unless a host
routine works for itself. -/
def nextAction? (environment : Environment) (machine : Machine) :
    Option (Action Transition × List SubRun) :=
  match machine with
  | { control := .script, subRuns, .. } =>
    some (Action.step environment (entryDepthOf subRuns), subRuns)
  | { control := .host call (.finish value), subRuns, .. } =>
    some (do Action.completeHostCall environment call value; return .proceed, subRuns)
  | { state, control := .host call (.call callee arguments next), subRuns } =>
    some (enter environment (subRuns.length + 1) callee arguments,
      { stackMark := state.stack.size, entryDepth := state.frames.size,
        awaiting := some (call, next) } :: subRuns)
  | _ => none

/-- A step carries the action out and goes on from there. -/
theorem step_eq_settle
    {environment : Environment}
    {machine : Machine}
    {action : Action Transition}
    {subRuns : List SubRun}
    (isNext : machine.nextAction? environment = some (action, subRuns)) :
    machine.step environment = settle .script subRuns (action machine.state) := by
  unfold nextAction? at isNext
  split at isNext <;> cases isNext <;> rfl

/-- The action of the next step leads to a state in which the machine goes on. -/
theorem nextAction_ensures
    (behaves : environment.host.Behaves)
    {machine : Machine}
    (sound : machine.Sound)
    {action : Action Transition}
    {subRuns : List SubRun}
    (isNext : machine.nextAction? environment = some (action, subRuns)) :
    action.Ensures machine.state (Continues subRuns) (Aborts subRuns) := by
  unfold nextAction? at isNext
  split at isNext <;> cases isNext
  · exact Action.step_ensures behaves sound
  · rcases sound with ⟨held, stateSound, below, inside, constructed, rfl, refers⟩
    apply Action.Ensures.bind
    apply (Action.completeHostCall_ensures stateSound below inside constructed refers).mono
    intro _ after returned
    exact .pure (.inr ⟨_, returned⟩)
  · rcases sound with
      ⟨held, stateSound, below, inside, constructed, rfl, calleeRefers, argumentsRefer, goesOn⟩
    apply enter_ensures behaves stateSound _ calleeRefers argumentsRefer
    apply Below.nested rfl rfl _ inside constructed goesOn below
    simp

/-- Every step keeps the invariant. -/
theorem sound_step
    (behaves : environment.host.Behaves)
    {machine : Machine}
    (sound : machine.Sound) :
    (machine.step environment).Sound := by
  rcases isNext : machine.nextAction? environment with _ | ⟨action, subRuns⟩
  · rcases machine with ⟨state, control, subRuns⟩
    cases control with
    | script => cases isNext
    | host call program =>
        rcases sound with ⟨held, stateSound, below, inside, constructed, programBehaves⟩
        cases program with
        | finish value => cases isNext
        | call callee arguments next => cases isNext
        | fail message =>
            cases programBehaves
            exact sound_raise (aborts_of_waits stateSound below (Nat.le_of_lt inside) rfl)
        | inspect next =>
            exact ⟨held, stateSound, below, inside, constructed,
              programBehaves state rfl stateSound⟩
        | perform request next =>
            rcases programBehaves with ⟨refers, goesOn⟩
            have performed := HostRequest.performed stateSound refers
            show Machine.Sound
              { state := (request.perform state).2,
                control := .host call (next (request.perform state).1), subRuns }
            refine ⟨_, performed.sound, ?_, ?_, ?_, ?_⟩
            · simp only [activeFrames, performed.frames]
              exact below.mono performed.extended.functions performed.extended.modules
            · simp only [performed.stack]
              exact inside
            · exact fun value isValue =>
                (constructed value isValue).mono performed.extended.functions
            · exact goesOn _ _ performed.extended.functions performed.answer
    | ended outcome => exact sound
    | stuck => cases sound
  · rw [step_eq_settle isNext]
    exact sound_settle (nextAction_ensures behaves sound isNext)

end Machine

end ScriptEngine
