import ScriptEngine.Proofs.Compiler.Joining
import ScriptEngine.Proofs.Machine.Inside

/-!
# Functions and routines that yield a known value

A function that a constructor runs yields the value in slot zero, and so does one whose code
returns it (`Activation.Yields`).  The routine of a host that initialises an instance yields
the instance.  Whatever is called meanwhile, the value stays bound to the function or the
routine until it returns: it goes on, or it hands the value to whoever has called it, or a
fault ends the call from outside in which it was called (`Site.Runs.step`,
`Site.Hosts.step`).
-/

namespace ScriptEngine

/-- The result of a routine that initialises an instance is the instance. -/
theorem Action.completeHostCall_cases
    (environment : Environment)
    {routine : HostCall}
    {created : Value}
    (constructs : routine.constructed = some created)
    (value : Value)
    (state : State) :
    (∃ after,
        completeHostCall environment routine value state = (.ok (), after) ∧
          after.frames = state.frames ∧
          after.heap = state.heap ∧
          after.stack.back? = some created) ∨
      ∃ after,
        completeHostCall environment routine value state =
          (.error (.fault .stackOverflow), after) := by
  let cut : State := { state with stack := state.stack.shrink routine.slot }
  have cuts : cutStack routine.slot state = (.ok (), cut) := rfl
  unfold completeHostCall
  rw [bind_of_ok cuts]
  rcases push_cases environment.settings.limits value cut with pushed | full
  · rw [bind_of_ok pushed, constructs]
    refine .inl ⟨_, rfl, rfl, rfl, ?_⟩
    show ((cut.stack.push value).setIfInBounds ((cut.stack.push value).size - 1) created).back? = _
    rw [Array.back?_eq_getElem?, Array.size_setIfInBounds]
    exact Array.getElem?_setIfInBounds_self_of_lt (by rw [Array.size_push]; omega)
  · rw [bind_of_error full]
    exact .inr ⟨cut, rfl⟩

/-! ## Whoever has made a call -/

/-- Where a call has been made: inside some calls from outside and on a number of frames. -/
structure Site where
  around : List SubRun
  depth : Nat
  within : entryDepthOf around ≤ depth

namespace Site

/--
A value is handed to whoever has made the call.  It is on top of the stack of the function
that goes on, or the call from outside ends with it.
-/
inductive Delivers (site : Site) (value : Value) : Machine → Prop where
  | inside
      (state : State)
      (deeper : entryDepthOf site.around < site.depth)
      (size : state.frames.size = site.depth)
      (top : state.stack.back? = some value) :
      Delivers site value { state, control := .script, subRuns := site.around }
  | outside
      (state : State)
      (last : site.depth = entryDepthOf site.around) :
      Delivers site value
        (Machine.conclude { state, control := .script, subRuns := site.around } (.ok value))

/-- What something that yields a value leads to when it does not go on. -/
inductive Ends (site : Site) (value : Value) (closes : Prop) (next : Machine) : Prop where
  | delivers (closes : closes) (delivers : site.Delivers value next)
  | fails (fails : next.FailsIn site.around)
  | stuck (isStuck : next.control = .stuck)

variable {site : Site} {value : Value}

/-- An action has been carried out whose result is a value for whoever has made the call. -/
theorem ends_of_resume
    {state : State}
    (size : state.frames.size = site.depth)
    (top : state.stack.back? = some value) :
    site.Delivers value
      (Machine.resume { state, control := .script, subRuns := site.around }) := by
  unfold Machine.resume
  simp only [Machine.entryDepth_eq]
  by_cases deeper : entryDepthOf site.around < state.frames.size
  · rw [if_pos deeper]
    exact .inside state (size ▸ deeper) size top
  · rw [if_neg deeper]
    simp only [Action.pop, top]
    refine .outside _ (Nat.le_antisymm ?_ site.within)
    exact size ▸ Nat.le_of_not_lt deeper

end Site

/-! ## Functions -/

/-- A function that has been entered, and the value in slot zero. -/
structure Activation where
  function : Function
  base : Nat
  initializer : Bool
  receiver : Value

namespace Activation

/-- The frame of the function when it stands at an offset. -/
def frame (activation : Activation) (offset : Nat) : Frame where
  function := activation.function
  offset := offset
  base := activation.base
  initializer := activation.initializer

/-- The function yields its receiver: a constructor runs it, or its code returns slot zero. -/
def Yields (activation : Activation) : Prop :=
  activation.initializer = true ∨ activation.function.YieldsReceiver

/--
How the function has come to an offset.  If the last instruction was the one that pushes slot
zero, the receiver is on top of the stack.
-/
inductive Arrived (activation : Activation) (depth : Nat) (machine : Machine) : Nat → Prop where
  | beginning : Arrived activation depth machine 0
  | behind
      {before offset : Nat}
      {instruction : Instruction}
      (boundary : Boundary activation.function.chunk.code before)
      (decoded :
        Instruction.decode activation.function.chunk.code before = .complete instruction)
      (successor : offset ∈ instruction.successors before)
      (pushed :
        instruction = .getLocal 0 →
          machine.control = .script ∧
            machine.state.frames.size = depth + 1 ∧
            machine.state.stack.back? = some activation.receiver) :
      Arrived activation depth machine offset

variable {activation : Activation} {machine : Machine} {depth offset : Nat}

/-- While something else goes on, the function stands where it stood. -/
theorem Arrived.later
    (arrived : activation.Arrived depth machine offset)
    (waits : machine.control = .script → depth + 1 < machine.state.frames.size)
    (next : Machine) :
    activation.Arrived depth next offset := by
  cases arrived with
  | beginning => exact .beginning
  | behind boundary decoded successor pushed =>
      refine .behind boundary decoded successor fun isReceiver => ?_
      rcases pushed isReceiver with ⟨isScript, size, -⟩
      exact absurd size (Nat.ne_of_gt (waits isScript))

/-- What the function gives when it returns is its receiver. -/
theorem gives_receiver
    (yields : activation.Yields)
    (arrived : activation.Arrived depth machine offset)
    (returns :
      Instruction.decode activation.function.chunk.code offset = .complete .leave)
    (receiver : machine.state.stack[activation.base]? = some activation.receiver)
    (room : activation.base + 1 < machine.state.stack.size)
    {outcome : Value}
    (top : machine.state.stack.back? = some outcome) :
    (activation.frame (offset + 1)).gives machine.state.stack outcome = activation.receiver := by
  unfold Frame.gives
  by_cases initializer : activation.initializer = true
  · have kept : machine.state.stack.pop[activation.base]? = some activation.receiver := by
      rw [Array.getElem?_pop, if_pos (by omega)]
      exact receiver
    show (if activation.initializer then
      machine.state.stack.pop.getD activation.base outcome else outcome) = _
    rw [if_pos initializer, Array.getD_eq_getD_getElem?, kept]
    rfl
  · show (if activation.initializer then
      machine.state.stack.pop.getD activation.base outcome else outcome) = _
    rw [if_neg initializer]
    have code := yields.resolve_left initializer
    cases arrived with
    | beginning => exact absurd returns code.begins
    | behind boundary decoded successor pushed =>
        rcases pushed (code.before boundary decoded successor returns) with ⟨-, -, isReceiver⟩
        exact Option.some.inj (top.symm.trans isReceiver)

end Activation

namespace Site

open Machine

/--
A function that has been entered at a site is active, with its receiver in slot zero, and
what else has been begun stands above it.
-/
structure Runs (site : Site) (activation : Activation) (inner : List SubRun)
    (machine : Machine) : Prop where
  inside : machine.Inside inner site.around (site.depth + 1) (activation.base + 1)
  receiver : machine.state.stack[activation.base]? = some activation.receiver
  frame :
    ∃ offset,
      machine.state.frames[site.depth]? = some (activation.frame offset) ∧
        activation.Arrived site.depth machine offset

/-- A function is about to return to the site at which it was entered. -/
def Closes (site : Site) (activation : Activation) (machine : Machine) : Prop :=
  machine.subRuns = site.around ∧
    machine.state.frames.size = site.depth + 1 ∧
    ∃ offset, machine.Executes (activation.frame offset) .leave

/-- When the function that has been entered at a site goes on, nothing else has been begun. -/
theorem alone
    (site : Site)
    {environment : Environment}
    {call : OuterCall}
    {machine : Machine}
    {inner : List SubRun}
    {level : Nat}
    (reaches : call.Reaches environment machine)
    (inside : machine.Inside inner site.around (site.depth + 1) level)
    (isScript : machine.control = .script)
    (size : machine.state.frames.size = site.depth + 1) :
    inner = [] ∧ machine.subRuns = site.around := by
  have deeper := reaches.inFrame isScript
  rw [entryDepth_eq, inside.subRuns, size] at deeper
  rw [inside.subRuns]
  cases inner with
  | nil => exact ⟨rfl, rfl⟩
  | cons subRun rest =>
      have stands := (inside.nested subRun List.mem_cons_self).depth
      exact absurd deeper (Nat.not_lt.mpr stands)

section Runs

variable
  {environment : Environment}
  {call : OuterCall}
  {machine : Machine}
  {site : Site}
  {activation : Activation}
  {inner : List SubRun}
  (orderly : call.state.Orderly)
  (reaches : call.Reaches environment machine)
  (lasts : call.Lasts machine)
  (runs : site.Runs activation inner machine)

include orderly reaches lasts runs

omit orderly lasts in
/-- When the function itself goes on, nothing else has been begun. -/
theorem Runs.alone
    (isScript : machine.control = .script)
    (size : machine.state.frames.size = site.depth + 1) :
    inner = [] ∧ machine.subRuns = site.around :=
  site.alone reaches runs.inside isScript size

omit reaches orderly lasts in
theorem Runs.eq_frame
    (size : machine.state.frames.size = site.depth + 1)
    {frame : Frame}
    (innermost : machine.state.frames.back? = some frame) :
    ∃ offset,
      frame = activation.frame offset ∧ activation.Arrived site.depth machine offset := by
  rcases runs.frame with ⟨offset, here, arrived⟩
  rw [Array.back?_eq_getElem?, size, Nat.add_sub_cancel, here] at innermost
  exact ⟨offset, (Option.some.inj innermost).symm, arrived⟩

/-- The function returns its receiver. -/
theorem Runs.leave
    (yields : activation.Yields)
    (size : machine.state.frames.size = site.depth + 1)
    {frame : Frame}
    (executes : machine.Executes frame .leave) :
    site.Ends activation.receiver (site.Closes activation machine) (machine.step environment) := by
  have outer := (runs.alone reaches executes.control size).2
  rcases runs.eq_frame size executes.innermost with ⟨offset, rfl, arrived⟩
  rcases reaches.steps orderly lasts executes with ⟨shape, -, steps, height⟩
  have takes : 1 < shape.height := steps.takes
  have room : activation.base + 1 < machine.state.stack.size := by
    change _ = activation.base + _ at height
    omega
  have top :
      machine.state.stack.back? = some machine.state.stack[machine.state.stack.size - 1] := by
    rw [Array.back?_eq_getElem?, Array.getElem?_eq_getElem]
  have gives := activation.gives_receiver yields arrived executes.decoded runs.receiver room top
  have innermost :
      (machine.state.fetched environment (activation.frame offset) .leave).frames.back? =
        some (activation.frame (offset + 1)) :=
    State.back?_fetched executes.innermost
  have fewer :
      (machine.state.fetched environment (activation.frame offset) .leave).frames.pop.size =
        site.depth := by
    rw [Array.size_pop, State.size_frames_fetched, size, Nat.add_sub_cancel]
  have closes : site.Closes activation machine := ⟨outer, size, offset, executes⟩
  rw [executes.step_eq nofun, entryDepth_eq, outer]
  show site.Ends _ _ (settle .script site.around (Action.leave environment _ _))
  rw [Action.leave_eq innermost (by rw [State.stack_fetched]; exact top), State.stack_fetched,
    gives]
  by_cases ends :
      (machine.state.fetched environment (activation.frame offset) .leave).frames.pop.size ≤
        entryDepthOf site.around
  · rw [if_pos ends]
    exact .delivers closes (.outside _ (Nat.le_antisymm (fewer ▸ ends) site.within))
  · rw [if_neg ends]
    generalize isAfter : State.mk _ _ _ _ _ = after
    have size : after.frames.size = site.depth := by
      rw [← isAfter]
      exact fewer
    rcases Action.push_cases environment.settings.limits activation.receiver after with
      pushed | full
    · rw [Action.bind_of_ok pushed]
      exact .delivers closes (ends_of_resume size Array.back?_push)
    · rw [Action.bind_of_error full]
      exact .fails (.raise _ _ _)

omit orderly lasts in
/-- The function pushes its receiver. -/
theorem Runs.getLocal
    (size : machine.state.frames.size = site.depth + 1)
    {frame : Frame}
    (executes : machine.Executes frame (.getLocal 0)) :
    (machine.step environment).FailsIn site.around ∨
      (machine.step environment).control = .script ∧
        (machine.step environment).state.frames.size = site.depth + 1 ∧
        (machine.step environment).state.stack.back? = some activation.receiver := by
  have outer := (runs.alone reaches executes.control size).2
  rcases runs.eq_frame size executes.innermost with ⟨offset, rfl, -⟩
  have innermost :
      (machine.state.fetched environment (activation.frame offset) (.getLocal 0)).frames.back? =
        some _ :=
    State.back?_fetched executes.innermost
  have frames :
      (machine.state.fetched environment (activation.frame offset) (.getLocal 0)).frames.size =
        machine.state.frames.size :=
    State.size_frames_fetched
  have receiver :
      (machine.state.fetched environment (activation.frame offset) (.getLocal 0)).stack[
        activation.base + 0]? = some activation.receiver := by
    rw [State.stack_fetched]
    exact runs.receiver
  rw [executes.step_eq nofun, entryDepth_eq, outer]
  generalize machine.state.fetched environment (activation.frame offset) (.getLocal 0) =
    fetched at *
  have reads :
      Action.execute environment (entryDepthOf site.around) (.getLocal 0) fetched =
        (do
          Action.push environment.settings.limits activation.receiver
          return .proceed : Action Transition) fetched := by
    show Action.andProceed (Action.getLocal environment 0) fetched = _
    unfold Action.andProceed Action.getLocal Action.frame
    rw [bind_assoc, Action.look_bind, innermost, Option.getD_some]
    show ((Action.look fun state => state.stack[activation.base + 0]?) >>= _ >>= _) fetched = _
    rw [bind_assoc, Action.look_bind, receiver]
  rw [reads]
  rcases Action.push_cases environment.settings.limits activation.receiver fetched with
    pushed | full
  · rw [Action.bind_of_ok pushed]
    have deeper : entryDepthOf site.around < fetched.frames.size := by
      have within := site.within
      omega
    have goesOn :
        settle .script site.around
            (.ok .proceed, { fetched with stack := fetched.stack.push activation.receiver }) =
          { state := { fetched with stack := fetched.stack.push activation.receiver },
            control := .script, subRuns := site.around } :=
      resume_of_deeper deeper
    exact .inr (goesOn ▸ ⟨rfl, frames.trans size, Array.back?_push⟩)
  · rw [Action.bind_of_error full]
    exact .inl (.raise _ _ _)

include orderly lasts

/-- The function goes on with another instruction. -/
theorem Runs.execute
    (size : machine.state.frames.size = site.depth + 1)
    {frame : Frame}
    {instruction : Instruction}
    (executes : machine.Executes frame instruction)
    (stays : instruction ≠ .leave) :
    (∃ remaining, site.Runs activation remaining (machine.step environment)) ∨
      (machine.step environment).FailsIn site.around ∨
      (machine.step environment).control = .stuck := by
  rcases runs.alone reaches executes.control size with ⟨rfl, outer⟩
  rcases runs.eq_frame size executes.innermost with ⟨offset, rfl, arrived⟩
  rcases reaches.steps orderly lasts executes with ⟨shape, shaped, steps, -⟩
  have innermost :
      (machine.state.fetched environment (activation.frame offset) instruction).frames.back? =
        some _ :=
    State.back?_fetched executes.innermost
  rcases Action.execute_entered environment machine.entryDepth innermost rfl stays
    steps.backward with ⟨target, successor, entered⟩
  cases OuterCall.execute_inside orderly reaches lasts runs.inside
    (fun _ => Nat.lt_succ_of_le site.within) executes (Nat.le_refl _) stays entered with
  | stuck isStuck => exact .inr (.inr isStuck)
  | fails _ fails => exact .inr (.inl fails)
  | @goesOn remaining _ inside keeps =>
      have moved :
          (machine.step environment).state.frames[site.depth]? =
            some (activation.frame target) := by
        have last := State.back?_moveTo innermost target
        rw [Array.back?_eq_getElem?] at last
        have here : site.depth = (Action.moveTo target
            (machine.state.fetched environment (activation.frame offset)
              instruction)).2.frames.size - 1 := by
          show _ = (Array.modify _ _ _).size - 1
          rw [Array.size_modify, State.size_frames_fetched, size, Nat.add_sub_cancel]
        rw [keeps.frames _ (Nat.lt_succ_self _), here]
        exact last
      have receiver :
          (machine.step environment).state.stack[activation.base]? = some activation.receiver := by
        refine (keeps.stack _ (Nat.lt_succ_self _)).trans ?_
        show (machine.state.fetched environment (activation.frame offset) instruction).stack[_]? = _
        rw [State.stack_fetched]
        exact runs.receiver
      by_cases isReceiver : instruction = .getLocal 0
      · subst isReceiver
        rcases runs.getLocal reaches size executes with fails | pushed
        · exact .inr (.inl fails)
        · exact .inl ⟨remaining, inside, receiver, target, moved,
            .behind shaped.boundary executes.decoded successor fun _ => pushed⟩
      · exact .inl ⟨remaining, inside, receiver, target, moved,
          .behind shaped.boundary executes.decoded successor fun same => absurd same isReceiver⟩

/-- The function goes on, or it returns its receiver, or it is cut off. -/
theorem Runs.step (yields : activation.Yields) :
    (∃ remaining, site.Runs activation remaining (machine.step environment)) ∨
      site.Ends activation.receiver (site.Closes activation machine)
        (machine.step environment) := by
  by_cases own : machine.control = .script ∧ machine.state.frames.size = site.depth + 1
  · rcases own with ⟨isScript, size⟩
    rcases reaches.executes orderly lasts isScript with
      ⟨stops, -⟩ | ⟨frame, instruction, executes, -, -⟩
    · exact .inr (.stuck stops)
    · by_cases returns : instruction = .leave
      · subst returns
        exact .inr (runs.leave orderly reaches lasts yields size executes)
      · rcases runs.execute orderly reaches lasts size executes returns with goesOn | fails | stops
        · exact .inl goesOn
        · exact .inr (.fails fails)
        · exact .inr (.stuck stops)
  · have waits : machine.control = .script → site.depth + 1 < machine.state.frames.size :=
      fun isScript =>
        Nat.lt_of_le_of_ne runs.inside.state.size fun size => own ⟨isScript, size.symm⟩
    cases OuterCall.step_inside orderly reaches lasts runs.inside
      (fun _ => Nat.lt_succ_of_le site.within) waits with
    | stuck isStuck => exact .inr (.stuck isStuck)
    | fails _ fails => exact .inr (.fails fails)
    | @goesOn remaining _ inside keeps =>
        rcases runs.frame with ⟨offset, here, arrived⟩
        refine .inl ⟨remaining, inside, ?_, offset, ?_, arrived.later waits _⟩
        · exact (keeps.stack _ (Nat.lt_succ_self _)).trans runs.receiver
        · exact (keeps.frames _ (Nat.lt_succ_self _)).trans here

end Runs

/-! ## Host routines -/

/--
A routine of the host that has been called at a site goes on, or it waits for the outcome of
a call that it has made.
-/
structure Hosts (site : Site) (routine : HostCall) (inner : List SubRun)
    (machine : Machine) : Prop where
  inside : machine.Inside inner site.around site.depth routine.slot
  awaited :
    (inner = [] ∧
        machine.state.frames.size = site.depth ∧
        ∃ program, machine.control = .host routine program) ∨
      ∃ others outermost program,
        inner = others ++ [outermost] ∧
          outermost.entryDepth = site.depth ∧
          outermost.awaiting = some (routine, program)

/-- A routine is about to end. -/
def Finishes (site : Site) (routine : HostCall) (machine : Machine) : Prop :=
  machine.subRuns = site.around ∧ ∃ value, machine.control = .host routine (.finish value)

section Hosts

variable
  {environment : Environment}
  {call : OuterCall}
  {machine : Machine}
  {site : Site}
  {routine : HostCall}
  {inner : List SubRun}

/-- While scripts go on, the routine waits for functions above it. -/
theorem Hosts.occupied
    (hosts : site.Hosts routine inner machine)
    (reaches : call.Reaches environment machine)
    (isScript : machine.control = .script) :
    site.depth < machine.state.frames.size := by
  have deeper := reaches.inFrame isScript
  rw [entryDepth_eq, hosts.inside.subRuns] at deeper
  refine Nat.lt_of_le_of_lt ?_ deeper
  cases inner with
  | cons subRun rest => exact (hosts.inside.nested subRun List.mem_cons_self).depth
  | nil =>
      rcases hosts.awaited with ⟨-, -, program, isHost⟩ | ⟨others, outermost, program, split, -⟩
      · cases isHost.symm.trans isScript
      · exact absurd split.symm (List.append_ne_nil_of_right_ne_nil _ nofun)

/-- What waits for the outermost nested call is the routine. -/
theorem Hosts.of_stepsInside
    (others : List SubRun)
    {outermost : SubRun}
    {before : State}
    {next : Machine}
    {program : Except RuntimeError Value → HostProgram}
    (depth : outermost.entryDepth = site.depth)
    (awaiting : outermost.awaiting = some (routine, program))
    (steps :
      StepsInside (others ++ [outermost]) site.around site.depth routine.slot before next) :
    (∃ remaining, site.Hosts routine remaining next) ∨ next.control = .stuck := by
  cases steps with
  | stuck isStuck => exact .inr isStuck
  | fails isOutermost => exact absurd isOutermost (List.append_ne_nil_of_right_ne_nil _ nofun)
  | @goesOn remaining renested inside keeps =>
      refine .inl ⟨remaining, inside, ?_⟩
      rcases renested others outermost rfl with
        ⟨left, isLeft⟩ | ⟨isEmpty, size, caller, told, outcome, isAwaiting, isHost⟩
      · exact .inr ⟨left, outermost, program, isLeft, depth, awaiting⟩
      · cases awaiting.symm.trans isAwaiting
        exact .inl ⟨isEmpty, Nat.le_antisymm (depth ▸ size) inside.state.size, _, isHost⟩

/-- An initialiser of the host ends, and its result is the instance. -/
theorem Hosts.finish
    {state : State}
    {value created : Value}
    (constructs : routine.constructed = some created)
    (size : state.frames.size = site.depth)
    {closes : Prop}
    (holds : closes) :
    site.Ends created closes
      (Machine.step environment
        { state, control := .host routine (.finish value), subRuns := site.around }) := by
  show site.Ends created closes
    (settle .script site.around ((do
      Action.completeHostCall environment routine value
      return .proceed : Action Transition) state))
  rcases Action.completeHostCall_cases environment constructs value state with
    ⟨after, completes, frames, -, top⟩ | ⟨after, full⟩
  · rw [Action.bind_of_ok completes]
    exact .delivers holds (ends_of_resume (frames ▸ size) top)
  · rw [Action.bind_of_error full]
    exact .fails (.raise _ _ _)

/-- A routine goes on, or it ends and gives the instance, or it is cut off. -/
theorem Hosts.step
    (orderly : call.state.Orderly)
    (reaches : call.Reaches environment machine)
    (lasts : call.Lasts machine)
    (hosts : site.Hosts routine inner machine)
    {created : Value}
    (constructs : routine.constructed = some created) :
    (∃ remaining, site.Hosts routine remaining (machine.step environment)) ∨
      site.Ends created (site.Finishes routine machine) (machine.step environment) := by
  have occupied := hosts.occupied reaches
  rcases hosts with ⟨inside, awaited⟩
  rcases awaited with
    ⟨rfl, size, program, isHost⟩ | ⟨others, outermost, program, rfl, depth, awaiting⟩
  · have outer : machine.subRuns = site.around := inside.subRuns
    cases program with
    | call callee arguments next =>
        have steps := OuterCall.start_inside orderly reaches lasts inside isHost
        rcases Hosts.of_stepsInside [] size rfl steps with goesOn | stops
        · exact .inl goesOn
        · exact .inr (.stuck stops)
    | finish value =>
        have finishes : site.Finishes routine machine := ⟨outer, value, isHost⟩
        rcases machine with ⟨state, control, subRuns⟩
        cases isHost
        cases outer
        exact .inr (Hosts.finish constructs size finishes)
    | fail message =>
        rcases machine with ⟨state, control, subRuns⟩
        cases isHost
        cases outer
        exact .inr (.fails (.raise _ _ _))
    | inspect next =>
        rcases machine with ⟨state, control, subRuns⟩
        cases isHost
        exact .inl ⟨[], inside.host rfl rfl _, .inl ⟨rfl, size, _, rfl⟩⟩
    | perform request next =>
        rcases machine with ⟨state, control, subRuns⟩
        cases isHost
        have frames := (request.frames_perform state).2
        exact .inl ⟨[], inside.host rfl frames _, .inl ⟨rfl, frames ▸ size, _, rfl⟩⟩
  · have bound : others ++ [outermost] = [] → entryDepthOf site.around < site.depth :=
      fun isEmpty => absurd isEmpty (List.append_ne_nil_of_right_ne_nil _ nofun)
    rcases Hosts.of_stepsInside _ depth awaiting
      (OuterCall.step_inside orderly reaches lasts inside bound occupied) with goesOn | stops
    · exact .inl goesOn
    · exact .inr (.stuck stops)

end Hosts

end Site

end ScriptEngine
