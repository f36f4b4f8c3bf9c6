import ScriptEngine.Proofs.Machine.Bounds
import ScriptEngine.Proofs.Machine.Framing
import ScriptEngine.Proofs.Machine.Importing
import ScriptEngine.Proofs.Machine.Slots

/-!
# Frames that wait

A frame that has been added during a call from outside executes the next instruction, or
it waits behind an instruction that has called something (`OuterCall.waits`).  While it
waits it is neither left nor moved.
-/

namespace ScriptEngine

namespace Machine

/-- The frame at a place executes the next instruction, if there is one. -/
def RunsAt (machine : Machine) (place : Nat) : Prop :=
  machine.control = .stuck ∨
    machine.control = .script ∧ machine.state.frames.size = place + 1

/--
Every frame of the machine executes the next instruction or was there before.  If it was
the innermost one, it has called something.
-/
def Passes (calls : Bool) (before : Array Frame) (machine : Machine) : Prop :=
  ∀ place frame,
    machine.state.frames[place]? = some frame →
      machine.RunsAt place ∨
        before[place]? = some frame ∧ (place + 1 = before.size → calls = true)

theorem not_runsAt_of_host
    {machine : Machine}
    {call : HostCall}
    {program : HostProgram}
    (isHost : machine.control = .host call program)
    (place : Nat) :
    ¬ machine.RunsAt place := by
  unfold RunsAt
  rw [isHost]
  rintro (isStuck | ⟨isScript, -⟩)
  · cases isStuck
  · cases isScript

variable {environment : Environment}

/-! ## Going on after an action -/

theorem frames_conclude (machine : Machine) (outcome : Except RuntimeError Value) :
    (machine.conclude outcome).state.frames = machine.state.frames :=
  congrArg State.frames (state_conclude machine outcome)

/-- A fault leaves the frames below those of the innermost call. -/
theorem frames_raise
    {machine : Machine}
    (inCall : machine.subRuns ≠ [])
    (fault : Fault) :
    (machine.raise fault).state.frames = machine.state.frames.shrink machine.entryDepth := by
  rcases machine with ⟨state, control, _ | ⟨innermost, outer⟩⟩
  · exact absurd rfl inCall
  · exact frames_conclude _ _

theorem getElem?_of_shrink
    {frames : Array Frame}
    {size place : Nat}
    {frame : Frame}
    (found : (frames.shrink size)[place]? = some frame) :
    place < size ∧ frames[place]? = some frame := by
  rcases Array.getElem?_eq_some_iff.mp found with ⟨inside, same⟩
  rw [Array.size_shrink] at inside
  refine ⟨by omega, ?_⟩
  rw [← same, Array.getElem_shrink]
  exact Array.getElem?_eq_getElem _

theorem getElem?_of_pop
    {frames : Array Frame}
    {place : Nat}
    {frame : Frame}
    (found : frames.pop[place]? = some frame) :
    frames[place]? = some frame := by
  rw [Array.getElem?_pop] at found
  split at found
  · exact found
  · cases found

theorem getElem?_of_frames_raise
    {machine : Machine}
    {fault : Fault}
    {place : Nat}
    {frame : Frame}
    (found : (machine.raise fault).state.frames[place]? = some frame) :
    machine.state.frames[place]? = some frame := by
  rcases machine with ⟨state, control, _ | ⟨innermost, outer⟩⟩
  · exact found
  · rw [frames_raise (List.cons_ne_nil _ _)] at found
    exact (getElem?_of_shrink found).2

/-- Whatever comes of an action, the frames that it has left are the only ones. -/
theorem getElem?_of_frames_settle
    {control : Control}
    {subRuns : List SubRun}
    {result : Except Interruption Transition × State}
    {place : Nat}
    {frame : Frame}
    (found : (settle control subRuns result).state.frames[place]? = some frame) :
    result.2.frames[place]? = some frame := by
  unfold settle at found
  split at found
  · unfold resume at found
    split at found
    · exact found
    · unfold Action.pop at found
      split at found <;> rename_i popped
      · split at popped <;> cases popped
        rwa [frames_conclude] at found
      · split at popped <;> cases popped
        exact getElem?_of_frames_raise found
  · exact found
  · rwa [frames_conclude] at found
  · exact getElem?_of_frames_raise found
  · exact found

theorem passes_of_same
    {control : Control}
    {subRuns : List SubRun}
    {result : Except Interruption Transition × State}
    {before : Array Frame}
    (same : result.2.frames = before) :
    Passes true before (settle control subRuns result) := by
  intro place frame found
  refine .inr ⟨?_, fun _ => rfl⟩
  rw [← same]
  exact getElem?_of_frames_settle found

/-- A function of the innermost call goes on. -/
theorem resume_of_deeper
    {machine : Machine}
    (deeper : machine.entryDepth < machine.state.frames.size) :
    machine.resume = { machine with control := .script } :=
  if_pos deeper

variable {control : Control} {subRuns : List SubRun} {after : State} {before : Array Frame}

/-- The frame that a call has added goes on, the others wait. -/
theorem passes_of_entered
    {result : Except Interruption Transition}
    (entered : Action.Entered before result after.frames)
    (depth : entryDepthOf subRuns ≤ before.size) :
    Passes true before (settle control subRuns (result, after)) := by
  generalize isAfter : after.frames = frames at entered
  cases entered with
  | interrupted | atOnce | host => exact passes_of_same isAfter
  | function pushed =>
      have deeper : entryDepthOf subRuns < after.frames.size := by
        rw [isAfter, Array.size_push]
        omega
      intro place frame found
      have goesOn :
          settle control subRuns (.ok .proceed, after) =
            { state := after, control := .script, subRuns } :=
        resume_of_deeper deeper
      rw [goesOn] at found ⊢
      by_cases isNew : place = before.size
      · refine .inl (.inr ⟨rfl, ?_⟩)
        show after.frames.size = place + 1
        rw [isAfter, Array.size_push, isNew]
      · refine .inr ⟨?_, fun _ => rfl⟩
        change after.frames[place]? = some frame at found
        rwa [isAfter, Array.getElem?_push, if_neg isNew] at found

/-- The innermost frame goes on, and those below it are as they were. -/
theorem passes_of_goesOn
    {calls : Bool}
    {machine : Machine}
    (isScript : machine.control = .script)
    (size : machine.state.frames.size = before.size)
    (below :
      ∀ place,
        place + 1 < before.size → machine.state.frames[place]? = before[place]?) :
    Passes calls before machine := by
  intro place frame found
  have inside := (Array.getElem?_eq_some_iff.mp found).1
  by_cases innermost : place + 1 = before.size
  · exact .inl (.inr ⟨isScript, size.trans innermost.symm⟩)
  · refine .inr ⟨?_, fun same => absurd same innermost⟩
    rwa [below place (by omega)] at found

/-- The frames that are left were waiting before. -/
theorem passes_of_cut
    {calls : Bool}
    {machine : Machine}
    (fewer : machine.state.frames.size < before.size)
    (below :
      ∀ (place : Nat) (frame : Frame),
        machine.state.frames[place]? = some frame → before[place]? = some frame) :
    Passes calls before machine := by
  intro place frame found
  have inside := (Array.getElem?_eq_some_iff.mp found).1
  exact .inr ⟨below place frame found, fun innermost => by omega⟩

/-- After an instruction the innermost frame goes on, unless it has called something. -/
theorem passes_of_reframed
    {calls : Bool}
    {result : Except Interruption Transition}
    (reframed : Action.Reframed calls (entryDepthOf subRuns) before result after.frames)
    (inside : entryDepthOf subRuns < before.size)
    (inCall : subRuns ≠ []) :
    Passes calls before (settle control subRuns (result, after)) := by
  have resumes :
      entryDepthOf subRuns < after.frames.size →
        settle control subRuns (.ok .proceed, after) =
          { state := after, control := .script, subRuns } :=
    fun deeper => resume_of_deeper deeper
  generalize isAfter : after.frames = frames at reframed
  cases reframed with
  | interrupted interruption =>
      cases interruption with
      | stuck => exact fun _ _ _ => .inl (.inl rfl)
      | fault fault =>
          have cut :
              (raise { state := after, control, subRuns } fault).state.frames =
                before.shrink (entryDepthOf subRuns) := by
            rw [frames_raise inCall]
            exact congrArg (Array.shrink · _) isAfter
          apply passes_of_cut
          · show (raise _ _).state.frames.size < _
            rw [cut, Array.size_shrink]
            omega
          · intro place frame found
            rw [← isAfter]
            exact getElem?_of_frames_settle found
  | proceeds =>
      rw [resumes (by rwa [isAfter])]
      exact passes_of_goesOn rfl (congrArg Array.size isAfter) fun _ _ => by rw [← isAfter]
  | called isCall entered =>
      rw [isCall]
      rw [← isAfter] at entered
      exact passes_of_entered entered (Nat.le_of_lt inside)
  | moved offset =>
      rw [resumes (by rwa [isAfter, Array.size_modify])]
      refine passes_of_goesOn rfl ?_ ?_
      · show after.frames.size = _
        rw [isAfter, Array.size_modify]
      · intro place below
        show after.frames[place]? = _
        rw [isAfter, Array.getElem?_modify, if_neg (by omega)]
  | left deeper =>
      rw [resumes (by rwa [isAfter])]
      apply passes_of_cut
      · show after.frames.size < _
        rw [isAfter, Array.size_pop]
        omega
      · intro place frame found
        change after.frames[place]? = _ at found
        rw [isAfter] at found
        exact getElem?_of_pop found
  | ended value =>
      apply passes_of_cut
      · show (conclude _ _).state.frames.size < _
        rw [frames_conclude]
        show after.frames.size < _
        rw [isAfter, Array.size_pop]
        omega
      · intro place frame found
        have left := getElem?_of_frames_settle found
        rw [isAfter] at left
        exact getElem?_of_pop left

/-! ## Steps -/

/-- After a step of a script the innermost frame goes on, unless it has called something. -/
theorem Executes.passes
    {machine : Machine}
    {frame : Frame}
    {instruction : Instruction}
    (executes : machine.Executes frame instruction)
    (named :
      ∀ index argumentCount,
        instruction = .invoke index argumentCount → ∃ name, frame.HasName index name)
    (room : machine.state.stack.size ≤ environment.settings.limits.stackCapacity)
    (inFrame : machine.InFrame)
    (inCall : machine.subRuns ≠ []) :
    Passes instruction.isCall (machine.state.fetched environment frame instruction).frames
      (machine.step environment) := by
  rw [executes.step_eq named]
  refine passes_of_reframed ?_ ?_ inCall
  · rw [← entryDepth_eq]
    exact Action.execute_reframed environment (by rwa [State.stack_fetched]) instruction
  · rw [← entryDepth_eq, State.size_frames_fetched]
    exact inFrame executes.control

instance pushAll_spares {view : State → γ} [State.Aside view] (values : List Value) :
    Action.Spares view (pushAll environment values) := by
  induction values with
  | nil => exact Action.Spares.pure ()
  | cons value rest induction =>
      unfold pushAll
      infer_instance

instance enter_calls (depth : Nat) (callee : Value) (arguments : List Value) :
    Action.Calls (enter environment depth callee arguments) := by
  unfold enter
  infer_instance

instance enter_spares
    {view : State → γ}
    [State.Aside view]
    [State.Frameless view]
    (depth : Nat)
    (callee : Value)
    (arguments : List Value) :
    Action.Spares view (enter environment depth callee arguments) := by
  unfold enter
  infer_instance

/-- All frames wait while a call from outside is entered, but for one that is added. -/
theorem passes_start
    (state : State)
    (subRuns : List SubRun)
    (callee : Value)
    (arguments : List Value)
    (awaiting : Option (HostCall × (Except RuntimeError Value → HostProgram))) :
    Passes true state.frames (start environment state subRuns callee arguments awaiting) :=
  passes_of_entered ((enter_calls _ callee arguments).entered state) (Nat.le_refl _)

/-- All frames wait while a host routine goes on, but for one that is added. -/
theorem passes_host
    {machine : Machine}
    {call : HostCall}
    {program : HostProgram}
    (isHost : machine.control = .host call program) :
    Passes true machine.state.frames (machine.step environment) := by
  rcases machine with ⟨state, control, subRuns⟩
  cases isHost
  cases program with
  | finish value =>
      apply passes_of_same
      have spares :
          Action.Spares State.frames
            (do
              Action.completeHostCall environment call value
              return Transition.proceed : Action Transition) :=
        inferInstance
      exact spares.same state
  | fail message =>
      exact fun place frame found => .inr ⟨getElem?_of_frames_raise found, fun _ => rfl⟩
  | inspect next => exact fun place frame found => .inr ⟨found, fun _ => rfl⟩
  | perform request next =>
      intro place frame found
      refine .inr ⟨?_, fun _ => rfl⟩
      rwa [← (request.frames_perform state).2]
  | call callee arguments next => exact passes_start _ _ _ _ _

theorem stuck_step
    {machine : Machine}
    (isStuck : machine.control = .stuck) :
    (machine.step environment).control = .stuck := by
  rcases machine with ⟨state, control, subRuns⟩
  cases isStuck
  rfl

end Machine

namespace OuterCall

variable {environment : Environment} {call : OuterCall} {machine : Machine}

/-! ## Instructions of a call -/

/-- A function without code has no instruction. -/
theorem step_of_empty
    {frame : Frame}
    (isScript : machine.control = .script)
    (innermost : machine.state.frames.back?.getD default = frame)
    (isEmpty : frame.function.chunk.code = #[]) :
    (machine.step environment).control = .stuck := by
  rcases machine with ⟨state, control, subRuns⟩
  cases isScript
  have outside : Instruction.decode frame.function.chunk.code frame.offset = .outside := by
    rw [isEmpty]
    simp [Instruction.decode]
  have stops :
      ∀ depth, ∃ after, Action.step environment depth state = (.error .stuck, after) := by
    intro depth
    unfold Action.step
    split
    · refine ⟨(Action.recordStep state).2, ?_⟩
      have records : Action.recordStep state = (.ok (), (Action.recordStep state).2) := rfl
      rw [Action.bind_of_ok records]
      show (Action.look _ >>= _) (Action.recordStep state).2 = _
      rw [Action.look_bind, show (Action.recordStep state).2.frames = state.frames from rfl,
        innermost]
      simp only [outside]
      rfl
    · refine ⟨state, ?_⟩
      show (Action.look _ >>= _) state = _
      rw [Action.look_bind, innermost]
      simp only [outside]
      rfl
  rcases stops (entryDepthOf subRuns) with ⟨after, stopped⟩
  show (Machine.settle .script subRuns
    (Action.step environment (entryDepthOf subRuns) state)).control = _
  rw [stopped]
  rfl

/--
In a call of compiled code, a script is at an instruction for which the stack of its function
has the right shape, or it has no instruction.
-/
theorem Reaches.active
    (reaches : call.Reaches environment machine)
    (orderly : call.state.Orderly)
    (lasts : call.Lasts machine)
    (isScript : machine.control = .script) :
    ((machine.step environment).control = .stuck ∧
        ∀ frame instruction, ¬ machine.Executes frame instruction) ∨
      ∃ frame instruction shape,
        machine.Executes frame instruction ∧
          frame.function.ShapeAt frame.offset shape ∧
          frame.function.Steps frame.offset shape instruction ∧
          machine.state.stack.size = frame.base + shape.height := by
  rcases reaches.corresponds orderly with ⟨relative, corresponds⟩
  cases corresponds with
  | returned _ _ isActual =>
      rw [isActual] at lasts
      exact absurd lasts (Nat.lt_irrefl _)
  | lasts carries control _ steady =>
      rcases relative with ⟨state, relativeControl, subRuns⟩
      rw [isScript] at control
      cases relativeControl with
      | host | ended | stuck => cases control
      | script =>
          rcases steady with ⟨other, rest, height, active, startable⟩
          have innermost := carries.back_frames active.nonempty
          rw [active.back] at innermost
          rcases startable with isEmpty | ⟨shape, isHeight, shaped⟩
          · refine .inl ⟨step_of_empty isScript innermost isEmpty, ?_⟩
            rintro frame instruction ⟨-, last, decoded⟩
            rw [last, Option.getD_some] at innermost
            subst innermost
            change Instruction.decode other.function.chunk.code _ = _ at decoded
            rw [isEmpty] at decoded
            simp [Instruction.decode] at decoded
          · rcases shaped.steps with ⟨instruction, steps⟩
            have nonempty : 0 < machine.state.frames.size := by
              have size := carries.size_frames
              have inside := active.nonempty
              omega
            have last : machine.state.frames.back? = some (other.raised call.ground.height) := by
              rw [Array.back?_eq_getElem?,
                Array.getElem?_eq_getElem (Nat.sub_one_lt_of_lt nonempty)]
                at innermost ⊢
              exact congrArg some innermost
            refine .inr ⟨_, instruction, shape, ⟨isScript, last, steps.decoded⟩, shaped, steps, ?_⟩
            have size := carries.size_stack
            have relativeSize := active.size
            show machine.state.stack.size = call.ground.height + other.base + shape.height
            omega

/-- In a call of compiled code, a script is at the beginning of an instruction or has none. -/
theorem Reaches.executes
    (reaches : call.Reaches environment machine)
    (orderly : call.state.Orderly)
    (lasts : call.Lasts machine)
    (isScript : machine.control = .script) :
    ((machine.step environment).control = .stuck ∧
        ∀ frame instruction, ¬ machine.Executes frame instruction) ∨
      ∃ frame instruction,
        machine.Executes frame instruction ∧
          Boundary frame.function.chunk.code frame.offset ∧
          ∀ index argumentCount,
            instruction = .invoke index argumentCount → ∃ name, frame.HasName index name := by
  rcases reaches.active orderly lasts isScript with
    stops | ⟨frame, instruction, shape, executes, shaped, steps, -⟩
  · exact .inl stops
  · refine .inr ⟨frame, instruction, executes, shaped.boundary, ?_⟩
    rintro index argumentCount rfl
    rcases steps.operands with ⟨slots, named⟩
    exact named

/-- In a call of compiled code, the stack has the right shape for every instruction. -/
theorem Reaches.steps
    (reaches : call.Reaches environment machine)
    (orderly : call.state.Orderly)
    (lasts : call.Lasts machine)
    {frame : Frame}
    {instruction : Instruction}
    (executes : machine.Executes frame instruction) :
    ∃ shape,
      frame.function.ShapeAt frame.offset shape ∧
        frame.function.Steps frame.offset shape instruction ∧
        machine.state.stack.size = frame.base + shape.height := by
  rcases reaches.active orderly lasts executes.control with
    ⟨-, nothing⟩ | ⟨same, other, shape, again, shaped, steps, size⟩
  · exact absurd executes (nothing frame instruction)
  · cases executes.innermost.symm.trans again.innermost
    cases executes.decoded.symm.trans again.decoded
    exact ⟨shape, shaped, steps, size⟩

/-- In a call of compiled code, instructions are carried out where they begin. -/
theorem Reaches.boundary
    (reaches : call.Reaches environment machine)
    (orderly : call.state.Orderly)
    (lasts : call.Lasts machine)
    {frame : Frame}
    {instruction : Instruction}
    (executes : machine.Executes frame instruction) :
    Boundary frame.function.chunk.code frame.offset := by
  rcases reaches.steps orderly lasts executes with ⟨shape, shaped, -⟩
  exact shaped.boundary

/-- The result of a host routine has its place on the stack. -/
theorem Reaches.slot_lt
    (reaches : call.Reaches environment machine)
    (orderly : call.state.Orderly)
    (lasts : call.Lasts machine)
    {caller : HostCall}
    {program : HostProgram}
    (isHost : machine.control = .host caller program) :
    caller.slot < machine.state.stack.size := by
  rcases reaches.corresponds orderly with ⟨relative, corresponds⟩
  cases corresponds with
  | returned _ _ isActual =>
      rw [isActual] at lasts
      exact absurd lasts (Nat.lt_irrefl _)
  | lasts carries control _ steady =>
      rcases relative with ⟨state, relativeControl, subRuns⟩
      rw [isHost] at control
      cases relativeControl with
      | script | ended | stuck => cases control
      | host =>
          cases control
          have inside := steady.2
          rw [carries.size_stack]
          exact Nat.add_lt_add_left inside _

/-! ## Frames of a call -/

/--
Since some moment the frame at a place has been carrying out an instruction of its
function: it has begun the instruction, and neither was it left nor did it go on.
-/
def CarriesOut (environment : Environment) (call : OuterCall) (now place : Nat)
    (function : Function) (start : Nat) (instruction : Instruction) : Prop :=
  ∃ begun frame,
    begun ≤ now ∧
      (call.machineAt environment begun).Executes frame instruction ∧
      frame.function = function ∧
      frame.offset = start ∧
      (call.machineAt environment begun).state.frames.size = place + 1 ∧
      ∀ later,
        begun < later → later ≤ now →
          place < (call.machineAt environment later).state.frames.size ∧
            ¬ (call.machineAt environment later).RunsAt place

/-- The frame at a place has carried out a call and stands behind it. -/
def Waits (environment : Environment) (call : OuterCall) (now place : Nat) (frame : Frame) : Prop :=
  ∃ start instruction,
    call.CarriesOut environment now place frame.function start instruction ∧
      frame.offset = start + instruction.length ∧
      instruction.isCall = true

variable {now place : Nat}

theorem CarriesOut.later
    {function : Function}
    {start : Nat}
    {instruction : Instruction}
    (carriesOut : call.CarriesOut environment now place function start instruction)
    (stays : place < (call.machineAt environment (now + 1)).state.frames.size)
    (waits : ¬ (call.machineAt environment (now + 1)).RunsAt place) :
    call.CarriesOut environment (now + 1) place function start instruction := by
  rcases carriesOut with ⟨begun, frame, before, executes, isFunction, isStart, size, since⟩
  refine ⟨begun, frame, Nat.le_succ_of_le before, executes, isFunction, isStart, size, ?_⟩
  intro later after bound
  rcases Nat.lt_or_eq_of_le bound with earlier | rfl
  · exact since later after (Nat.lt_succ_iff.mp earlier)
  · exact ⟨stays, waits⟩

/-- A call that begins within the limits, where all functions can be started. -/
structure Prepared (environment : Environment) (call : OuterCall) : Prop where
  orderly : call.state.Orderly
  within : call.state.WithinLimits environment.settings.limits
  calls : call.around.length ≤ environment.settings.limits.maxNestedCalls

theorem Reaches.inFrame (reaches : call.Reaches environment machine) : machine.InFrame := by
  cases reaches with
  | entered => exact Machine.inFrame_settle _ _ _
  | step => exact Machine.inFrame_step _

/-- While a call lasts, the frames of scripts and of routines are told apart. -/
theorem Reaches.goesOn
    (reaches : call.Reaches environment machine)
    (lasts : call.Lasts machine) :
    call.GoesOn machine := by
  rcases reaches.proper with goesOn | ⟨outcome, final, rfl⟩
  · exact goesOn
  · exact absurd lasts (Nat.lt_irrefl _)

theorem GoesOn.inCall (goesOn : call.GoesOn machine) : machine.subRuns ≠ [] := by
  rcases goesOn.holds with ⟨inner, split, -⟩
  rw [split]
  simp

/-- The innermost frame has moved behind the instruction, the others have not moved. -/
theorem getElem?_fetched
    {frame fetched : Frame}
    {instruction : Instruction}
    (innermost : machine.state.frames.back? = some frame)
    (found :
      (machine.state.fetched environment frame instruction).frames[place]? = some fetched) :
    place + 1 = machine.state.frames.size ∧
        fetched = { frame with offset := frame.offset + instruction.length } ∨
      place + 1 ≠ machine.state.frames.size ∧ machine.state.frames[place]? = some fetched := by
  have moved :
      (machine.state.fetched environment frame instruction).frames =
        machine.state.frames.modify (machine.state.frames.size - 1) fun other =>
          { other with offset := frame.offset + instruction.length } := by
    unfold State.fetched Action.moveTo Action.change
    simp only [State.frames_recorded]
  rw [moved, Array.getElem?_modify] at found
  rw [Array.back?_eq_getElem?] at innermost
  have nonempty := (Array.getElem?_eq_some_iff.mp innermost).1
  by_cases last : place + 1 = machine.state.frames.size
  · have isLast : machine.state.frames.size - 1 = place := by
      omega
    rw [if_pos isLast, ← isLast, innermost] at found
    cases found
    exact .inl ⟨last, rfl⟩
  · rw [if_neg (by omega)] at found
    exact .inr ⟨last, found⟩

/-- One step of a call leaves every frame of it running or waiting. -/
theorem waits_succ
    (prepared : call.Prepared environment)
    (reaches : call.Reaches environment (call.machineAt environment now))
    (lasts : call.Lasts (call.machineAt environment now))
    (before :
      ∀ place frame,
        call.state.frames.size ≤ place →
        (call.machineAt environment now).state.frames[place]? = some frame →
          (call.machineAt environment now).RunsAt place ∨ call.Waits environment now place frame)
    {frame : Frame}
    (above : call.state.frames.size ≤ place)
    (found : (call.machineAt environment (now + 1)).state.frames[place]? = some frame) :
    (call.machineAt environment (now + 1)).RunsAt place ∨
      call.Waits environment (now + 1) place frame := by
  by_cases runs : (call.machineAt environment (now + 1)).RunsAt place
  · exact .inl runs
  · refine .inr ?_
    have stays := (Array.getElem?_eq_some_iff.mp found).1
    have goesOn := reaches.goesOn lasts
    cases control : (call.machineAt environment now).control with
    | ended outcome =>
        have notEnded := goesOn.notEnded
        rw [control] at notEnded
        cases notEnded
    | stuck => exact absurd (.inl (Machine.stuck_step control)) runs
    | host caller program =>
        rcases Machine.passes_host control place frame found with isRunning | ⟨old, -⟩
        · exact absurd isRunning runs
        · rcases before place frame above old with
            isRunning | ⟨start, instruction, carriesOut, rest⟩
          · exact absurd isRunning (Machine.not_runsAt_of_host control place)
          · exact ⟨start, instruction, carriesOut.later stays runs, rest⟩
    | script =>
        rcases reaches.executes prepared.orderly lasts control with
          ⟨stops, -⟩ | ⟨innermost, instruction, executes, -, named⟩
        · exact absurd (.inl stops) runs
        · have within := reaches.withinLimits prepared.within prepared.calls
          rcases executes.passes named within.state.stack reaches.inFrame goesOn.inCall place frame
            found with isRunning | ⟨fetched, calls⟩
          · exact absurd isRunning runs
          · rw [State.size_frames_fetched] at calls
            rcases getElem?_fetched executes.innermost fetched with ⟨last, rfl⟩ | ⟨notLast, old⟩
            · refine ⟨innermost.offset, instruction, ?_, rfl, calls last⟩
              refine ⟨now, innermost, Nat.le_succ now, executes, rfl, rfl, last.symm, ?_⟩
              intro later after bound
              rw [Nat.le_antisymm bound after]
              exact ⟨stays, runs⟩
            · rcases before place frame above old with
                (isStuck | ⟨-, last⟩) | ⟨start, instruction, carriesOut, rest⟩
              · rw [control] at isStuck
                cases isStuck
              · exact absurd last.symm notLast
              · exact ⟨start, instruction, carriesOut.later stays runs, rest⟩

/-- While a call lasts, every frame of it goes on or waits for something that it has called. -/
theorem runs_or_waits
    (prepared : call.Prepared environment)
    (lasted : ∀ earlier < now, call.Lasts (call.machineAt environment earlier))
    {frame : Frame}
    (above : call.state.frames.size ≤ place)
    (found : (call.machineAt environment now).state.frames[place]? = some frame) :
    (call.machineAt environment now).RunsAt place ∨ call.Waits environment now place frame := by
  induction now generalizing place frame with
  | zero =>
      rcases Machine.passes_start _ _ _ _ _ place frame found with runs | ⟨old, -⟩
      · exact .inl runs
      · rw [Array.getElem?_eq_none above] at old
        cases old
  | succ now induction =>
      have before := fun earlier bound => lasted earlier (Nat.lt_succ_of_lt bound)
      exact waits_succ prepared (reaches_iff_machineAt.mpr ⟨now, rfl, before⟩)
        (lasted now (Nat.lt_succ_self now)) (fun _ _ => induction before) above found

end OuterCall

end ScriptEngine
