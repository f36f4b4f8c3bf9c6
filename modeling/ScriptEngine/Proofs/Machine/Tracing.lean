import ScriptEngine.Proofs.Compiler.Record
import ScriptEngine.Proofs.Machine.Loading
import ScriptEngine.Proofs.Machine.Suspension

/-!
# Traces

A call that fails names the frames that it has added and that are active at the fault,
the innermost first.  The line of each is the line on which the instruction has been
appended that the frame carries out: the one that fails, or the one that has called
what fails (`fault_traces_active_frames`).
-/

namespace ScriptEngine

/-! ## Functions with known lines -/

/-- All functions have been built by appending instructions on lines. -/
structure State.Recorded (state : State) : Prop where
  functions : ∀ function ∈ state.heap.functions, function.Recorded
  frames : ∀ frame ∈ state.frames, frame.function.Recorded

namespace State

/-- A function that is not there has no instructions. -/
theorem Recorded.function
    {state : State}
    (recorded : state.Recorded)
    (id : Nat) :
    (state.heap.function id).Recorded :=
  holds_getD recorded.functions ⟨[], .blank⟩ id

theorem Recorded.addSource
    {state : State}
    (recorded : state.Recorded)
    (mode : CompileMode)
    (id : Nat)
    (source : String) :
    (state.addSource mode id source).2.Recorded := by
  constructor
  · intro function member
    rcases outcome : (compile mode source (state.registry.moduleAt id) id
        state.heap.functions.size).functions with error | functions
    · unfold State.addSource at member
      simp only [outcome] at member
      exact recorded.functions function member
    · unfold State.addSource at member
      simp only [outcome] at member
      rcases Array.mem_append.mp member with old | new
      · exact recorded.functions function old
      · exact recorded_of_compile outcome function new
  · intro frame member
    rw [(frames_addSource state mode id source).2] at member
    exact recorded.frames frame member

/-- Whatever changes the state, the lines of all functions are known. -/
theorem recorded_invariant (limits : Limits) :
    State.Invariant limits (fun _ => True) Recorded where
  each := fun {state} _ => .of_forall (fun _ => trivial) state
  change := by
    intro before after recorded change
    cases change with
    | stack | journal | registry => exact ⟨recorded.functions, recorded.frames⟩
    | frames known =>
        refine ⟨recorded.functions, fun frame member => ?_⟩
        rcases known frame member with ⟨old, isOld, same⟩ | ⟨id, same⟩
        · rw [same]
          exact recorded.frames old isOld
        · rw [same]
          exact recorded.function id
    | heap functions =>
        refine ⟨?_, recorded.frames⟩
        rw [functions]
        exact recorded.functions
    | compile mode found source => exact recorded.addSource mode _ source

end State

/-- In histories without code written by hand, the lines of all functions are known. -/
theorem Machine.Leads.recorded
    {environment : Environment}
    {first machine : Machine}
    (fresh : first.Fresh)
    (leads : first.Leads environment .compiled machine) :
    machine.state.Recorded := by
  have begins : first.state.Recorded := by
    constructor <;> cases fresh <;> exact nofun
  have admits : Admits .compiled State.Recorded := fun _ _ supplied => False.elim supplied
  exact (leads.keeps (State.recorded_invariant _) admits
    (holds_of_forall (fun _ => trivial) begins)).state

namespace OuterCall

variable {environment : Environment} {call : OuterCall} {machine : Machine}

/-- What holds whatever changes the state holds throughout a call. -/
theorem Reaches.keeps
    {holds : State → Prop}
    (reaches : call.Reaches environment machine)
    (invariant : State.Invariant environment.settings.limits (fun _ => True) holds)
    (begins : holds call.state) :
    holds machine.state := by
  suffices kept : machine.Holds holds fun _ => True from kept.state
  induction reaches with
  | entered =>
      exact Machine.holds_start invariant begins (fun _ _ _ _ _ _ _ => trivial) trivial
        (fun _ _ => trivial) fun _ _ _ _ _ => trivial
  | step _ _ induction =>
      exact induction.step invariant (Machine.supplied_of_forall (fun _ => trivial) _)

end OuterCall

/-! ## Whoever waits for the outcome -/

namespace OuterCall

variable {environment : Environment} {call : OuterCall}

/-- The same call without anyone who waits for the outcome. -/
def unawaited (call : OuterCall) : OuterCall :=
  { call with awaiting := none }

/-- The call fails with an error, whoever waits for the outcome and is told of it. -/
def Fails (environment : Environment) (call : OuterCall) (error : RuntimeError) (final : State) :
    Prop :=
  call.unawaited.Returns environment (.error error) final

/-- The machine of a call and that of the call without anyone who waits for the outcome. -/
inductive Alike (call : OuterCall) : Machine → Machine → Prop where
  | lasts (state : State) (control : Control) (inner : List SubRun) :
      Alike call
        { state, control, subRuns := inner ++ call.subRun :: call.around }
        { state, control, subRuns := inner ++ call.unawaited.subRun :: call.around }
  | returned (outcome : Except RuntimeError Value) (final : State) :
      Alike call (call.returned outcome final) (call.unawaited.returned outcome final)

namespace Alike

variable (state : State) (control : Control) (inner : List SubRun)

theorem entryDepth (call : OuterCall) (inner : List SubRun) :
    entryDepthOf (inner ++ call.unawaited.subRun :: call.around) =
      entryDepthOf (inner ++ call.subRun :: call.around) := by
  cases inner <;> rfl

theorem conclude (outcome : Except RuntimeError Value) :
    call.Alike
      (Machine.conclude { state, control, subRuns := inner ++ call.subRun :: call.around } outcome)
      (Machine.conclude
        { state, control, subRuns := inner ++ call.unawaited.subRun :: call.around } outcome) := by
  rcases inner with _ | ⟨⟨mark, depth, _ | ⟨caller, next⟩⟩, inner⟩
  · rcases call with ⟨state, around, callee, arguments, _ | ⟨caller, next⟩⟩
    · exact .returned outcome _
    · exact .returned outcome _
  · exact .lasts _ _ inner
  · exact .lasts _ _ inner

theorem raise (fault : Fault) :
    call.Alike
      (Machine.raise { state, control, subRuns := inner ++ call.subRun :: call.around } fault)
      (Machine.raise
        { state, control, subRuns := inner ++ call.unawaited.subRun :: call.around } fault) := by
  cases inner with
  | nil => exact conclude _ control [] _
  | cons innermost inner => exact conclude _ control (innermost :: inner) _

theorem resume :
    call.Alike
      (Machine.resume { state, control, subRuns := inner ++ call.subRun :: call.around })
      (Machine.resume
        { state, control, subRuns := inner ++ call.unawaited.subRun :: call.around }) := by
  unfold Machine.resume
  simp only [Machine.entryDepth_eq, entryDepth]
  split
  · exact .lasts _ _ inner
  · split
    · exact conclude _ _ _ _
    · exact raise _ _ _ _

theorem settle (result : Except Interruption Transition × State) :
    call.Alike (Machine.settle control (inner ++ call.subRun :: call.around) result)
      (Machine.settle control (inner ++ call.unawaited.subRun :: call.around) result) := by
  unfold Machine.settle
  split
  · exact resume _ _ _
  · exact .lasts _ _ inner
  · exact conclude _ _ _ _
  · exact raise _ _ _ _
  · exact .lasts _ _ inner

/-- As long as the call has not returned, both make the same steps. -/
theorem step :
    call.Alike
      (Machine.step environment
        { state, control, subRuns := inner ++ call.subRun :: call.around })
      (Machine.step environment
        { state, control, subRuns := inner ++ call.unawaited.subRun :: call.around }) := by
  cases control with
  | script =>
      show call.Alike
        (Machine.settle .script _ (Action.step environment (entryDepthOf _) state))
        (Machine.settle .script _ (Action.step environment (entryDepthOf _) state))
      rw [entryDepth]
      exact settle _ _ _
  | host caller program =>
      cases program with
      | finish value => exact settle _ _ _
      | fail message => exact raise _ _ _ _
      | inspect next => exact .lasts _ _ inner
      | perform request next => exact .lasts _ _ inner
      | call callee arguments next =>
          have count :
              (inner ++ call.unawaited.subRun :: call.around).length =
                (inner ++ call.subRun :: call.around).length := by
            simp
          unfold Machine.step Machine.start
          simp only [count]
          exact settle _ (_ :: inner) _
  | ended outcome => exact .lasts _ _ inner
  | stuck => exact .lasts _ _ inner

/-- Before the call returns, the two cannot be told apart but for their lists of calls. -/
theorem same
    {machine other : Machine}
    (alike : call.Alike machine other)
    (lasts : call.unawaited.Lasts other) :
    machine.state = other.state ∧ machine.control = other.control ∧ call.Lasts machine := by
  cases alike with
  | lasts state control inner =>
      refine ⟨rfl, rfl, ?_⟩
      unfold Lasts
      rw [List.length_append, List.length_cons]
      omega
  | returned => exact absurd lasts (Nat.lt_irrefl _)

theorem sameState {machine other : Machine} (alike : call.Alike machine other) :
    machine.state = other.state := by
  cases alike <;> rfl

/-- Both return with the same outcome. -/
theorem eq_returned
    {machine : Machine}
    {outcome : Except RuntimeError Value}
    {final : State}
    (alike : call.Alike machine (call.unawaited.returned outcome final)) :
    machine = call.returned outcome final := by
  generalize ended : call.unawaited.returned outcome final = other at alike
  cases alike with
  | lasts state control inner =>
      have remaining : call.around = inner ++ call.unawaited.subRun :: call.around :=
        congrArg Machine.subRuns ended
      have count := congrArg List.length remaining
      rw [List.length_append, List.length_cons] at count
      omega
  | returned told conclusion =>
      cases ended
      rfl

end Alike

/-- Until the call returns, nothing depends on who waits for the outcome. -/
theorem alike_machineAt
    {now : Nat}
    (lasted :
      ∀ earlier < now, call.unawaited.Lasts (call.unawaited.machineAt environment earlier)) :
    call.Alike (call.machineAt environment now) (call.unawaited.machineAt environment now) := by
  induction now with
  | zero => exact Alike.settle .script [] _
  | succ now induction =>
      have alike := induction fun earlier bound => lasted earlier (Nat.lt_succ_of_lt bound)
      have lasts := lasted now (Nat.lt_succ_self now)
      unfold machineAt
      generalize call.machineAt environment now = machine at alike
      generalize call.unawaited.machineAt environment now = other at alike lasts
      cases alike with
      | lasts state control inner => exact Alike.step state control inner
      | returned => exact absurd lasts (Nat.lt_irrefl _)

end OuterCall

/-! ## The list of frames -/

namespace Machine

variable {state : State} {depth index : Nat}

theorem length_traceFrom (state : State) (depth : Nat) :
    (traceFrom state depth).length = state.frames.size - depth := by
  simp [traceFrom]

/-- An entry of a trace describes a frame; the innermost one comes first. -/
theorem frame_of_traceFrom
    {entry : TraceEntry}
    (found : (traceFrom state depth)[index]? = some entry) :
    ∃ frame,
      index < state.frames.size - depth ∧
        state.frames[state.frames.size - 1 - index]? = some frame ∧
        entry.line = frame.line ∧
        entry.function = frame.function.traceName ∧
        entry.moduleName = (state.registry.moduleAt frame.function.home).name := by
  have inside := (List.getElem?_eq_some_iff.mp found).1
  rw [length_traceFrom] at inside
  unfold traceFrom at found
  rw [List.getElem?_map] at found
  rcases Option.map_eq_some_iff.mp found with ⟨frame, listed, rfl⟩
  refine ⟨frame, inside, ?_, rfl, rfl, rfl⟩
  rw [List.getElem?_reverse (by simpa using inside), List.getElem?_drop, List.length_drop,
    Array.length_toList, Array.getElem?_toList] at listed
  rw [← listed]
  congr 1
  omega

end Machine

/-! ## How a call fails -/

namespace OuterCall

variable {environment : Environment} {call : OuterCall}

/--
What a call tells of its failure is told of a state: the trace lists the frames of that
state that have been added during the call.
-/
structure TellsOf (call : OuterCall) (error : RuntimeError) (final after : State) : Prop where
  trace : error.trace = Machine.traceFrom after call.state.frames.size
  registry : final.registry = after.registry

section Failing

variable
  {error : RuntimeError}
  {final after : State}
  {control : Control}
  {subRuns : List SubRun}
  (nobody : call.awaiting = none)

include nobody

theorem deliver_of_nobody (outcome : Except RuntimeError Value) :
    call.deliver outcome = .ended outcome := by
  unfold deliver
  rw [nobody]

/-- A call that has returned was the innermost one when it ended. -/
theorem conclude_eq_returned
    {outcome reported : Except RuntimeError Value}
    (goesOn : call.GoesOn { state := after, control, subRuns })
    {conclusion : State}
    (ends :
      Machine.conclude { state := conclusion, control, subRuns } outcome =
        call.returned reported final) :
    subRuns = call.subRun :: call.around ∧ outcome = reported ∧ conclusion = final := by
  rcases goesOn.holds with ⟨inner, split, -⟩
  change subRuns = _ at split
  subst split
  have remaining := congrArg (List.length ∘ Machine.subRuns) ends
  rcases inner with _ | ⟨⟨mark, depth, _ | ⟨caller, next⟩⟩, inner⟩
  · have state := congrArg Machine.state ends
    have told := congrArg Machine.control ends
    rw [Machine.state_conclude] at state
    change _ = call.deliver reported at told
    rw [deliver_of_nobody nobody] at told
    unfold Machine.conclude subRun at told
    rw [List.nil_append, nobody] at told
    cases told
    exact ⟨rfl, rfl, state⟩
  · simp [Machine.conclude, returned] at remaining
    omega
  · simp [Machine.conclude, returned] at remaining
    omega

theorem tellsOf_raise
    (goesOn : call.GoesOn { state := after, control, subRuns })
    {fault : Fault}
    (fails :
      Machine.raise { state := after, control, subRuns } fault =
        call.returned (.error error) final) :
    subRuns = call.subRun :: call.around ∧ call.TellsOf error final after := by
  have inCall : subRuns ≠ [] := goesOn.inCall
  cases subRuns with
  | nil => exact absurd rfl inCall
  | cons innermost outer =>
      rcases conclude_eq_returned nobody goesOn fails with ⟨isCall, same, rfl⟩
      cases isCall
      cases same
      exact ⟨rfl, rfl, rfl⟩

/-- An action after which the call has failed was interrupted, or it has left nothing. -/
theorem tellsOf_settle
    {result : Except Interruption Transition}
    (goesOn : call.GoesOn { state := after, control, subRuns })
    (fails :
      Machine.settle control subRuns (result, after) = call.returned (.error error) final) :
    subRuns = call.subRun :: call.around ∧
      call.TellsOf error final after ∧
        ((∃ interruption, result = .error interruption) ∨
          result = .ok .proceed ∧ after.frames.size ≤ entryDepthOf subRuns) := by
  have lasts := goesOn.lasts
  have stays : ∀ {machine : Machine},
      machine = call.returned (.error error) final → machine.subRuns ≠ subRuns := by
    rintro machine rfl same
    unfold Lasts at lasts
    rw [← same] at lasts
    exact absurd lasts (Nat.lt_irrefl _)
  unfold Machine.settle at fails
  split at fails <;> rename_i outcome <;> cases outcome
  · unfold Machine.resume at fails
    split at fails
    · exact absurd rfl (stays fails)
    · rename_i shallow
      have depth : after.frames.size ≤ entryDepthOf subRuns := Nat.le_of_not_lt shallow
      unfold Action.pop at fails
      split at fails <;> rename_i popped <;> split at popped <;> cases popped
      · rcases conclude_eq_returned nobody goesOn fails with ⟨-, same, -⟩
        cases same
      · rcases tellsOf_raise nobody goesOn fails with ⟨innermost, tells⟩
        exact ⟨innermost, tells, .inr ⟨rfl, depth⟩⟩
  · exact absurd rfl (stays fails)
  · rcases conclude_eq_returned nobody goesOn fails with ⟨-, same, -⟩
    cases same
  · rcases tellsOf_raise nobody goesOn fails with ⟨innermost, tells⟩
    exact ⟨innermost, tells, .inl ⟨_, rfl⟩⟩
  · exact absurd rfl (stays fails)

/-- A call that fails at its entry has added no frames. -/
theorem trace_of_entered
    (fails : call.entered environment = call.returned (.error error) final) :
    error.trace = [] := by
  have calls :
      Action.Calls
        (Machine.enter environment (call.around.length + 1) call.callee call.arguments) :=
    inferInstance
  have entered := calls.entered call.state
  unfold OuterCall.entered Machine.start at fails
  rcases outcome : Machine.enter environment (call.around.length + 1) call.callee call.arguments
    call.state with ⟨result, after⟩
  rw [outcome] at fails entered
  have begins :
      call.GoesOn { state := after, control := .script, subRuns := call.subRun :: call.around } :=
    ⟨⟨[], rfl, nofun⟩, rfl⟩
  rcases tellsOf_settle nobody begins fails with ⟨-, tells, leaves⟩
  have few : after.frames.size ≤ call.state.frames.size := by
    rcases leaves with ⟨interruption, rfl⟩ | ⟨-, nothing⟩
    · rw [entered.interrupted_frames]
    · exact nothing
  rw [← List.length_eq_zero_iff, tells.trace, Machine.length_traceFrom]
  omega

variable {machine : Machine}

/-- A script that fails does so behind the instruction that it has begun. -/
theorem tellsOf_executes
    (goesOn : call.GoesOn machine)
    {frame : Frame}
    {instruction : Instruction}
    (executes : machine.Executes frame instruction)
    (named :
      ∀ index argumentCount,
        instruction = .invoke index argumentCount → ∃ name, frame.HasName index name)
    (room : machine.state.stack.size ≤ environment.settings.limits.stackCapacity)
    (inFrame : machine.InFrame)
    (fails : machine.step environment = call.returned (.error error) final) :
    ∃ failed,
      call.TellsOf error final failed ∧
        failed.frames = (machine.state.fetched environment frame instruction).frames := by
  have reframed :
      Action.Reframed instruction.isCall machine.entryDepth
        (machine.state.fetched environment frame instruction).frames _ _ :=
    Action.execute_reframed environment (by rwa [State.stack_fetched]) instruction
  rw [executes.step_eq named] at fails
  rcases outcome : Action.execute environment machine.entryDepth instruction
    (machine.state.fetched environment frame instruction) with ⟨result, failed⟩
  rw [outcome] at fails reframed
  have goesOn' : call.GoesOn { state := failed, control := .script, subRuns := machine.subRuns } :=
    goesOn.withControl rfl failed
  rcases tellsOf_settle nobody goesOn' fails with
    ⟨-, tells, ⟨interruption, rfl⟩ | ⟨rfl, nothing⟩⟩
  · exact ⟨failed, tells, reframed.interrupted_frames⟩
  · have deeper := reframed.deeper (by
      rw [State.size_frames_fetched]
      exact inFrame executes.control)
    rw [Machine.entryDepth_eq] at deeper
    exact absurd deeper (Nat.not_lt.mpr nothing)

/-- A routine that fails leaves the frames as they are. -/
theorem tellsOf_host
    (goesOn : call.GoesOn machine)
    {caller : HostCall}
    {program : HostProgram}
    (isHost : machine.control = .host caller program)
    (fails : machine.step environment = call.returned (.error error) final) :
    ∃ failed, call.TellsOf error final failed ∧ failed.frames = machine.state.frames := by
  rcases machine with ⟨state, control, subRuns⟩
  cases isHost
  have goesOnAs : ∀ after, call.GoesOn { state := after, control := .script, subRuns } :=
    fun after => goesOn.withControl rfl after
  have ended := congrArg Machine.control fails
  change _ = call.deliver _ at ended
  rw [deliver_of_nobody nobody] at ended
  cases program with
  | finish value =>
      have spares :
          Action.Spares State.frames
            (do
              Action.completeHostCall environment caller value
              return Transition.proceed : Action Transition) :=
        inferInstance
      exact ⟨_, (tellsOf_settle nobody (goesOnAs _) fails).2.1, spares.same state⟩
  | fail message => exact ⟨state, (tellsOf_raise nobody (goesOnAs state) fails).2, rfl⟩
  | inspect next => cases ended
  | perform request next => cases ended
  | call callee arguments next =>
      -- A call made by the routine is inside this one, so it is another one that fails.
      have nested : ∀ after subRun, subRun.awaiting.isSome = true →
          call.GoesOn { state := after, control := .script, subRuns := subRun :: subRuns } :=
        fun after subRun awaited => (goesOnAs after).nested awaited
      have innermost := (tellsOf_settle nobody (nested _ _ rfl) fails).1
      have lasts := goesOn.lasts
      unfold Lasts at lasts
      rw [show subRuns = call.around from (List.cons.inj innermost).2] at lasts
      exact absurd lasts (Nat.lt_irrefl _)

end Failing

/-! ## The frames of a call -/

variable {environment : Environment} {call : OuterCall} {machine : Machine}

/-- The frames below those of the call are the ones on which it began. -/
theorem Reaches.frames_prefix
    (reaches : call.Reaches environment machine)
    (orderly : call.state.Orderly) :
    call.state.frames.toList <+: machine.state.frames.toList := by
  rcases reaches.corresponds orderly with ⟨alone, corresponds⟩
  have carries : call.ground.Carries alone.state machine.state := by
    cases corresponds with
    | lasts carries => exact carries
    | returned carries => exact carries
  rw [carries.frames, Array.toList_append]
  exact List.prefix_append _ _

/-- The line of a frame is that on which the instruction has been appended that it carries out. -/
theorem CarriesOut.records
    {now place start : Nat}
    {function : Function}
    {instruction : Instruction}
    (carriesOut : call.CarriesOut environment now place function start instruction)
    (lasted : ∀ earlier ≤ now, call.Lasts (call.machineAt environment earlier))
    (orderly : call.state.Orderly)
    (recorded : call.state.Recorded) :
    ∃ line,
      function.chunk.Records start instruction line ∧
        function.chunk.lineAt (start + instruction.length - 1) = line := by
  rcases carriesOut with ⟨begun, frame, before, executes, rfl, rfl, -, -⟩
  have reaches : call.Reaches environment (call.machineAt environment begun) :=
    reaches_iff_machineAt.mpr
      ⟨begun, rfl, fun earlier bound => lasted earlier (Nat.le_trans (Nat.le_of_lt bound) before)⟩
  have known := reaches.keeps (State.recorded_invariant _) recorded
  rcases known.frames frame (Array.mem_of_back? executes.innermost) with ⟨history, emits⟩
  rcases emits.recorded (reaches.boundary orderly (lasted begun before) executes)
    executes.decoded with ⟨line, records, lines⟩
  have nonempty := instruction.length_pos
  exact ⟨line, records, lines _ (by omega) (by omega)⟩

/--
The frame at a place stands behind the instruction that it carries out.  If it is not the
innermost one, the instruction has called something.
-/
def Pursues (environment : Environment) (call : OuterCall) (now place : Nat) (frame : Frame) :
    Prop :=
  (call.machineAt environment now).state.frames[place]?.map Frame.function = some frame.function ∧
    ∃ start instruction,
      call.CarriesOut environment now place frame.function start instruction ∧
        frame.offset = start + instruction.length ∧
        (place + 1 < (call.machineAt environment now).state.frames.size → instruction.isCall = true)

section Moment

variable
  {now place : Nat}
  (prepared : call.Prepared environment)
  (lasted : ∀ earlier < now, call.Lasts (call.machineAt environment earlier))
  (above : call.state.frames.size ≤ place)

include prepared lasted above

/-- While a routine goes on, all frames have called something. -/
theorem pursues_of_host
    {caller : HostCall}
    {program : HostProgram}
    (isHost : (call.machineAt environment now).control = .host caller program)
    {frame : Frame}
    (found : (call.machineAt environment now).state.frames[place]? = some frame) :
    call.Pursues environment now place frame := by
  rcases runs_or_waits prepared lasted above found with
    runs | ⟨start, instruction, carriesOut, behind, isCall⟩
  · exact absurd runs (Machine.not_runsAt_of_host isHost place)
  · exact ⟨congrArg (Option.map Frame.function) found, start, instruction, carriesOut, behind,
      fun _ => isCall⟩

/-- When an instruction has been read, the innermost frame carries it out. -/
theorem pursues_of_fetched
    {innermost : Frame}
    {instruction : Instruction}
    (executes : (call.machineAt environment now).Executes innermost instruction)
    {frame : Frame}
    (found :
      ((call.machineAt environment now).state.fetched environment innermost
        instruction).frames[place]? = some frame) :
    call.Pursues environment now place frame := by
  rcases getElem?_fetched executes.innermost found with ⟨last, rfl⟩ | ⟨notLast, old⟩
  · refine ⟨?_, innermost.offset, instruction, ?_, rfl, fun below => by omega⟩
    · have here := executes.innermost
      rw [Array.back?_eq_getElem?, ← last, Nat.add_sub_cancel] at here
      rw [here]
      rfl
    refine ⟨now, innermost, Nat.le_refl now, executes, rfl, rfl, last.symm, ?_⟩
    exact fun later after bound => absurd after (Nat.not_lt.mpr bound)
  · rcases runs_or_waits prepared lasted above old with
      (isStuck | ⟨-, last⟩) | ⟨start, earlier, carriesOut, behind, isCall⟩
    · rw [executes.control] at isStuck
      cases isStuck
    · exact absurd last.symm notLast
    · exact ⟨congrArg (Option.map Frame.function) old, start, earlier, carriesOut, behind,
        fun _ => isCall⟩

end Moment

/-- A call fails at some moment, of which its trace tells. -/
theorem fails_at
    {error : RuntimeError}
    {final : State}
    (prepared : call.Prepared environment)
    (fails : call.Fails environment error final) :
    call.entered environment = call.returned (.error error) final ∧ error.trace = [] ∨
      ∃ now failed,
        (∀ earlier ≤ now, call.Lasts (call.machineAt environment earlier)) ∧
          call.machineAt environment (now + 1) = call.returned (.error error) final ∧
          call.TellsOf error final failed ∧
          failed.frames.size = (call.machineAt environment now).state.frames.size ∧
          ∀ place frame,
            call.state.frames.size ≤ place →
            failed.frames[place]? = some frame →
              call.Pursues environment now place frame := by
  rcases reaches_iff_machineAt.mp fails with ⟨count, isFinal, lasted⟩
  have alike := alike_machineAt lasted
  rw [← isFinal] at alike
  cases count with
  | zero => exact .inl ⟨alike.eq_returned, trace_of_entered rfl isFinal.symm⟩
  | succ now =>
      have before : ∀ earlier ≤ now,
          call.unawaited.Lasts (call.unawaited.machineAt environment earlier) :=
        fun earlier bound => lasted earlier (Nat.lt_succ_of_le bound)
      have same := fun earlier bound =>
        (alike_machineAt fun first less =>
          before first (Nat.le_of_lt (Nat.lt_of_lt_of_le less bound))).same
          (before earlier bound)
      have lasts : ∀ earlier ≤ now, call.Lasts (call.machineAt environment earlier) :=
        fun earlier bound => (same earlier bound).2.2
      rcases same now (Nat.le_refl now) with ⟨sameState, sameControl, -⟩
      have reaches :
          call.unawaited.Reaches environment (call.unawaited.machineAt environment now) :=
        reaches_iff_machineAt.mpr ⟨now, rfl, fun earlier less => before earlier (Nat.le_of_lt less)⟩
      have goesOn := reaches.goesOn (before now (Nat.le_refl now))
      have ends :
          (call.unawaited.machineAt environment (now + 1)).control = .ended (.error error) := by
        rw [← isFinal]
        rfl
      refine .inr ⟨now, ?_⟩
      suffices tells :
          ∃ failed,
            call.unawaited.TellsOf error final failed ∧
              failed.frames.size = (call.machineAt environment now).state.frames.size ∧
              ∀ place frame,
                call.state.frames.size ≤ place →
                failed.frames[place]? = some frame →
                  call.Pursues environment now place frame by
        rcases tells with ⟨failed, ⟨trace, registry⟩, size, pursues⟩
        exact ⟨failed, lasts, alike.eq_returned, ⟨trace, registry⟩, size, pursues⟩
      have earlier := fun first (less : first < now) => lasts first (Nat.le_of_lt less)
      cases control : (call.unawaited.machineAt environment now).control with
      | ended outcome =>
          have notEnded := goesOn.notEnded
          rw [control] at notEnded
          cases notEnded
      | stuck =>
          have stays :
              (call.unawaited.machineAt environment (now + 1)).control = .stuck :=
            Machine.stuck_step control
          exact absurd (stays.symm.trans ends) nofun
      | host caller program =>
          rcases tellsOf_host rfl goesOn control isFinal.symm with ⟨failed, tells, frames⟩
          rw [← sameState] at frames
          rw [← sameControl] at control
          refine ⟨failed, tells, congrArg Array.size frames, fun place frame above found => ?_⟩
          rw [frames] at found
          exact pursues_of_host prepared earlier above control found
      | script =>
          rcases reaches.executes prepared.orderly (before now (Nat.le_refl now)) control with
            ⟨stays, -⟩ | ⟨innermost, instruction, executes, -, named⟩
          · exact absurd (stays.symm.trans ends) nofun
          · have within := reaches.withinLimits prepared.within prepared.calls
            rcases tellsOf_executes rfl goesOn executes named within.state.stack reaches.inFrame
              isFinal.symm with ⟨failed, tells, frames⟩
            have executed : (call.machineAt environment now).Executes innermost instruction := by
              refine ⟨sameControl.trans control, ?_, executes.decoded⟩
              rw [sameState]
              exact executes.innermost
            rw [← sameState] at frames
            refine ⟨failed, tells, ?_, fun place frame above found => ?_⟩
            · rw [frames, State.size_frames_fetched]
            · rw [frames] at found
              exact pursues_of_fetched prepared earlier above executed found

/--
An entry of a trace describes the frame at a place: its function, the module of the
function and the line on which the instruction has been appended that the frame carries
out.  If the frame is not the innermost one, the instruction has called something.
-/
def Describes (environment : Environment) (call : OuterCall) (now : Nat) (registry : Registry)
    (place : Nat) (entry : TraceEntry) : Prop :=
  ∃ frame start instruction,
    (call.machineAt environment now).state.frames[place]? = some frame ∧
      entry.function = frame.function.traceName ∧
      entry.moduleName = (registry.moduleAt frame.function.home).name ∧
      call.CarriesOut environment now place frame.function start instruction ∧
      frame.function.chunk.Records start instruction entry.line ∧
      (place + 1 < (call.machineAt environment now).state.frames.size → instruction.isCall = true)

end OuterCall

/-- The body of a text goes by its own name in traces. -/
theorem State.Compiled.traceName
    {state after : State}
    (compiled : state.Compiled)
    {mode : CompileMode}
    {name source : String}
    {id body : Nat}
    (found : state.registry.find? name = some id)
    (accepted : state.addSource mode id source = (.ok body, after)) :
    (after.heap.function body).traceName = "script" := by
  have table := compiled.registry.moduleAt (compiled.registry.inside found)
  unfold Function.traceName
  rw [(body_of_addSource table.toIndexed accepted).1]
  rfl

/--
If a call of compiled code fails, it does so at its entry, and then the trace is empty, or
at some moment while it lasts.  Then the frames of that moment are those on which the call
began and others that it has added, and the trace has one entry for each of the latter,
the innermost first.  It names the function, which is called a script if it is the body of
a text, and the module, and it gives the line on which the instruction has been appended
that the frame carries out at that moment.
-/
theorem fault_traces_active_frames
    {environment : Environment}
    {first machine : Machine}
    (fresh : first.Fresh)
    (leads : first.Leads environment .compiled machine) :
    (∀ call : OuterCall,
        call.state = machine.state →
        call.around = machine.subRuns →
          ∀ error final,
            call.Fails environment error final →
              call.entered environment = call.returned (.error error) final ∧ error.trace = [] ∨
                ∃ now,
                  (∀ earlier ≤ now, call.Lasts (call.machineAt environment earlier)) ∧
                    call.machineAt environment (now + 1) = call.returned (.error error) final ∧
                    let active := (call.machineAt environment now).state.frames
                    call.state.frames.toList <+: active.toList ∧
                      error.trace.length = active.size - call.state.frames.size ∧
                      ∀ index entry,
                        error.trace[index]? = some entry →
                          call.Describes environment now final.registry (active.size - 1 - index)
                            entry) ∧
      ∀ mode name id source body after,
        machine.state.registry.find? name = some id →
        machine.state.addSource mode id source = (.ok body, after) →
          (after.heap.function body).traceName = "script" := by
  refine ⟨?_, fun mode name id source body after found accepted =>
    (leads.compiled fresh).traceName found accepted⟩
  intro call sameState sameAround error final fails
  have arises : machine.Arises environment .any := ⟨first, fresh, leads.any⟩
  have within := arises.withinLimits
  have orderly : call.state.Orderly := by
    rw [sameState]
    exact (leads.inOrder fresh).1
  have recorded : call.state.Recorded := by
    rw [sameState]
    exact leads.recorded fresh
  have prepared : call.Prepared environment := by
    refine ⟨orderly, ?_, ?_⟩
    · rw [sameState]
      exact within.state
    · rw [sameAround]
      exact within.calls
  rcases OuterCall.fails_at prepared fails with
    entry | ⟨now, failed, lasted, ends, tells, size, pursues⟩
  · exact .inl entry
  · have reaches : call.Reaches environment (call.machineAt environment now) :=
      OuterCall.reaches_iff_machineAt.mpr
        ⟨now, rfl, fun earlier less => lasted earlier (Nat.le_of_lt less)⟩
    refine .inr ⟨now, lasted, ends, reaches.frames_prefix orderly, ?_, ?_⟩
    · rw [tells.trace, Machine.length_traceFrom, size]
    · intro index entry found
      rw [tells.trace] at found
      rcases Machine.frame_of_traceFrom found with
        ⟨frame, inside, here, line, function, moduleName⟩
      rcases pursues _ frame (by omega) here with
        ⟨isFunction, start, instruction, carriesOut, behind, isCall⟩
      rcases Option.map_eq_some_iff.mp isFunction with ⟨active, there, same⟩
      rcases carriesOut.records lasted orderly recorded with ⟨_, records, rfl⟩
      rw [size] at there carriesOut isCall
      refine ⟨active, start, instruction, there, ?_, ?_, ?_, ?_, isCall⟩
      · rw [function, same]
      · rw [moduleName, same, tells.registry]
      · rwa [same]
      · rw [same, line]
        unfold Frame.line
        rw [behind]
        exact records

/-- A text whose second line calls a function that fails on the first line. -/
def tracedMachine : Machine :=
  { Machine.equipped with
    state :=
      ((HostRequest.compile .run "main" "fun f() { -null; }\nf();").perform
        Machine.equipped.state).2 }

/-- The body of the text is called. -/
def tracedCall : OuterCall :=
  .outermost tracedMachine.state (.function 1) []

/-- What the call tells of its failure. -/
def tracedError : RuntimeError where
  fault := .operandNotNumber
  trace :=
    [{ line := 1, function := "f", moduleName := "main" },
      { line := 2, function := "script", moduleName := "main" }]

/-- Six steps after its beginning the call has failed. -/
theorem tracedCall_fails :
    ∃ final, tracedCall.Fails quietEnvironment tracedError final := by
  have reports :
      (Machine.run quietEnvironment 6 (tracedCall.entered quietEnvironment)).outcome =
        OuterCall.reported (.error tracedError) := by
    cbv
  have begins : tracedCall.Reaches quietEnvironment (tracedCall.entered quietEnvironment) :=
    .entered
  exact ⟨_, (begins.run 6).returns_of_reported reports⟩

/-- Both frames are active when the function fails, the body on its second line. -/
theorem tracedCall_traces :
    ∃ now registry,
      tracedCall.Describes quietEnvironment now registry 1
          { line := 1, function := "f", moduleName := "main" } ∧
        tracedCall.Describes quietEnvironment now registry 0
          { line := 2, function := "script", moduleName := "main" } := by
  have leads : Machine.equipped.Leads quietEnvironment .compiled tracedMachine :=
    .single (.request rfl trivial)
  rcases tracedCall_fails with ⟨final, fails⟩
  have traced :=
    (fault_traces_active_frames .equipped leads).1 tracedCall rfl rfl tracedError final fails
  rcases traced with ⟨-, nothing⟩ | ⟨now, -, -, -, length, describes⟩
  · cases nothing
  · have bare : tracedCall.state.frames = #[] := (HostRequest.frames_perform _ _).2
    rw [bare] at length
    have size : (tracedCall.machineAt quietEnvironment now).state.frames.size = 2 := length.symm
    rw [size] at describes
    exact ⟨now, final.registry, describes 0 _ rfl, describes 1 _ rfl⟩

end ScriptEngine
