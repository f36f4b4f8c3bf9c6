import ScriptEngine.Proofs.Machine.Engine

/-!
# Compiled programs never go wrong

In every run that an engine starts, whatever was done with the engine before, no
step raises one of the faults that tell of broken code, and nothing is looked up
outside the code, the stack, the frames or the modules.
-/

namespace ScriptEngine

open State

/-- Everything that an instruction looks up is where it looks. -/
structure Frame.InRange (state : State) (frame : Frame) (instruction : Instruction) : Prop where
  decoded : Instruction.decode frame.function.chunk.code frame.offset = .complete instruction
  /-- The operands belong to the code. -/
  code : frame.offset + instruction.length ≤ frame.function.chunk.code.size
  /-- Execution goes on inside the code. -/
  successors :
    ∀ target ∈ instruction.successors frame.offset, target < frame.function.chunk.code.size
  /-- A backward jump does not lead past the beginning. -/
  backward : ∀ distance, instruction = .loop distance → distance.toNat ≤ frame.offset + 3
  /-- The values that are taken from the top belong to the function. -/
  stack : frame.base + instruction.takes < state.stack.size
  /-- Constants, names and local variables exist. -/
  operands :
    ∃ slots,
      CodeContext.Admits { constants := frame.function.chunk.constants, slots }
        (state.stack.size - frame.base) instruction
  home : frame.function.home < state.registry.modules.size

/--
An action is interrupted by faults of the program only, and never below the
frames of its call; a call without functions left has a value on the stack.
-/
def Action.GoesRight (action : Action Transition) (state : State) (depth : Nat) : Prop :=
  action.Ensures state
    (fun transition after =>
      transition = .proceed → depth < after.frames.size ∨ 0 < after.stack.size)
    (fun interruption after =>
      depth ≤ after.frames.size ∧ ∃ fault, interruption = .fault fault ∧ fault.isInternal = false)

namespace Machine

/-- Nothing goes wrong in the next step. -/
structure GoesRight (environment : Environment) (machine : Machine) : Prop where
  notStuck : machine.control ≠ .stuck
  /-- A function is executed in a frame of the innermost call from outside. -/
  script :
    machine.control = .script →
      machine.entryDepth < machine.state.frames.size ∧
        ∃ frame instruction,
          machine.state.frames.back? = some frame ∧ frame.InRange machine.state instruction
  /-- The frames of the innermost call are above those of the calls around it. -/
  depth : machine.isOver = false → machine.entryDepth ≤ machine.state.frames.size
  /-- Names of modules stand for modules that exist, and so does the seed of all modules. -/
  modules :
    Registry.builtin < machine.state.registry.modules.size ∧
      ∀ name id,
        machine.state.registry.find? name = some id → id < machine.state.registry.modules.size
  action :
    ∀ action subRuns,
      machine.nextAction? environment = some (action, subRuns) →
        action.GoesRight machine.state (entryDepthOf subRuns)

/-- The machines of a call that an engine makes. -/
inductive Reached (engine : Engine) (callee : Value) (arguments : List Value) : Machine → Prop where
  | start :
      Reached engine callee arguments
        (start engine.environment engine.state [] callee arguments none)
  | step {machine : Machine} (before : Reached engine callee arguments machine) :
      Reached engine callee arguments (machine.step engine.environment)

end Machine

namespace Action

variable {state : State} {subRuns : List SubRun} {action : Action Transition}

theorem goesRight_of_ensures
    (ensures : action.Ensures state (Continues subRuns) (Aborts subRuns)) :
    action.GoesRight state (entryDepthOf subRuns) := by
  unfold GoesRight
  unfold Ensures at ensures ⊢
  rcases outcome : action state with ⟨interruption | transition, after⟩
  · rw [outcome] at ensures
    refine ⟨?_, ensures.fault⟩
    rcases ensures.unwinds with ⟨above, frames, slot, split, -, below⟩
    have depth := below.cases_depth.1
    have count := congrArg List.length split
    simp only [List.length_append, List.length_reverse, Array.length_toList] at count
    omega
  · rw [outcome] at ensures
    rintro rfl
    rcases ensures with ready | ⟨slot, returned⟩
    · exact .inl (Machine.entryDepth_lt_of_ready ready)
    · have size := returned.height
      exact .inr (by omega)

end Action

namespace Machine

variable {environment : Environment} {machine : Machine}

theorem inRange_of_ready
    {state : State}
    {subRuns : List SubRun}
    (ready : state.Ready subRuns) :
    ∃ frame instruction,
      state.frames.back? = some frame ∧ frame.InRange state instruction := by
  rcases ready with ⟨frame, rest, shape, active, shaped, mark⟩
  rcases shaped.steps with ⟨instruction, steps⟩
  have total := active.height
  have height : state.stack.size - frame.base = shape.height := by
    omega
  refine ⟨frame, instruction, active.back, steps.decoded, steps.inside, ?_, steps.backward, ?_, ?_,
    active.runs.home⟩
  · intro target member
    rcases (steps.passes target member).steps with ⟨next, following⟩
    have positive := next.length_pos
    have inside := following.inside
    omega
  · have takes := steps.takes
    omega
  · rw [height]
    exact steps.operands

/-- The state of a sound machine has its modules in order, and enough frames. -/
theorem Sound.frames (sound : machine.Sound) :
    (machine.isOver = false → machine.entryDepth ≤ machine.state.frames.size) ∧
      machine.state.registry.Sound machine.state.known := by
  rcases machine with ⟨state, control, subRuns⟩
  rw [entryDepth_eq]
  cases control with
  | script =>
      have depth := entryDepth_lt_of_ready sound
      rcases sound with ⟨frame, rest, shape, active, -, -⟩
      exact ⟨fun _ => Nat.le_of_lt depth, active.sound.registry⟩
  | host call program =>
      rcases sound with ⟨held, stateSound, below, -⟩
      have depth := below.cases_depth.1
      exact ⟨fun _ => by simpa using depth, stateSound.registry⟩
  | ended outcome => exact ⟨nofun, sound.1.registry⟩
  | stuck => cases sound

/-- Nothing goes wrong in a machine that satisfies the invariant. -/
theorem Sound.goesRight
    (behaves : environment.host.Behaves)
    (sound : machine.Sound) :
    machine.GoesRight environment where
  notStuck := by
    intro isStuck
    unfold Machine.Sound at sound
    rw [isStuck] at sound
    exact sound
  script := by
    intro isScript
    unfold Machine.Sound at sound
    rw [isScript] at sound
    rw [entryDepth_eq]
    exact ⟨entryDepth_lt_of_ready sound, inRange_of_ready sound⟩
  depth := sound.frames.1
  modules := ⟨sound.frames.2.nonempty, sound.frames.2.inside⟩
  action := by
    intro action subRuns isNext
    exact Action.goesRight_of_ensures (nextAction_ensures behaves sound isNext)

theorem Reached.sound
    {engine : Engine}
    {callee : Value}
    {arguments : List Value}
    (engineSound : engine.Sound)
    (calleeRefers : callee.Refers engine.state.known)
    (argumentsRefer : ∀ argument ∈ arguments, argument.Refers engine.state.known)
    (reached : Reached engine callee arguments machine) :
    machine.Sound := by
  induction reached with
  | start =>
      exact sound_start_outermost engineSound.behaves engineSound.state calleeRefers argumentsRefer
  | step _ induction => exact sound_step engineSound.behaves induction

end Machine

/--
Whatever was done with an engine, and whatever it calls, nothing goes wrong: not
when the call is entered and not in any step that follows.
-/
theorem compiled_programs_go_right
    {environment : Environment}
    (behaves : environment.host.Behaves)
    {engine : Engine}
    (reached : engine.Reached environment)
    {callee : Value}
    (calleeRefers : callee.Refers engine.state.known)
    {arguments : List Value}
    (argumentsRefer : ∀ argument ∈ arguments, argument.Refers engine.state.known) :
    (Machine.enter engine.environment 1 callee arguments).GoesRight engine.state
        engine.state.frames.size ∧
      ∀ machine,
        Machine.Reached engine callee arguments machine →
          machine.GoesRight engine.environment := by
  have sound := reached.sound behaves
  constructor
  · have below :
        engine.state.Waits engine.state.activeFrames
          [{ stackMark := engine.state.stack.size, entryDepth := engine.state.frames.size,
             awaiting := none }]
          engine.state.stack.size :=
      .outermost rfl rfl (by simp)
    exact Action.goesRight_of_ensures
      (Machine.enter_ensures sound.behaves sound.state below calleeRefers argumentsRefer 1)
  · intro machine isReached
    exact (isReached.sound sound calleeRefers argumentsRefer).goesRight sound.behaves

/-- A host whose routines call their first argument and pass on what becomes of it. -/
def callbackHost : Host :=
  fun _ _ arguments =>
    .call (arguments.headD .null) [] fun
      | .ok value => .finish value
      | .error error => .fail error.message

theorem behaves_callbackHost : callbackHost.Behaves := by
  intro key known receiver arguments _ argumentsRefer
  refine ⟨rfl, Container.headD_good argumentsRefer, List.forall_mem_nil _, ?_⟩
  intro more outcome _ refers
  cases outcome with
  | ok value => exact ⟨rfl, refers value rfl⟩
  | error error => rfl

/-- An engine with a text in which a host routine calls a function of the text. -/
def callbackEngine : Engine :=
  (((Engine.create { settings := {}, host := callbackHost }).registerFunction ""
    { name := "apply", arity := .exactly 1, routine := .host "apply" }).compileIn .run "main"
      "fun f() \x7b return true; \x7d print apply(f);").2

/-- The body of the text is there, and calling it does not go wrong. -/
theorem callbackEngine_goes_right :
    callbackEngine.state.heap.functions.size = 2 ∧
      ∀ machine,
        Machine.Reached callbackEngine (.function 1) [] machine →
          machine.GoesRight callbackEngine.environment := by
  have compiled : callbackEngine.state.heap.functions.size = 2 := by
    cbv
  have isKnown : (Value.function 1).Refers callbackEngine.state.known := by
    show 1 < callbackEngine.state.heap.functions.size
    rw [compiled]
    exact Nat.one_lt_two
  refine ⟨compiled, ?_⟩
  exact (compiled_programs_go_right behaves_callbackHost
    (.compile (.registerFunction .create _ _) .run "main" _) isKnown (List.forall_mem_nil _)).2

end ScriptEngine
