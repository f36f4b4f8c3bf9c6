import ScriptEngine.Proofs.Machine.History

/-!
# The instruction that a machine is about to carry out

`Machine.Executes` says which instruction comes next and in which frame.  Reading it
moves the frame (`State.fetched`) and touches nothing that scripts can see; then the
instruction is carried out (`Machine.Executes.step_eq`).

A script is executed in a frame of the innermost call from outside, whatever code
the machine runs (`Machine.Arises.inFrame`).
-/

namespace ScriptEngine

/-- A constant of the function of a frame is a name. -/
def Frame.HasName (frame : Frame) (index : UInt16) (name : String) : Prop :=
  frame.function.chunk.constants[index.toNat]? = some (.string name)

/-- The innermost frame is about to carry out an instruction. -/
structure Machine.Executes (machine : Machine) (frame : Frame) (instruction : Instruction) :
    Prop where
  control : machine.control = .script
  innermost : machine.state.frames.back? = some frame
  decoded : Instruction.decode frame.function.chunk.code frame.offset = .complete instruction

/-! ## Reading the instruction -/

namespace State

/-- The state when the step has been recorded, if steps are. -/
def recorded (environment : Environment) (state : State) : State :=
  if environment.settings.trace then (Action.recordStep state).2 else state

/-- The state when the innermost frame has been moved behind an instruction. -/
def fetched (environment : Environment) (frame : Frame) (instruction : Instruction)
    (state : State) : State :=
  (Action.moveTo (frame.offset + instruction.length) (state.recorded environment)).2

section Recorded

variable (environment : Environment) (state : State)

@[simp]
theorem stack_recorded : (state.recorded environment).stack = state.stack := by
  unfold recorded
  split <;> rfl

@[simp]
theorem frames_recorded : (state.recorded environment).frames = state.frames := by
  unfold recorded
  split <;> rfl

@[simp]
theorem heap_recorded : (state.recorded environment).heap = state.heap := by
  unfold recorded
  split <;> rfl

@[simp]
theorem registry_recorded : (state.recorded environment).registry = state.registry := by
  unfold recorded
  split <;> rfl

@[simp]
theorem loads_recorded : (state.recorded environment).journal.loads = state.journal.loads := by
  unfold recorded
  split <;> rfl

end Recorded

variable {environment : Environment} {frame : Frame} {instruction : Instruction} {state : State}

@[simp]
theorem stack_fetched :
    (state.fetched environment frame instruction).stack = state.stack :=
  stack_recorded environment state

@[simp]
theorem heap_fetched :
    (state.fetched environment frame instruction).heap = state.heap :=
  heap_recorded environment state

@[simp]
theorem registry_fetched :
    (state.fetched environment frame instruction).registry = state.registry :=
  registry_recorded environment state

@[simp]
theorem loads_fetched :
    (state.fetched environment frame instruction).journal.loads = state.journal.loads :=
  loads_recorded environment state

@[simp]
theorem size_frames_fetched :
    (state.fetched environment frame instruction).frames.size = state.frames.size := by
  show ((state.recorded environment).frames.modify _ _).size = _
  rw [Array.size_modify, frames_recorded]

/-- The innermost frame is the same but for its place. -/
theorem back?_moveTo
    (innermost : state.frames.back? = some frame)
    (offset : Nat) :
    (Action.moveTo offset state).2.frames.back? = some { frame with offset } := by
  show (state.frames.modify (state.frames.size - 1) _).back? = _
  rw [Array.back?_eq_getElem?, Array.size_modify, Array.getElem?_modify, if_pos rfl,
    ← Array.back?_eq_getElem?, innermost]
  rfl

theorem back?_fetched (innermost : state.frames.back? = some frame) :
    (state.fetched environment frame instruction).frames.back? =
      some { frame with offset := frame.offset + instruction.length } := by
  apply back?_moveTo
  rw [frames_recorded]
  exact innermost

end State

namespace Action

variable {environment : Environment} {state : State} {frame : Frame}

/-- A jump forwards moves the innermost frame. -/
theorem skip_eq (innermost : state.frames.back? = some frame) (distance : Nat) :
    skip distance state = moveTo (frame.offset + distance) state := by
  unfold skip Action.frame
  rw [look_bind, innermost]
  rfl

/-- A jump backwards moves the innermost frame, unless it leads past the beginning. -/
theorem skipBack_eq (innermost : state.frames.back? = some frame) (distance : Nat) :
    skipBack distance state =
      if distance ≤ frame.offset then moveTo (frame.offset - distance) state
      else (.error .stuck, state) := by
  unfold skipBack Action.frame
  rw [look_bind, innermost]
  dsimp only [Option.getD_some]
  split <;> rfl

/-- The names of the innermost function can be read. -/
theorem name_of_hasName
    (innermost : state.frames.back? = some frame)
    {index : UInt16}
    {name : String}
    (named : frame.HasName index name) :
    Action.name index state = (.ok name, state) := by
  have found : constant index.toNat state = (.ok (.string name), state) := by
    unfold constant Action.frame
    rw [look_bind, innermost, Option.getD_some, Chunk.constant?_eq_getElem?, named]
    rfl
  unfold Action.name
  rw [bind_of_ok found]
  rfl

/-- An instruction is read; the name of a method is looked up on the way. -/
theorem fetch_of_named
    (innermost : state.frames.back? = some frame)
    (instruction : Instruction)
    (named :
      ∀ index argumentCount,
        instruction = .invoke index argumentCount → ∃ name, frame.HasName index name) :
    fetch frame.offset instruction state =
      (.ok (), (moveTo (frame.offset + instruction.length) state).2) := by
  unfold fetch
  split
  · rename_i index argumentCount
    rcases named index argumentCount rfl with ⟨name, hasName⟩
    have moved := State.back?_moveTo innermost (frame.offset + 3)
    have there : moveTo (frame.offset + 3) state =
        (.ok (), (moveTo (frame.offset + 3) state).2) := rfl
    rw [bind_of_ok there, bind_of_ok (name_of_hasName moved hasName)]
    unfold moveTo change
    simp only [Array.size_modify]
    congr 2
    apply Array.ext_getElem?
    intro position
    simp only [Array.getElem?_modify]
    split
    · rw [Option.map_map]
      rfl
    · rfl
  · rfl

/-- The instruction that is read is carried out. -/
theorem step_of_decoded
    (innermost : state.frames.back? = some frame)
    {instruction : Instruction}
    (decoded : Instruction.decode frame.function.chunk.code frame.offset = .complete instruction)
    (named :
      ∀ index argumentCount,
        instruction = .invoke index argumentCount → ∃ name, frame.HasName index name)
    (entryDepth : Nat) :
    step environment entryDepth state =
      execute environment entryDepth instruction (state.fetched environment frame instruction) := by
  have fetches :
      ∀ current : State,
        current.frames.back? = some frame →
          (do
            fetch frame.offset instruction
            execute environment entryDepth instruction) current =
            execute environment entryDepth instruction
              (moveTo (frame.offset + instruction.length) current).2 :=
    fun current last => bind_of_ok (fetch_of_named last instruction named) _
  unfold step State.fetched State.recorded
  by_cases traced : environment.settings.trace = true
  · have last : (recordStep state).2.frames.back? = some frame := innermost
    have records : recordStep state = (.ok (), (recordStep state).2) := rfl
    simp only [if_pos traced]
    rw [bind_of_ok records]
    show (look _ >>= _) (recordStep state).2 = _
    rw [look_bind]
    simp only [last, Option.getD_some, decoded]
    exact fetches _ last
  · simp only [if_neg traced]
    show (look _ >>= _) state = _
    rw [look_bind]
    simp only [innermost, Option.getD_some, decoded]
    exact fetches _ innermost

end Action

namespace Machine

variable {environment : Environment} {machine : Machine}

/-- The innermost frame is moved and the instruction is carried out. -/
theorem Executes.step_eq
    {frame : Frame}
    {instruction : Instruction}
    (executes : machine.Executes frame instruction)
    (named :
      ∀ index argumentCount,
        instruction = .invoke index argumentCount → ∃ name, frame.HasName index name) :
    machine.step environment =
      settle .script machine.subRuns
        (Action.execute environment machine.entryDepth instruction
          (machine.state.fetched environment frame instruction)) := by
  rcases machine with ⟨state, control, subRuns⟩
  rcases executes with ⟨isScript, innermost, decoded⟩
  cases isScript
  exact congrArg (settle .script subRuns) (Action.step_of_decoded innermost decoded named _)

/-! ## Frames of the innermost call -/

/-- A script is executed in a frame of the innermost call from outside. -/
def InFrame (machine : Machine) : Prop :=
  machine.control = .script → machine.entryDepth < machine.state.frames.size

theorem inFrame_conclude (machine : Machine) (outcome : Except RuntimeError Value) :
    (machine.conclude outcome).InFrame := by
  rcases machine with ⟨state, control, _ | ⟨⟨mark, depth, _ | ⟨call, next⟩⟩, outer⟩⟩ <;> exact nofun

theorem inFrame_raise (machine : Machine) (fault : Fault) : (machine.raise fault).InFrame := by
  unfold raise
  split <;> exact inFrame_conclude _ _

theorem inFrame_resume (machine : Machine) : machine.resume.InFrame := by
  unfold resume
  split
  · rename_i inside
    exact fun _ => inside
  · split
    · exact inFrame_conclude _ _
    · exact inFrame_raise _ _

theorem inFrame_settle
    (control : Control)
    (subRuns : List SubRun)
    (result : Except Interruption Transition × State) :
    (settle control subRuns result).InFrame := by
  unfold settle
  split
  · exact inFrame_resume _
  · exact nofun
  · exact inFrame_conclude _ _
  · exact inFrame_raise _ _
  · exact nofun

theorem inFrame_step (machine : Machine) : (machine.step environment).InFrame := by
  unfold step
  split
  · exact inFrame_settle _ _ _
  · exact inFrame_settle _ _ _
  · exact inFrame_raise _ _
  · exact nofun
  · exact nofun
  · exact inFrame_settle _ _ _
  · exact nofun
  · exact nofun

theorem Arises.inFrame
    {supply : Supply}
    (arises : machine.Arises environment supply) :
    machine.InFrame := by
  rcases arises with ⟨first, fresh, leads⟩
  cases leads with
  | refl => cases fresh <;> exact nofun
  | @tail before _ _ event =>
      cases event with
      | step => exact inFrame_step _
      | call => exact inFrame_settle _ _ _
      | request idle | assign idle | write idle | takeRecords idle =>
          intro isScript
          change before.control = .script at isScript
          rw [isScript] at idle
          cases idle

end Machine

end ScriptEngine
