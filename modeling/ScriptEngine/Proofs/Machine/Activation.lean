import ScriptEngine.Machine.Run
import ScriptEngine.Proofs.Machine.Behaviour

/-!
# Activations

Below the callee of a call there are the functions and the calls from outside
that wait for its result.  `Below` describes them from the innermost outwards: a
waiting function goes on at a place of its code where the stack is as high as it
will be with the result in the place of the callee; a waiting host routine goes on
well with any result.

From this follow the conditions under which the machine can go on: the innermost
function is `Ready` to execute an instruction, a callee has `Returned`, or a fault
`Aborts` the innermost call from outside.
-/

namespace ScriptEngine

/-- A fault that code of the compiler never raises. -/
def Fault.isInternal : Fault → Bool
  | stackUnderflow | invalidConstant | invalidName | invalidLocal | unknownOpcode _
  | methodWithoutClass | containerInUse => true
  | _ => false

/-- Everything that waits for the result of a callee in a slot, innermost first. -/
inductive Below (known modules : Nat) : List Frame → List SubRun → Nat → Prop where
  /-- A function waits. -/
  | function
      {frame : Frame}
      {rest : List Frame}
      {subRuns : List SubRun}
      {height slot : Nat}
      (runs : frame.function.Runs known modules)
      (shape : frame.function.ShapeAt frame.offset (.plain height))
      (height : frame.base + height = slot + 1)
      (order : frame.base ≤ slot)
      (below : Below known modules rest subRuns frame.base) :
      Below known modules (frame :: rest) subRuns slot
  /-- The outermost call from outside; nothing is known about older frames. -/
  | outermost
      {frames : List Frame}
      {subRun : SubRun}
      {slot : Nat}
      (awaiting : subRun.awaiting = none)
      (mark : subRun.stackMark = slot)
      (depth : subRun.entryDepth = frames.length) :
      Below known modules frames [subRun] slot
  /-- A host routine waits for a call from outside that it has made. -/
  | nested
      {frames : List Frame}
      {subRun : SubRun}
      {subRuns : List SubRun}
      {slot : Nat}
      {call : HostCall}
      {next : Except RuntimeError Value → HostProgram}
      (awaiting : subRun.awaiting = some (call, next))
      (mark : subRun.stackMark = slot)
      (depth : subRun.entryDepth = frames.length)
      (order : call.slot < slot)
      (constructed : ∀ value, call.constructed = some value → value.Refers known)
      (behaves :
        ∀ more outcome,
          known ≤ more → OutcomeRefers more outcome → (next outcome).Behaves more [])
      (below : Below known modules frames subRuns call.slot) :
      Below known modules frames (subRun :: subRuns) slot

namespace Below

variable {known more modules others slot : Nat} {frames : List Frame} {subRuns : List SubRun}

theorem mono
    (below : Below known modules frames subRuns slot)
    (knownBound : known ≤ more)
    (modulesBound : modules ≤ others) :
    Below more others frames subRuns slot := by
  induction below with
  | function runs shape height order _ induction =>
      exact .function (runs.mono knownBound modulesBound) shape height order induction
  | outermost awaiting mark depth => exact .outermost awaiting mark depth
  | nested awaiting mark depth order constructed behaves _ induction =>
      refine .nested awaiting mark depth order ?_ ?_ induction
      · exact fun value isValue => (constructed value isValue).mono knownBound
      · exact fun most outcome bound => behaves most outcome (Nat.le_trans knownBound bound)

end Below

/-- The number of frames below those of the innermost call from outside. -/
def entryDepthOf : List SubRun → Nat
  | [] => 0
  | innermost :: _ => innermost.entryDepth

/-- How the innermost call from outside ends. -/
inductive Ends (known modules : Nat) (frames : List Frame) : List SubRun → Nat → Prop where
  | outermost
      {subRun : SubRun}
      (awaiting : subRun.awaiting = none) :
      Ends known modules frames [subRun] subRun.stackMark
  | nested
      {subRun : SubRun}
      {subRuns : List SubRun}
      {call : HostCall}
      {next : Except RuntimeError Value → HostProgram}
      (awaiting : subRun.awaiting = some (call, next))
      (order : call.slot < subRun.stackMark)
      (constructed : ∀ value, call.constructed = some value → value.Refers known)
      (behaves :
        ∀ more outcome,
          known ≤ more → OutcomeRefers more outcome → (next outcome).Behaves more [])
      (below : Below known modules frames subRuns call.slot) :
      Ends known modules frames (subRun :: subRuns) subRun.stackMark

namespace Below

variable {known modules slot : Nat} {frames : List Frame} {subRuns : List SubRun}

/-- Either a function waits or the call from outside ends. -/
theorem cases_depth (below : Below known modules frames subRuns slot) :
    entryDepthOf subRuns ≤ frames.length ∧
      (frames.length ≤ entryDepthOf subRuns → Ends known modules frames subRuns slot) := by
  induction below with
  | function _ _ _ _ _ induction =>
      rw [List.length_cons]
      constructor
      · omega
      · intro bound
        omega
  | outermost awaiting mark depth =>
      subst mark
      exact ⟨Nat.le_of_eq depth, fun _ => .outermost awaiting⟩
  | nested awaiting mark depth order constructed behaves below _ =>
      subst mark
      exact ⟨Nat.le_of_eq depth, fun _ => .nested awaiting order constructed behaves below⟩

/-- The call from outside around any number of functions. -/
theorem unwind (below : Below known modules frames subRuns slot) :
    ∃ above outer mark,
      frames = above ++ outer ∧
        outer.length = entryDepthOf subRuns ∧
        mark ≤ slot ∧
        Ends known modules outer subRuns mark := by
  induction below with
  | function _ _ _ order _ induction =>
      rcases induction with ⟨above, outer, mark, rfl, depth, bound, ends⟩
      exact ⟨_ :: above, outer, mark, rfl, depth, Nat.le_trans bound order, ends⟩
  | outermost awaiting mark depth =>
      subst mark
      exact ⟨[], _, _, rfl, depth.symm, Nat.le_refl _, .outermost awaiting⟩
  | nested awaiting mark depth order constructed behaves below _ =>
      subst mark
      exact ⟨[], _, _, rfl, depth.symm, Nat.le_refl _,
        .nested awaiting order constructed behaves below⟩

end Below

/-! ## Conditions under which the machine goes on -/

namespace State

/-- The number of functions that values of the state can refer to. -/
abbrev known (state : State) : Nat :=
  state.heap.functions.size

/-- The active functions, innermost first. -/
abbrev activeFrames (state : State) : List Frame :=
  state.frames.toList.reverse

/-- What waits for the result of a callee in a slot. -/
abbrev Waits (state : State) (frames : List Frame) (subRuns : List SubRun) (slot : Nat) : Prop :=
  Below state.known state.registry.modules.size frames subRuns slot

/-- The class of which a mark tells is where the mark says. -/
def MarkHolds (state : State) (function : Function) : Mark → Prop
  | .plain => True
  | .classOnTop => ∃ id, state.stack.back? = some (.classObject id)
  | .classBelowTop => ∃ id, state.stack[state.stack.size - 2]? = some (.classObject id)
  | .classInSlot slot =>
    ∀ value,
      (state.registry.moduleAt function.home).get? slot.toNat = some value →
        ∃ id, value = .classObject id

/-- A frame is the innermost one and has a number of values on the stack. -/
structure Active (state : State) (frame : Frame) (rest : List Frame) (subRuns : List SubRun)
    (height : Nat) : Prop where
  sound : state.Sound []
  frames : state.activeFrames = frame :: rest
  runs : frame.function.Runs state.known state.registry.modules.size
  height : frame.base + height = state.stack.size
  below : state.Waits rest subRuns frame.base

/-- The innermost function is about to execute an instruction. -/
structure ReadyAt (state : State) (frame : Frame) (rest : List Frame) (subRuns : List SubRun)
    (shape : Shape) : Prop where
  active : state.Active frame rest subRuns shape.height
  shaped : frame.function.ShapeAt frame.offset shape
  mark : state.MarkHolds frame.function shape.mark

/-- Some function is about to execute an instruction. -/
def Ready (state : State) (subRuns : List SubRun) : Prop :=
  ∃ frame rest shape, state.ReadyAt frame rest subRuns shape

/-- A callee in a slot has been replaced by its result. -/
structure Returned (state : State) (subRuns : List SubRun) (slot : Nat) : Prop where
  sound : state.Sound []
  height : state.stack.size = slot + 1
  below : state.Waits state.activeFrames subRuns slot

/-- A fault that ends the innermost call from outside. -/
structure Aborts (subRuns : List SubRun) (interruption : Interruption) (state : State) :
    Prop where
  fault : ∃ fault, interruption = .fault fault ∧ fault.isInternal = false
  sound : state.Sound []
  unwinds :
    ∃ above frames slot,
      state.activeFrames = above ++ frames ∧
        slot ≤ state.stack.size ∧
        state.Waits frames subRuns slot

/-- What holds after an action that was not interrupted. -/
def Continues (subRuns : List SubRun) (transition : Transition) (state : State) : Prop :=
  match transition with
  | .proceed => state.Ready subRuns ∨ ∃ slot, state.Returned subRuns slot
  | .enterHost call program =>
    state.Sound [] ∧
      state.Waits state.activeFrames subRuns call.slot ∧
      call.slot < state.stack.size ∧
      (∀ value, call.constructed = some value → value.Refers state.known) ∧
      program.Behaves state.known []
  | .finished value =>
    state.Sound [] ∧
      value.Refers state.known ∧
      Ends state.known state.registry.modules.size state.activeFrames subRuns state.stack.size

variable
  {state : State}
  {frame : Frame}
  {rest : List Frame}
  {subRuns : List SubRun}
  {height slot : Nat}

/-- Any fault of the compiled program ends a call in which a function is active. -/
theorem Active.aborts
    (active : state.Active frame rest subRuns height)
    {fault : Fault}
    (external : fault.isInternal = false) :
    Aborts subRuns (.fault fault) state where
  fault := ⟨fault, rfl, external⟩
  sound := active.sound
  unwinds := by
    refine ⟨[frame], rest, frame.base, active.frames, ?_, active.below⟩
    have total := active.height
    omega

theorem aborts_of_waits
    (sound : state.Sound [])
    (below : state.Waits state.activeFrames subRuns slot)
    (bound : slot ≤ state.stack.size)
    {fault : Fault}
    (external : fault.isInternal = false) :
    Aborts subRuns (.fault fault) state :=
  ⟨⟨fault, rfl, external⟩, sound, [], _, slot, rfl, bound, below⟩

/-- A result ends the call from outside or lets a function go on. -/
theorem Returned.ready
    (returned : state.Returned subRuns slot)
    (deeper : entryDepthOf subRuns < state.frames.size) :
    state.Ready subRuns := by
  rcases returned with ⟨sound, size, below⟩
  have length : state.activeFrames.length = state.frames.size := by
    simp
  rcases frames : state.activeFrames with _ | ⟨frame, rest⟩
  · rw [frames] at length
    simp only [List.length_nil] at length
    omega
  · rw [frames] at below length
    cases below with
    | function runs shape height order below =>
        refine ⟨frame, rest, _, ⟨sound, frames, runs, ?_, below⟩, shape, trivial⟩
        exact height.trans size.symm
    | outermost _ _ depth =>
        simp only [entryDepthOf] at deeper
        omega
    | nested _ _ depth =>
        simp only [entryDepthOf] at deeper
        omega

/-! ## Values on the stack of the innermost function -/

theorem modify_last (items : List α) (last : α) (change : α → α) :
    (items ++ [last]).modify items.length change = items ++ [change last] := by
  induction items with
  | nil => rfl
  | cons item items induction => simp [induction]

namespace Active

theorem push
    (active : state.Active frame rest subRuns height)
    {value : Value}
    (refers : value.Refers state.known) :
    Active { state with stack := state.stack.push value } frame rest subRuns (height + 1) where
  sound := active.sound.withStack (forall_mem_push active.sound.stack refers)
  frames := active.frames
  runs := active.runs
  height := by
    have total := active.height
    simp only [Array.size_push]
    omega
  below := active.below

theorem pop (active : state.Active frame rest subRuns (height + 1)) :
    Active { state with stack := state.stack.pop } frame rest subRuns height where
  sound := by
    apply active.sound.withStack
    intro value member
    exact active.sound.stack value (mem_of_mem_pop member)
  frames := active.frames
  runs := active.runs
  height := by
    have total := active.height
    simp only [Array.size_pop]
    omega
  below := active.below

/-- A change of the heap that keeps the functions. -/
theorem withHeap
    (active : state.Active frame rest subRuns height)
    {heap : Heap}
    (sound : heap.Sound state.known [])
    (same : heap.functions = state.heap.functions) :
    Active { state with heap } frame rest subRuns height where
  sound := active.sound.withHeap same sound
  frames := active.frames
  runs := by
    simp only [known, same]
    exact active.runs
  height := active.height
  below := by
    simp only [Waits, known, same]
    exact active.below

/-- A change of the modules that keeps their number. -/
theorem withRegistry
    (active : state.Active frame rest subRuns height)
    {registry : Registry}
    (sound : registry.Sound state.known)
    (same : registry.modules.size = state.registry.modules.size) :
    Active { state with registry } frame rest subRuns height where
  sound := active.sound.withRegistry sound (Nat.le_of_eq same.symm)
  frames := active.frames
  runs := by
    simp only [same]
    exact active.runs
  height := active.height
  below := by
    simp only [Waits, same]
    exact active.below

theorem withJournal (active : state.Active frame rest subRuns height) (journal : Journal) :
    Active { state with journal } frame rest subRuns height :=
  ⟨⟨active.sound.stack, active.sound.heap, active.sound.functions, active.sound.registry⟩,
    active.frames, active.runs, active.height, active.below⟩

theorem setSlot
    (active : state.Active frame rest subRuns height)
    (position : Nat)
    {value : Value}
    (refers : value.Refers state.known) :
    Active { state with stack := state.stack.setIfInBounds position value } frame rest subRuns
      height where
  sound := active.sound.withStack (forall_mem_setIfInBounds active.sound.stack refers position)
  frames := active.frames
  runs := active.runs
  height := by
    simp only [Array.size_setIfInBounds]
    exact active.height
  below := active.below

/-- The innermost frame is the last one. -/
theorem back (active : state.Active frame rest subRuns height) :
    state.frames.back? = some frame := by
  have whole := congrArg List.reverse active.frames
  rw [List.reverse_reverse] at whole
  rw [← Array.getLast?_toList, whole]
  simp

theorem moveTo (active : state.Active frame rest subRuns height) (offset : Nat) :
    Active
      { state with
        frames := state.frames.modify (state.frames.size - 1) fun frame => { frame with offset } }
      { frame with offset } rest subRuns height where
  sound := ⟨active.sound.stack, active.sound.heap, active.sound.functions, active.sound.registry⟩
  frames := by
    have whole := congrArg List.reverse active.frames
    rw [List.reverse_reverse, List.reverse_cons] at whole
    have size : state.frames.size - 1 = rest.reverse.length := by
      rw [← Array.length_toList, whole]
      simp
    show (state.frames.modify (state.frames.size - 1) _).toList.reverse = _
    rw [Array.toList_modify, whole, size, modify_last]
    simp
  runs := active.runs
  height := active.height
  below := active.below

end Active

end State

end ScriptEngine
