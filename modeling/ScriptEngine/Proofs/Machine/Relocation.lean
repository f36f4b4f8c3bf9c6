import ScriptEngine.Proofs.Machine.Ground

/-!
# Calls on the ground

A call from outside has frames and nested calls of its own, and the innermost of
its functions has a number of values on the stack.  `Relative.Waiting` describes
what waits for the result of a callee, from the innermost outwards to the beginning
of the call; nothing is assumed about what lies beneath.

Calling a value does in the actual state what it does in the relative state
(`Action.callValue_goes`), and leads to a state from which the machine can go on.
-/

namespace ScriptEngine

namespace Relative

/-- Everything in a call that waits for the result of a callee in a slot, innermost first. -/
inductive Waiting : List Frame → List SubRun → Nat → Prop where
  /-- A function waits. -/
  | function
      {frame : Frame}
      {rest : List Frame}
      {subRuns : List SubRun}
      {height slot : Nat}
      (shape : frame.function.ShapeAt frame.offset (.plain height))
      (height : frame.base + height = slot + 1)
      (order : frame.base ≤ slot)
      (outer : Waiting rest subRuns frame.base) :
      Waiting (frame :: rest) subRuns slot
  /-- The call itself began on nothing. -/
  | beginning
      {subRun : SubRun}
      (awaiting : subRun.awaiting = none)
      (mark : subRun.stackMark = 0)
      (depth : subRun.entryDepth = 0) :
      Waiting [] [subRun] 0
  /-- A host routine waits for a call from outside that it has made. -/
  | nested
      {frames : List Frame}
      {subRun : SubRun}
      {subRuns : List SubRun}
      {slot : Nat}
      {call : HostCall}
      {next : Except RuntimeError Value → HostProgram}
      (awaiting : subRun.awaiting = some (call, next))
      (mark : subRun.stackMark = slot)
      (depth : subRun.entryDepth = frames.length)
      (order : call.slot < slot)
      (outer : Waiting frames subRuns call.slot) :
      Waiting frames (subRun :: subRuns) slot

/-- A frame is the innermost one and has a number of values on the stack. -/
structure Active (state : State) (frame : Frame) (rest : List Frame) (subRuns : List SubRun)
    (height : Nat) : Prop where
  frames : state.activeFrames = frame :: rest
  size : state.stack.size = frame.base + height
  waiting : Waiting rest subRuns frame.base

/-- A function that can execute instructions, or has none at all. -/
def Startable (function : Function) (offset height : Nat) : Prop :=
  function.chunk.code = #[] ∨
    ∃ shape : Shape, shape.height = height ∧ function.ShapeAt offset shape

/-- The innermost function is about to execute an instruction. -/
def Ready (state : State) (subRuns : List SubRun) : Prop :=
  ∃ frame rest height,
    Active state frame rest subRuns height ∧ Startable frame.function frame.offset height

/-- A callee in a slot has been replaced by its result. -/
structure Returned (state : State) (subRuns : List SubRun) (slot : Nat) : Prop where
  size : state.stack.size = slot + 1
  waiting : Waiting state.activeFrames subRuns slot

/-- Frames and values can be cut back to where the innermost call from outside began. -/
def Unwinds (subRuns : List SubRun) (state : State) : Prop :=
  ∃ above frames slot,
    state.activeFrames = above ++ frames ∧
      slot ≤ state.stack.size ∧
      Waiting frames subRuns slot

/-- What holds after an action that was not interrupted. -/
def Continues (subRuns : List SubRun) (transition : Transition) (state : State) : Prop :=
  match transition with
  | .proceed => Ready state subRuns ∨ ∃ slot, Returned state subRuns slot
  | .enterHost call _ =>
    Waiting state.activeFrames subRuns call.slot ∧ call.slot < state.stack.size
  | .finished _ =>
    Waiting state.activeFrames subRuns state.stack.size ∧
      state.frames.size ≤ entryDepthOf subRuns

theorem Active.unwinds
    {state : State}
    {frame : Frame}
    {rest : List Frame}
    {subRuns : List SubRun}
    {height : Nat}
    (active : Active state frame rest subRuns height) :
    Unwinds subRuns state := by
  refine ⟨[frame], rest, frame.base, active.frames, ?_, active.waiting⟩
  have size := active.size
  omega

theorem Active.nonempty
    {state : State}
    {frame : Frame}
    {rest : List Frame}
    {subRuns : List SubRun}
    {height : Nat}
    (active : Active state frame rest subRuns height) :
    0 < state.frames.size := by
  have length := congrArg List.length active.frames
  simp only [State.activeFrames, List.length_reverse, Array.length_toList, List.length_cons]
    at length
  omega

theorem Active.back
    {state : State}
    {frame : Frame}
    {rest : List Frame}
    {subRuns : List SubRun}
    {height : Nat}
    (active : Active state frame rest subRuns height) :
    state.frames.back?.getD default = frame := by
  have whole := congrArg List.reverse active.frames
  rw [List.reverse_reverse] at whole
  rw [← Array.getLast?_toList, whole]
  simp

/-- Every function of an orderly heap can be started, and so can one that is missing. -/
theorem startable_function
    {state : State}
    (orderly : state.Orderly)
    (id : Nat) :
    Startable (state.heap.function id) 0 ((state.heap.function id).arity + 1) := by
  unfold Heap.function
  rw [Array.getD_eq_getD_getElem?]
  rcases found : state.heap.functions[id]? with _ | function
  · exact .inl rfl
  · exact .inr ⟨_, rfl, (orderly.functions function (Array.mem_of_getElem? found)).shapeAt_zero⟩

end Relative

namespace Action

open Relative

/-- Two actions lead to the same, from where the machine can go on. -/
def Goes (ground : Ground) (subRuns : List SubRun) (upper lower : Action Transition)
    (actual relative : State) : Prop :=
  upper.Tracks lower actual relative
    (fun transition counterpart actual relative =>
      transition = counterpart.raised ground.height ∧
        ground.Carries relative actual ∧
        Continues subRuns counterpart relative)
    (fun actual relative => ground.Carries relative actual ∧ Unwinds subRuns relative)

/-- Callee and arguments are on the stack. -/
structure Calling (ground : Ground) (actual relative : State) (subRuns : List SubRun)
    (slot argumentCount : Nat) : Prop where
  carries : ground.Carries relative actual
  size : relative.stack.size = slot + argumentCount + 1
  waiting : Waiting relative.activeFrames subRuns slot

namespace Calling

variable
  {ground : Ground}
  {actual relative : State}
  {subRuns : List SubRun}
  {slot argumentCount : Nat}

theorem relativeSlot (calling : Calling ground actual relative subRuns slot argumentCount) :
    relative.stack.size - argumentCount - 1 = slot := by
  have size := calling.size
  omega

theorem actualSlot (calling : Calling ground actual relative subRuns slot argumentCount) :
    actual.stack.size - argumentCount - 1 = ground.height + slot := by
  have size := calling.size
  rw [calling.carries.size_stack]
  omega

theorem unwinds (calling : Calling ground actual relative subRuns slot argumentCount) :
    Unwinds subRuns relative := by
  refine ⟨[], _, slot, rfl, ?_, calling.waiting⟩
  have size := calling.size
  omega

theorem fails (calling : Calling ground actual relative subRuns slot argumentCount) :
    ground.Carries relative actual ∧ Unwinds subRuns relative :=
  ⟨calling.carries, calling.unwinds⟩

theorem setSlot
    (calling : Calling ground actual relative subRuns slot argumentCount)
    (position : Nat)
    (value : Value) :
    Calling ground
      { actual with stack := actual.stack.setIfInBounds (ground.height + position) value }
      { relative with stack := relative.stack.setIfInBounds position value } subRuns slot
      argumentCount where
  carries := calling.carries.setSlot position value
  size := by
    simp only [Array.size_setIfInBounds]
    exact calling.size
  waiting := calling.waiting

theorem withHeap
    (calling : Calling ground actual relative subRuns slot argumentCount)
    {heap : Heap}
    (same : heap.functions = relative.heap.functions) :
    Calling ground { actual with heap } { relative with heap } subRuns slot argumentCount :=
  ⟨calling.carries.withHeap same, calling.size, calling.waiting⟩

end Calling

variable
  {environment : Environment}
  {ground : Ground}
  {actual relative : State}
  {subRuns : List SubRun}
  {slot argumentCount : Nat}

/-! ## Calls -/

theorem pushFrame_goes
    (calling : Calling ground actual relative subRuns slot argumentCount)
    (limits : Limits)
    {function : Function}
    (startable : Startable function 0 (function.arity + 1))
    (initializer : Bool) :
    Goes ground subRuns
      (do pushFrame limits function argumentCount initializer; return .proceed)
      (do pushFrame (ground.limits limits) function argumentCount initializer; return .proceed)
      actual relative := by
  apply Tracks.bind
  unfold pushFrame
  simp only
  split
  · exact .bind (.raise calling.fails)
  · rename_i sameArity
    apply Tracks.bind
    apply Tracks.look
    have sameLimit :
        limits.maxFrames ≤ actual.frames.size ↔
          (ground.limits limits).maxFrames ≤ relative.frames.size := by
      rw [calling.carries.size_frames]
      simp only [Ground.limits]
      omega
    by_cases full : limits.maxFrames ≤ actual.frames.size
    · rw [if_pos full, if_pos (sameLimit.mp full)]
      exact .bind (.raise calling.fails)
    · rw [if_neg full, if_neg (full ∘ sameLimit.mpr)]
      apply Tracks.bind
      apply Tracks.look
      apply Tracks.change
      rw [calling.relativeSlot, calling.actualSlot]
      refine
        ⟨rfl, calling.carries.pushFrame { function, offset := 0, base := slot, initializer }, ?_⟩
      refine .inl ⟨{ function, offset := 0, base := slot, initializer }, relative.activeFrames,
        function.arity + 1, ⟨?_, ?_, calling.waiting⟩, startable⟩
      · simp
      · have size := calling.size
        have arity : argumentCount = function.arity := Decidable.not_not.mp sameArity
        simp only
        omega

/-- The result of a host routine takes the place of callee and arguments. -/
theorem completeHostCall_goes
    (carries : ground.Carries relative actual)
    {call : HostCall}
    (waiting : Waiting relative.activeFrames subRuns call.slot)
    (inside : call.slot ≤ relative.stack.size)
    (value : Value) :
    Goes ground subRuns
      (do completeHostCall environment (call.raised ground.height) value; return .proceed)
      (do completeHostCall (ground.environment environment) call value; return .proceed)
      actual relative := by
  have cut := carries.cutStack call.slot
  have size : (relative.stack.shrink call.slot).size = call.slot := by
    rw [Array.size_shrink]
    omega
  apply Tracks.bind
  unfold completeHostCall
  apply Tracks.bind
  apply Tracks.change
  apply Tracks.bind
  apply Tracks.push cut
  · have pushed := cut.push value
    have returned :
        ∀ stack : Array Value,
          stack.size = call.slot + 1 → Returned { relative with stack } subRuns call.slot :=
      fun _ same => ⟨same, waiting⟩
    cases constructed : call.constructed with
    | none =>
        simp only [HostCall.raised, constructed]
        refine ⟨rfl, pushed, .inr ⟨call.slot, returned _ ?_⟩⟩
        rw [Array.size_push, size]
    | some instanceValue =>
        simp only [HostCall.raised, constructed]
        apply Tracks.change
        have top :
            ((actual.stack.shrink (ground.height + call.slot)).push value).size - 1 =
              ground.height + (((relative.stack.shrink call.slot).push value).size - 1) := by
          have total := pushed.size_stack
          simp only [Array.size_push] at total ⊢
          omega
        rw [top]
        refine ⟨rfl, pushed.setSlot _ instanceValue, .inr ⟨call.slot, returned _ ?_⟩⟩
        rw [Array.size_setIfInBounds, Array.size_push, size]
  · exact ⟨cut, [], _, call.slot, rfl, Nat.le_of_eq size.symm, waiting⟩

theorem completeAtOnce_goes
    (carries : ground.Carries relative actual)
    (call : HostCall)
    (waiting : Waiting relative.activeFrames subRuns call.slot)
    (inside : call.slot ≤ relative.stack.size)
    (result : Except String Value) :
    Goes ground subRuns (completeAtOnce environment (call.raised ground.height) result)
      (completeAtOnce (ground.environment environment) call result) actual relative := by
  cases result with
  | ok value => exact completeHostCall_goes carries waiting inside value
  | error message => exact .raise ⟨carries, [], _, call.slot, rfl, inside, waiting⟩

theorem callNative_goes
    (calling : Calling ground actual relative subRuns slot argumentCount)
    (native : Native)
    (constructed : Option Value) :
    Goes ground subRuns (callNative environment native argumentCount constructed)
      (callNative (ground.environment environment) native argumentCount constructed)
      actual relative := by
  have size := calling.size
  unfold callNative
  extract_lets goOn goOnRelative
  have goesOn : Goes ground subRuns (goOn ()) (goOnRelative ()) actual relative := by
    apply Tracks.bind
    apply Tracks.look
    rw [calling.relativeSlot, calling.actualSlot]
    apply Tracks.bind
    apply Tracks.look
    rw [calling.carries.getD_stack]
    apply Tracks.bind
    apply Tracks.look
    have arguments :
        (actual.stack.extract (ground.height + slot + 1) actual.stack.size).toList =
          (relative.stack.extract (slot + 1) relative.stack.size).toList := by
      have begins : ground.stack.size ≤ ground.stack.size + slot + 1 := by
        omega
      rw [calling.carries.size_stack, calling.carries.stack, Array.extract_append,
        Array.extract_empty_of_size_le_start begins, Array.empty_append, Nat.add_sub_cancel_left,
        Nat.add_assoc, Nat.add_sub_cancel_left]
    rw [arguments]
    have finishes :
        ∀ (step : Heap → Except String Value × Heap),
          (∀ heap, (step heap).2.functions = heap.functions) →
            Goes ground subRuns
              (do
                let result ← updateHeap step
                completeAtOnce environment { slot := ground.height + slot, constructed } result)
              (do
                let result ← updateHeap step
                completeAtOnce (ground.environment environment) { slot, constructed } result)
              actual relative := by
      intro step same
      apply Tracks.bind
      show Goes ground subRuns _ _ { actual with heap := (step actual.heap).2 }
        { relative with heap := (step relative.heap).2 }
      rw [calling.carries.heap]
      refine completeAtOnce_goes (calling.carries.withHeap (same _)) { slot, constructed }
        calling.waiting ?_ _
      show slot ≤ relative.stack.size
      omega
    cases native.routine with
    | sequence method => exact finishes _ fun heap => Container.functions_runSequence _ _ _ heap
    | dictionary method =>
        exact finishes _ fun heap => Container.functions_runDictionary _ _ _ heap
    | host key =>
        refine ⟨rfl, calling.carries, calling.waiting, ?_⟩
        show slot < relative.stack.size
        omega
  cases native.arity with
  | exactly expected =>
      simp only
      split
      · exact .bind (.raise calling.fails)
      · exact goesOn
  | any => exact goesOn

theorem callFunction_goes
    (calling : Calling ground actual relative subRuns slot argumentCount)
    (id : Nat)
    (initializer : Bool) :
    Goes ground subRuns
      (do
        let function ← look (·.heap.function id)
        pushFrame environment.settings.limits function argumentCount initializer
        return .proceed)
      (do
        let function ← look (·.heap.function id)
        pushFrame (ground.environment environment).settings.limits function argumentCount
          initializer
        return .proceed)
      actual relative := by
  apply Tracks.bind
  apply Tracks.look
  rw [calling.carries.heap]
  exact pushFrame_goes calling _ (startable_function calling.carries.orderly id) initializer

theorem callHost_goes
    (calling : Calling ground actual relative subRuns slot argumentCount)
    (id : Nat)
    (constructed : Option Value) :
    Goes ground subRuns
      (do callNative environment (← look (·.heap.native id)) argumentCount constructed)
      (do
        callNative (ground.environment environment) (← look (·.heap.native id)) argumentCount
          constructed)
      actual relative := by
  apply Tracks.bind
  apply Tracks.look
  rw [calling.carries.heap]
  exact callNative_goes calling _ constructed

theorem construct_goes
    (calling : Calling ground actual relative subRuns slot argumentCount)
    (classId : Nat) :
    Goes ground subRuns (construct environment classId argumentCount)
      (construct (ground.environment environment) classId argumentCount) actual relative := by
  unfold construct
  apply Tracks.bind
  apply Tracks.look
  rw [calling.relativeSlot, calling.actualSlot]
  apply Tracks.bind
  show Tracks _ _ { actual with heap := (actual.heap.addObject classId).2 }
    { relative with heap := (relative.heap.addObject classId).2 } _ _
  rw [calling.carries.heap]
  apply Tracks.bind
  apply Tracks.change
  have sameFunctions :
      (relative.heap.addObject classId).2.functions = relative.heap.functions :=
    rfl
  have created := (calling.withHeap sameFunctions).setSlot
    slot (.object (relative.heap.addObject classId).1)
  apply Tracks.bind
  apply Tracks.look
  simp only
  generalize ((relative.heap.addObject classId).2.classAt classId).methods["init"]? = initializer
  rcases initializer with _ | method
  · simp only
    split
    · exact .bind (.raise created.fails)
    · rename_i noArguments
      refine ⟨rfl, created.carries, .inr ⟨slot, ?_, created.waiting⟩⟩
      rw [Decidable.not_not.mp noArguments] at created
      exact created.size
  · cases method with
    | function id => exact callFunction_goes created id true
    | hostMethod id => exact callHost_goes created id _
    | _ => exact .raise created.fails

/-- A call does the same on any ground. -/
theorem callValue_goes
    (calling : Calling ground actual relative subRuns slot argumentCount)
    (callee : Value) :
    Goes ground subRuns (callValue environment callee argumentCount)
      (callValue (ground.environment environment) callee argumentCount) actual relative := by
  induction callee generalizing actual relative with
  | function id =>
      unfold callValue
      exact callFunction_goes calling id false
  | boundMethod id receiver method _ induction =>
      unfold callValue
      apply Tracks.bind
      apply Tracks.look
      rw [calling.relativeSlot, calling.actualSlot]
      apply Tracks.bind
      apply Tracks.change
      exact induction (calling.setSlot slot receiver)
  | classObject id =>
      unfold callValue
      exact construct_goes calling id
  | hostFunction id | hostMethod id =>
      unfold callValue
      exact callHost_goes calling id none
  | _ =>
      unfold callValue
      exact .raise calling.fails

theorem invoke_goes
    (calling : Calling ground actual relative subRuns slot argumentCount)
    (name : String) :
    Goes ground subRuns (invoke environment name argumentCount)
      (invoke (ground.environment environment) name argumentCount) actual relative := by
  have calls :
      ∀ value,
        Goes ground subRuns (callValue environment value argumentCount)
          (callValue (ground.environment environment) value argumentCount) actual relative :=
    fun value => callValue_goes calling value
  have stored :
      ∀ value,
        Goes ground subRuns
          (do setSlot (ground.height + slot) value; callValue environment value argumentCount)
          (do setSlot slot value; callValue (ground.environment environment) value argumentCount)
          actual relative := by
    intro value
    apply Tracks.bind
    apply Tracks.change
    exact callValue_goes (calling.setSlot slot value) value
  unfold invoke
  apply Tracks.bind
  apply Tracks.peek calling.carries
  · have size := calling.size
    omega
  · intro receiver
    apply Tracks.bind
    apply Tracks.look
    rw [calling.relativeSlot, calling.actualSlot]
    cases receiver with
    | object id =>
        apply Tracks.bind
        apply Tracks.look
        rw [calling.carries.heap]
        rcases relative.heap.field? id name with _ | value
        · apply Tracks.bind
          apply Tracks.look
          rw [calling.carries.heap]
          rcases (relative.heap.classOf id).methods[name]? with _ | method
          · exact .raise calling.fails
          · exact calls method
        · exact stored value
    | classObject id =>
        apply Tracks.bind
        apply Tracks.look
        rw [calling.carries.heap]
        rcases (relative.heap.classAt id).statics[name]? with _ | method
        · exact .raise calling.fails
        · exact calls method
    | moduleHandle id moduleName =>
        apply Tracks.bind
        unfold moduleVariable
        apply Tracks.bind
        apply Tracks.look
        rw [calling.carries.registry]
        rcases (relative.registry.moduleAt id).assignedByName? name with _ | value
        · exact .raise calling.fails
        · exact stored value
    | _ => exact .raise calling.fails

end Action

end ScriptEngine
