import ScriptEngine.Proofs.Machine.Activation

/-!
# Calls

What the actions of a call do in a state in which callee and arguments are on the
stack: a compiled function gets a frame in which it is ready, a routine that is
carried out at once returns, a host routine begins.  The only faults are those of
the program that makes the call.
-/

namespace ScriptEngine

namespace Action

/-- What an action leads to, with a result or with an interruption. -/
def Ensures (action : Action α) (state : State) (success : α → State → Prop)
    (failure : Interruption → State → Prop) : Prop :=
  match action state with
  | (.ok result, after) => success result after
  | (.error interruption, after) => failure interruption after

variable
  {state : State}
  {subRuns : List SubRun}
  {success : α → State → Prop}
  {failure : Interruption → State → Prop}

theorem Ensures.bind
    {action : Action β}
    {next : β → Action α}
    (first :
      action.Ensures state (fun result after => (next result).Ensures after success failure)
        failure) :
    (action >>= next).Ensures state success failure := by
  unfold Ensures at first ⊢
  show match StateT.bind action (ExceptT.bindCont next) state with
    | (.ok result, after) => success result after
    | (.error interruption, after) => failure interruption after
  unfold StateT.bind
  rcases outcome : action state with ⟨interruption | result, after⟩
  · rw [outcome] at first
    exact first
  · rw [outcome] at first
    exact first

theorem Ensures.pure
    {result : α}
    (holds : success result state) :
    (Pure.pure result : Action α).Ensures state success failure :=
  holds

theorem Ensures.look
    {view : State → α}
    (holds : success (view state) state) :
    (look view).Ensures state success failure :=
  holds

theorem Ensures.change
    {step : State → State}
    {success : Unit → State → Prop}
    (holds : success () (step state)) :
    (change step).Ensures state success failure :=
  holds

theorem Ensures.raise
    {fault : Fault}
    (holds : failure (.fault fault) state) :
    (raise fault : Action α).Ensures state success failure :=
  holds

theorem Ensures.update
    {step : State → α × State}
    (holds : success (step state).1 (step state).2) :
    (update step).Ensures state success failure :=
  holds

theorem Ensures.updateHeap
    {step : Heap → α × Heap}
    (holds : success (step state.heap).1 { state with heap := (step state.heap).2 }) :
    (updateHeap step).Ensures state success failure :=
  holds

theorem Ensures.push
    {limits : Limits}
    {value : Value}
    {success : Unit → State → Prop}
    (fits : success () { state with stack := state.stack.push value })
    (full : failure (.fault .stackOverflow) state) :
    (push limits value).Ensures state success failure := by
  unfold Action.push Ensures
  by_cases room : state.stack.size < limits.stackCapacity
  · simp only [if_pos room]
    exact fits
  · simp only [if_neg room]
    exact full

theorem Ensures.pop
    {value : Value}
    {success : Value → State → Prop}
    (last : state.stack.back? = some value)
    (holds : success value { state with stack := state.stack.pop }) :
    pop.Ensures state success failure := by
  unfold Action.pop Ensures
  simp only [last]
  exact holds

theorem Ensures.peek
    {distance : Nat}
    {success : Value → State → Prop}
    (inside : distance < state.stack.size)
    (holds : success (state.stack.getD (state.stack.size - 1 - distance) .null) state) :
    (peek distance).Ensures state success failure := by
  unfold Action.peek Ensures
  simp only [if_pos inside]
  exact holds

theorem Ensures.weaken
    {action : Action α}
    {weaker : α → State → Prop}
    {weakerFailure : Interruption → State → Prop}
    (ensures : action.Ensures state success failure)
    (succeeds : ∀ result after, success result after → weaker result after)
    (fails : ∀ interruption after, failure interruption after → weakerFailure interruption after) :
    action.Ensures state weaker weakerFailure := by
  unfold Ensures at ensures ⊢
  rcases outcome : action state with ⟨interruption | result, after⟩
  · rw [outcome] at ensures
    exact fails interruption after ensures
  · rw [outcome] at ensures
    exact succeeds result after ensures

theorem Ensures.mono
    {action : Action α}
    {weaker : α → State → Prop}
    (ensures : action.Ensures state success failure)
    (succeeds : ∀ result after, success result after → weaker result after) :
    action.Ensures state weaker failure :=
  ensures.weaken succeeds fun _ _ => id

/-- A sequence goes on with the result of its first action. -/
theorem bind_of_ok
    {action : Action β}
    {result : β}
    {after : State}
    (done : action state = (.ok result, after))
    (next : β → Action α) :
    (action >>= next) state = next result after := by
  show StateT.bind action (ExceptT.bindCont next) state = next result after
  unfold StateT.bind
  rw [done]
  rfl

/-- A sequence ends where its first action is interrupted. -/
theorem bind_of_error
    {action : Action β}
    {interruption : Interruption}
    {after : State}
    (interrupted : action state = (.error interruption, after))
    (next : β → Action α) :
    (action >>= next) state = (.error interruption, after) := by
  show StateT.bind action (ExceptT.bindCont next) state = _
  unfold StateT.bind
  rw [interrupted]
  rfl

theorem look_bind (view : State → β) (next : β → Action α) (state : State) :
    (look view >>= next) state = next (view state) state := rfl

/-- Nothing follows a fault. -/
@[simp]
theorem raise_bind (fault : Fault) (next : β → Action α) :
    (raise fault >>= next) = raise fault := rfl

end Action

/-- Callee and arguments are on the stack. -/
structure State.Calling (state : State) (subRuns : List SubRun) (slot argumentCount : Nat) :
    Prop where
  sound : state.Sound []
  below : state.Waits state.activeFrames subRuns slot
  size : state.stack.size = slot + argumentCount + 1

namespace State.Calling

variable {state : State} {subRuns : List SubRun} {slot argumentCount : Nat}

theorem calleeSlot (calling : state.Calling subRuns slot argumentCount) :
    state.stack.size - argumentCount - 1 = slot := by
  have size := calling.size
  omega

theorem aborts
    (calling : state.Calling subRuns slot argumentCount)
    {fault : Fault}
    (external : fault.isInternal = false) :
    Aborts subRuns (.fault fault) state := by
  apply aborts_of_waits calling.sound calling.below _ external
  have size := calling.size
  omega

theorem setSlot
    (calling : state.Calling subRuns slot argumentCount)
    (position : Nat)
    {value : Value}
    (refers : value.Refers state.known) :
    Calling { state with stack := state.stack.setIfInBounds position value } subRuns slot
      argumentCount where
  sound := calling.sound.withStack (forall_mem_setIfInBounds calling.sound.stack refers position)
  below := calling.below
  size := by
    simp only [Array.size_setIfInBounds]
    exact calling.size

theorem withHeap
    (calling : state.Calling subRuns slot argumentCount)
    {heap : Heap}
    (sound : heap.Sound state.known [])
    (same : heap.functions = state.heap.functions) :
    Calling { state with heap } subRuns slot argumentCount where
  sound := calling.sound.withHeap same sound
  below := by
    simp only [Waits, known, same]
    exact calling.below
  size := calling.size

end State.Calling

namespace Action

open State

variable
  {environment : Environment}
  {state : State}
  {subRuns : List SubRun}
  {slot argumentCount : Nat}

/-- A frame for a function makes the function ready. -/
theorem pushFrame_ensures
    (limits : Limits)
    {function : Function}
    (calling : state.Calling subRuns slot argumentCount)
    (runs : function.Runs state.known state.registry.modules.size)
    (initializer : Bool) :
    (pushFrame limits function argumentCount initializer).Ensures state
      (fun _ after => after.Ready subRuns) (Aborts subRuns) := by
  unfold pushFrame
  simp only
  split
  · exact .bind (.raise (calling.aborts rfl))
  · rename_i same
    apply Ensures.bind
    apply Ensures.look
    split
    · exact .bind (.raise (calling.aborts rfl))
    · apply Ensures.bind
      apply Ensures.look
      apply Ensures.change
      rw [calling.calleeSlot]
      refine ⟨{ function, offset := 0, base := slot, initializer }, state.activeFrames,
        .plain (function.arity + 1), ⟨?_, ?_, runs, ?_, calling.below⟩, runs.shapeAt_zero, trivial⟩
      · exact ⟨calling.sound.stack, calling.sound.heap, calling.sound.functions,
          calling.sound.registry⟩
      · simp [activeFrames]
      · have size := calling.size
        have arity : argumentCount = function.arity := Decidable.not_not.mp same
        simp only
        omega

/-- The result of a host routine takes the place of the callee. -/
theorem completeHostCall_ensures
    {call : HostCall}
    {value : Value}
    (sound : state.Sound [])
    (below : state.Waits state.activeFrames subRuns call.slot)
    (inside : call.slot < state.stack.size)
    (constructed : ∀ created, call.constructed = some created → created.Refers state.known)
    (refers : value.Refers state.known) :
    (completeHostCall environment call value).Ensures state
      (fun _ after => after.Returned subRuns call.slot) (Aborts subRuns) := by
  have size : (state.stack.shrink call.slot).size = call.slot := by
    rw [Array.size_shrink]
    omega
  have cut : ∀ value ∈ state.stack.shrink call.slot, value.Refers state.known := by
    intro value member
    exact sound.stack value (mem_of_mem_shrink member)
  unfold completeHostCall
  apply Ensures.bind
  apply Ensures.change
  apply Ensures.bind
  apply Ensures.push
  · have pushed := forall_mem_push cut refers
    split
    · rename_i created isCreated
      apply Ensures.change
      constructor
      · apply sound.withStack
        exact forall_mem_setIfInBounds pushed (constructed created isCreated) _
      · simp only [Array.size_setIfInBounds, Array.size_push, size]
      · exact below
    · apply Ensures.pure
      constructor
      · exact sound.withStack pushed
      · simp only [Array.size_push, size]
      · exact below
  · apply aborts_of_waits (sound.withStack cut) below
    · simp only [size]
      exact Nat.le_refl _
    · rfl

/-- A routine that was carried out at once returns or fails in its own words. -/
theorem completeAtOnce_ensures
    {call : HostCall}
    {result : Except String Value}
    (sound : state.Sound [])
    (below : state.Waits state.activeFrames subRuns call.slot)
    (inside : call.slot < state.stack.size)
    (constructed : ∀ created, call.constructed = some created → created.Refers state.known)
    (refers : OutcomeRefers state.known result) :
    (completeAtOnce environment call result).Ensures state (Continues subRuns)
      (Aborts subRuns) := by
  unfold completeAtOnce
  split
  · rename_i value
    apply Ensures.bind
    apply (completeHostCall_ensures sound below inside constructed (refers value rfl)).mono
    intro _ after returned
    exact .pure (.inr ⟨_, returned⟩)
  · exact .raise (aborts_of_waits sound below (Nat.le_of_lt inside) rfl)

/-- A native callable returns at once or begins as a host routine. -/
theorem callNative_ensures
    (behaves : environment.host.Behaves)
    (native : Native)
    (calling : state.Calling subRuns slot argumentCount)
    {constructed : Option Value}
    (refers : ∀ created, constructed = some created → created.Refers state.known) :
    (callNative environment native argumentCount constructed).Ensures state (Continues subRuns)
      (Aborts subRuns) := by
  have inside : slot < state.stack.size := by
    have size := calling.size
    omega
  have receiverRefers : (state.stack.getD slot .null).Refers state.known :=
    holds_getD calling.sound.stack (Value.refers_null _) slot
  have argumentsRefer :
      ∀ argument ∈ (state.stack.extract (slot + 1) state.stack.size).toList,
        argument.Refers state.known := by
    intro argument member
    rcases Array.mem_extract_iff_getElem.mp (Array.mem_toList_iff.mp member) with
      ⟨place, bound, rfl⟩
    exact calling.sound.stack _ (Array.getElem_mem _)
  unfold callNative
  extract_lets goOn
  have goesOn : (goOn ()).Ensures state (Continues subRuns) (Aborts subRuns) := by
    apply Ensures.bind
    apply Ensures.look
    rw [calling.calleeSlot]
    apply Ensures.bind
    apply Ensures.look
    apply Ensures.bind
    apply Ensures.look
    split
    · rename_i method _
      rcases Container.runSequence_sound calling.sound.heap receiverRefers argumentsRefer method
        with ⟨outcome, heap⟩
      have after := calling.withHeap heap (Container.functions_runSequence _ _ _ _)
      apply Ensures.bind
      apply Ensures.updateHeap
      apply completeAtOnce_ensures after.sound after.below inside
      · simpa [known] using refers
      · simpa [known] using outcome
    · rename_i method _
      rcases Container.runDictionary_sound calling.sound.heap (state.stack.getD slot .null)
        (state.stack.extract (slot + 1) state.stack.size).toList method with ⟨outcome, heap⟩
      have after := calling.withHeap heap (Container.functions_runDictionary _ _ _ _)
      apply Ensures.bind
      apply Ensures.updateHeap
      apply completeAtOnce_ensures after.sound after.below inside
      · simpa [known] using refers
      · simpa [known] using outcome
    · rename_i key _
      apply Ensures.pure
      exact ⟨calling.sound, calling.below, inside, refers,
        behaves key _ _ _ receiverRefers argumentsRefer⟩
  split
  · split
    · exact .bind (.raise (calling.aborts rfl))
    · exact goesOn
  · exact goesOn

/-- A compiled function is entered. -/
theorem enterFunction_ensures
    {function : Function}
    (calling : state.Calling subRuns slot argumentCount)
    (runs : function.Runs state.known state.registry.modules.size)
    (initializer : Bool) :
    (do
      pushFrame environment.settings.limits function argumentCount initializer
      return .proceed : Action Transition).Ensures state (Continues subRuns) (Aborts subRuns) := by
  apply Ensures.bind
  apply (pushFrame_ensures environment.settings.limits calling runs initializer).mono
  intro _ after ready
  exact .pure (.inl ready)

/-- The new instance takes the place of the class before its initialiser is called. -/
theorem construct_ensures
    (behaves : environment.host.Behaves)
    (calling : state.Calling subRuns slot argumentCount)
    (classId : Nat) :
    (construct environment classId argumentCount).Ensures state (Continues subRuns)
      (Aborts subRuns) := by
  unfold construct
  apply Ensures.bind
  apply Ensures.look
  rw [calling.calleeSlot]
  apply Ensures.bind
  apply Ensures.updateHeap
  have created := (calling.withHeap (calling.sound.heap.addObject classId) rfl).setSlot slot
    (show (Value.object (state.heap.addObject classId).1).Refers _ from trivial)
  apply Ensures.bind
  apply Ensures.change
  apply Ensures.bind
  apply Ensures.look
  have initializer := (created.sound.heap.classAt classId).methods "init"
  split
  · rename_i id found
    apply Ensures.bind
    apply Ensures.look
    exact enterFunction_ensures created (created.sound.function (initializer _ found)) true
  · apply Ensures.bind
    apply Ensures.look
    apply callNative_ensures behaves _ created
    intro value isCreated
    cases isCreated
    trivial
  · exact .raise (created.aborts rfl)
  · split
    · exact .bind (.raise (created.aborts rfl))
    · rename_i none
      apply Ensures.pure
      refine .inr ⟨slot, created.sound, ?_, created.below⟩
      have size := created.size
      have noArguments : argumentCount = 0 := Decidable.not_not.mp none
      rw [noArguments] at size
      exact size

/-- A callee that refers to functions is entered, returns at once or begins as a host routine. -/
theorem callValue_ensures
    (behaves : environment.host.Behaves)
    {callee : Value}
    (calling : state.Calling subRuns slot argumentCount)
    (refers : callee.Refers state.known) :
    (callValue environment callee argumentCount).Ensures state (Continues subRuns)
      (Aborts subRuns) := by
  induction callee generalizing state with
  | function id =>
      unfold callValue
      apply Ensures.bind
      apply Ensures.look
      exact enterFunction_ensures calling (calling.sound.function refers) false
  | boundMethod id receiver method _ induction =>
      unfold callValue
      apply Ensures.bind
      apply Ensures.look
      apply Ensures.bind
      apply Ensures.change
      exact induction (calling.setSlot _ refers.1) refers.2
  | classObject id =>
      unfold callValue
      exact construct_ensures behaves calling id
  | hostFunction id | hostMethod id =>
      unfold callValue
      apply Ensures.bind
      apply Ensures.look
      exact callNative_ensures behaves _ calling nofun
  | _ =>
      unfold callValue
      exact .raise (calling.aborts rfl)

/-! ## Properties -/

theorem moduleVariable_ensures
    (sound : state.Sound [])
    (aborts : ∀ fault, fault.isInternal = false → Aborts subRuns (.fault fault) state)
    (moduleId : Nat)
    (name : String) :
    (moduleVariable moduleId name).Ensures state
      (fun value after => after = state ∧ value.Refers state.known) (Aborts subRuns) := by
  unfold moduleVariable
  apply Ensures.bind
  apply Ensures.look
  split
  · rename_i value found
    exact .pure ⟨rfl, sound.registry.assignedByName found⟩
  · exact .raise (aborts _ rfl)

/-- A method that is called on the receiver below the arguments. -/
theorem invoke_ensures
    (behaves : environment.host.Behaves)
    (calling : state.Calling subRuns slot argumentCount)
    (name : String) :
    (invoke environment name argumentCount).Ensures state (Continues subRuns)
      (Aborts subRuns) := by
  have inside : argumentCount < state.stack.size := by
    have size := calling.size
    omega
  have place : state.stack.size - 1 - argumentCount = slot := by
    have size := calling.size
    omega
  unfold invoke
  apply Ensures.bind
  apply Ensures.peek inside
  rw [place]
  apply Ensures.bind
  apply Ensures.look
  rw [calling.calleeSlot]
  have receiverRefers := holds_getD calling.sound.stack (Value.refers_null _) slot
  split
  · rename_i id _
    apply Ensures.bind
    apply Ensures.look
    split
    · rename_i value found
      have fieldRefers := (calling.sound.heap.objectAt id).fields _ _ found
      apply Ensures.bind
      apply Ensures.change
      exact callValue_ensures behaves (calling.setSlot slot fieldRefers) fieldRefers
    · apply Ensures.bind
      apply Ensures.look
      split
      · rename_i method found
        exact callValue_ensures behaves calling
          ((calling.sound.heap.classAt _).methods _ _ found)
      · exact .raise (calling.aborts rfl)
  · apply Ensures.bind
    apply Ensures.look
    split
    · rename_i method found
      exact callValue_ensures behaves calling ((calling.sound.heap.classAt _).statics _ _ found)
    · exact .raise (calling.aborts rfl)
  · apply Ensures.bind
    apply (moduleVariable_ensures calling.sound (fun _ => calling.aborts) _ name).mono
    rintro value _ ⟨rfl, valueRefers⟩
    apply Ensures.bind
    apply Ensures.change
    exact callValue_ensures behaves (calling.setSlot slot valueRefers) valueRefers
  · exact .raise (calling.aborts rfl)

section Active

variable
  {frame : Frame}
  {rest : List Frame}
  {height : Nat}

/-- A method that is read as a property is bound to its receiver. -/
theorem bind_ensures
    (active : state.Active frame rest subRuns height)
    {receiver method : Value}
    (receiverRefers : receiver.Refers state.known)
    (methodRefers : method.Refers state.known) :
    (updateHeap fun heap => heap.bind receiver method).Ensures state
      (fun value after => after.Active frame rest subRuns height ∧ value.Refers after.known)
      (Aborts subRuns) := by
  have heap := active.sound.heap
  apply Ensures.updateHeap
  constructor
  · exact active.withHeap ⟨heap.classes, heap.objects, heap.locks⟩ rfl
  · exact ⟨receiverRefers, methodRefers⟩

theorem property_ensures
    (active : state.Active frame rest subRuns height)
    {receiver : Value}
    (refers : receiver.Refers state.known)
    (name : String) :
    (property receiver name).Ensures state
      (fun value after => after.Active frame rest subRuns height ∧ value.Refers after.known)
      (Aborts subRuns) := by
  unfold property
  split
  · rename_i id
    apply Ensures.bind
    apply Ensures.look
    split
    · rename_i value found
      exact .pure ⟨active, (active.sound.heap.objectAt id).fields _ _ found⟩
    · apply Ensures.bind
      apply Ensures.look
      split
      · rename_i method found
        exact bind_ensures active refers ((active.sound.heap.classAt _).methods _ _ found)
      · exact .raise (active.aborts rfl)
  · apply Ensures.bind
    apply Ensures.look
    split
    · rename_i method found
      exact bind_ensures active refers ((active.sound.heap.classAt _).statics _ _ found)
    · exact .raise (active.aborts rfl)
  · apply (moduleVariable_ensures active.sound (fun _ => active.aborts) _ name).mono
    rintro value _ ⟨rfl, valueRefers⟩
    exact ⟨active, valueRefers⟩
  · exact .raise (active.aborts rfl)

/-! ## Subscripts -/

/-- Outside host routines no container is in use. -/
theorem indexable_ensures
    (active : state.Active frame rest subRuns height)
    (receiver : Value) :
    (indexable receiver).Ensures state
      (fun found after => after = state ∧ found.2.Refers state.known) (Aborts subRuns) := by
  unfold indexable
  split
  · rename_i id
    apply Ensures.bind
    apply Ensures.look
    split
    · exact .raise (active.aborts rfl)
    · rename_i data isData
      apply Ensures.bind
      apply Ensures.look
      split
      · rename_i isLocked
        cases active.sound.heap.locks id isLocked
      · split
        · exact .pure ⟨rfl, (active.sound.heap.objectAt id).data data isData⟩
        · exact .raise (active.aborts rfl)
  · exact .raise (active.aborts rfl)

theorem getIndex_ensures
    (active : state.Active frame rest subRuns height)
    (receiver index : Value) :
    (getIndex receiver index).Ensures state
      (fun value after => after = state ∧ value.Refers state.known) (Aborts subRuns) := by
  unfold getIndex
  apply Ensures.bind
  apply (indexable_ensures active receiver).mono
  rintro ⟨id, data⟩ _ ⟨rfl, refers⟩
  simp only
  split
  · rename_i value read
    exact .pure ⟨rfl, refers.readIndex read⟩
  · exact .raise (active.aborts rfl)

theorem setIndex_ensures
    (active : state.Active frame rest subRuns height)
    (receiver : Value)
    {index value : Value}
    (indexRefers : index.Refers state.known)
    (valueRefers : value.Refers state.known) :
    (setIndex receiver index value).Ensures state
      (fun _ after => after.Active frame rest subRuns height ∧ after.known = state.known)
      (Aborts subRuns) := by
  unfold setIndex
  apply Ensures.bind
  apply (indexable_ensures active receiver).mono
  rintro ⟨id, data⟩ _ ⟨rfl, -⟩
  have after := active.withHeap
    (active.sound.heap.updateData
      (fun data refers => refers.writeIndex indexRefers valueRefers) id)
    (Heap.functions_updateData _ _ (Except.ok ()) _)
  apply Ensures.bind
  apply Ensures.updateHeap
  split
  · exact .pure ⟨after, by simp [known]⟩
  · exact .raise (after.aborts rfl)

end Active

end Action

end ScriptEngine
