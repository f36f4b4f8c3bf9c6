import ScriptEngine.Proofs.Machine.Call
import ScriptEngine.Machine.Execute

/-!
# Calling a property at once

The instruction `invoke` reads a property of a receiver below its arguments and
calls it.  It does what reading the property, putting it in the place of the
receiver and calling it would do, without making a bound method on the way.

Bound methods are numbered in the order in which they are made, so the detour
leaves nothing behind but a number that is used up.  Calls do not depend on
these numbers (`Action.IgnoresBoundMethods`).
-/

namespace ScriptEngine

/-- The state in which another number of bound methods has been made. -/
def State.withBoundMethods (state : State) (count : Nat) : State :=
  { state with heap := { state.heap with boundMethods := count } }

namespace Action

/-- An action stops with a fault of the given wording and origin. -/
def FaultsWith (action : Action α) (state : State) (message : String) (origin : Origin) : Prop :=
  ∃ fault after,
    action state = (.error (.fault fault), after) ∧ fault.message = message ∧ fault.origin = origin

/-! ## Actions that do not depend on the bound methods made so far -/

/-- The action does the same however many bound methods have been made, and makes none. -/
def IgnoresBoundMethods (action : Action α) : Prop :=
  ∀ state count,
    action (state.withBoundMethods count) =
      ((action state).1, (action state).2.withBoundMethods count)

namespace IgnoresBoundMethods

theorem bind
    {action : Action α}
    {next : α → Action β}
    (first : action.IgnoresBoundMethods)
    (second : ∀ result, (next result).IgnoresBoundMethods) :
    (action >>= next).IgnoresBoundMethods := by
  intro state count
  show StateT.bind action (ExceptT.bindCont next) (state.withBoundMethods count) =
    ((StateT.bind action (ExceptT.bindCont next) state).1,
      (StateT.bind action (ExceptT.bindCont next) state).2.withBoundMethods count)
  unfold StateT.bind
  rw [first state count]
  rcases action state with ⟨interruption | result, after⟩
  · rfl
  · exact second result after count

theorem pure (result : α) : (Pure.pure result : Action α).IgnoresBoundMethods :=
  fun _ _ => rfl

theorem raise (fault : Fault) : (Action.raise fault : Action α).IgnoresBoundMethods :=
  fun _ _ => rfl

theorem look
    {view : State → α}
    (same : ∀ state count, view (state.withBoundMethods count) = view state) :
    (Action.look view).IgnoresBoundMethods := by
  intro state count
  show (Except.ok (view (state.withBoundMethods count)), state.withBoundMethods count) = _
  rw [same]
  rfl

theorem change
    {step : State → State}
    (same :
      ∀ state count,
        step (state.withBoundMethods count) = (step state).withBoundMethods count) :
    (Action.change step).IgnoresBoundMethods := by
  intro state count
  show (Except.ok (), step (state.withBoundMethods count)) = _
  rw [same]
  rfl

theorem push (limits : Limits) (value : Value) : (push limits value).IgnoresBoundMethods := by
  intro state count
  unfold Action.push
  by_cases room : state.stack.size < limits.stackCapacity
  · simp [State.withBoundMethods, room]
  · simp [State.withBoundMethods, room]

theorem setSlot (slot : Nat) (value : Value) : (setSlot slot value).IgnoresBoundMethods :=
  change fun _ _ => rfl

theorem calleeSlot (argumentCount : Nat) : (calleeSlot argumentCount).IgnoresBoundMethods :=
  look fun _ _ => rfl

theorem pushFrame
    (limits : Limits)
    (function : Function)
    (argumentCount : Nat)
    (initializer : Bool) :
    (pushFrame limits function argumentCount initializer).IgnoresBoundMethods := by
  unfold Action.pushFrame
  simp only [raise_bind]
  split
  · exact raise _
  · refine bind (look fun _ _ => rfl) fun size => ?_
    split
    · exact raise _
    · exact bind (calleeSlot argumentCount) fun _ => change fun _ _ => rfl

/-- A change of the heap that neither reads nor writes the number of bound methods. -/
theorem updateHeap
    {step : Heap → α × Heap}
    (same :
      ∀ heap count,
        step { heap with boundMethods := count } =
          ((step heap).1, { (step heap).2 with boundMethods := count })) :
    (updateHeap step).IgnoresBoundMethods := by
  intro state count
  show (Except.ok (step { state.heap with boundMethods := count }).1,
    { state with heap := (step { state.heap with boundMethods := count }).2 }) = _
  rw [same]
  rfl

end IgnoresBoundMethods

end Action

/-! ## Calls -/

/-- Native data is changed in the same way however many bound methods have been made. -/
theorem Heap.updateData_boundMethods
    (heap : Heap)
    (count objectId : Nat)
    (refused : α)
    (change : NativeData → α × NativeData) :
    { heap with boundMethods := count }.updateData objectId refused change =
      ((heap.updateData objectId refused change).1,
        { (heap.updateData objectId refused change).2 with boundMethods := count }) := by
  unfold Heap.updateData Heap.objectAt
  simp only
  split <;> rfl

namespace Container

theorem runSequence_boundMethods
    (method : SequenceMethod)
    (receiver : Value)
    (arguments : List Value)
    (heap : Heap)
    (count : Nat) :
    runSequence method receiver arguments { heap with boundMethods := count } =
      ((runSequence method receiver arguments heap).1,
        { (runSequence method receiver arguments heap).2 with boundMethods := count }) := by
  cases receiver with
  | object id => exact heap.updateData_boundMethods count id _ _
  | _ => rfl

theorem runDictionary_boundMethods
    (method : DictionaryMethod)
    (receiver : Value)
    (arguments : List Value)
    (heap : Heap)
    (count : Nat) :
    runDictionary method receiver arguments { heap with boundMethods := count } =
      ((runDictionary method receiver arguments heap).1,
        { (runDictionary method receiver arguments heap).2 with boundMethods := count }) := by
  cases receiver with
  | object id => exact heap.updateData_boundMethods count id _ _
  | _ => rfl

end Container

namespace Action

variable (environment : Environment)

theorem name_ignores (index : UInt16) : (name index).IgnoresBoundMethods := by
  unfold name constant
  refine .bind (.bind (.look fun _ _ => rfl) fun frame => ?_) fun value => ?_
  · split
    · exact .pure _
    · exact .raise _
  · split
    · exact .pure _
    · exact .raise _

theorem completeHostCall_ignores (call : HostCall) (value : Value) :
    (completeHostCall environment call value).IgnoresBoundMethods := by
  unfold completeHostCall
  refine .bind (.change fun _ _ => rfl) fun _ => .bind (.push _ _) fun _ => ?_
  split
  · exact .change fun _ _ => rfl
  · exact .pure _

theorem completeAtOnce_ignores (call : HostCall) (result : Except String Value) :
    (completeAtOnce environment call result).IgnoresBoundMethods := by
  unfold completeAtOnce
  split
  · exact .bind (completeHostCall_ignores environment call _) fun _ => .pure _
  · exact .raise _

theorem callNative_ignores
    (native : Native)
    (argumentCount : Nat)
    (constructed : Option Value) :
    (callNative environment native argumentCount constructed).IgnoresBoundMethods := by
  unfold callNative
  extract_lets goOn
  have goesOn : (goOn ()).IgnoresBoundMethods := by
    refine .bind (.calleeSlot argumentCount) fun slot => ?_
    refine .bind (.look fun _ _ => rfl) fun receiver => ?_
    refine .bind (.look fun _ _ => rfl) fun arguments => ?_
    simp only
    split
    · refine .bind (.updateHeap fun heap count => ?_) fun _ => completeAtOnce_ignores _ _ _
      exact Container.runSequence_boundMethods _ _ _ heap count
    · refine .bind (.updateHeap fun heap count => ?_) fun _ => completeAtOnce_ignores _ _ _
      exact Container.runDictionary_boundMethods _ _ _ heap count
    · exact .pure _
  split
  · split
    · exact .bind (.raise _) fun _ => goesOn
    · exact goesOn
  · exact goesOn

theorem construct_ignores (classId argumentCount : Nat) :
    (construct environment classId argumentCount).IgnoresBoundMethods := by
  unfold construct
  refine .bind (.calleeSlot argumentCount) fun slot => ?_
  refine .bind (.updateHeap fun _ _ => rfl) fun created => ?_
  refine .bind (.setSlot _ _) fun _ => .bind (.look fun _ _ => rfl) fun initializer => ?_
  split
  · exact .bind (.look fun _ _ => rfl) fun _ => .bind (.pushFrame _ _ _ _) fun _ => .pure _
  · exact .bind (.look fun _ _ => rfl) fun _ => callNative_ignores environment _ _ _
  · exact .raise _
  · split
    · exact .bind (.raise _) fun _ => .pure _
    · exact .pure _

/-- A call does not depend on the bound methods that have been made, and makes none. -/
theorem callValue_ignores (callee : Value) (argumentCount : Nat) :
    (callValue environment callee argumentCount).IgnoresBoundMethods := by
  induction callee with
  | function id =>
      unfold callValue
      exact .bind (.look fun _ _ => rfl) fun _ => .bind (.pushFrame _ _ _ _) fun _ => .pure _
  | boundMethod id receiver method _ induction =>
      unfold callValue
      exact .bind (.calleeSlot argumentCount) fun _ => .bind (.setSlot _ _) fun _ => induction
  | classObject id =>
      unfold callValue
      exact construct_ignores environment id argumentCount
  | hostFunction id | hostMethod id =>
      unfold callValue
      exact .bind (.look fun _ _ => rfl) fun _ => callNative_ignores environment _ _ _
  | _ =>
      unfold callValue
      exact .raise _

end Action

/-! ## Reading a property -/

/-- What a name stands for at a receiver. -/
inductive Property where
  | missing (fault : Fault)
  /-- A field or a module variable. -/
  | stored (value : Value)
  /-- A method of the receiver's class, or of the receiver if it is a class. -/
  | method (method : Value)

/-- Finds out what a name stands for at a receiver. -/
def State.lookup (state : State) (receiver : Value) (name : String) : Property :=
  match receiver with
  | .object id =>
    match state.heap.field? id name with
    | some value => .stored value
    | none =>
      match (state.heap.classOf id).methods[name]? with
      | some method => .method method
      | none => .missing (.undefinedProperty name)
  | .classObject id =>
    match (state.heap.classAt id).statics[name]? with
    | some method => .method method
    | none => .missing (.undefinedProperty name)
  | .moduleHandle id _ =>
    match (state.registry.moduleAt id).assignedByName? name with
    | some value => .stored value
    | none => .missing (.undefinedVariable name)
  | _ => .missing .noProperties

@[simp]
theorem State.lookup_withBoundMethods
    (state : State)
    (count : Nat)
    (receiver : Value)
    (name : String) :
    (state.withBoundMethods count).lookup receiver name = state.lookup receiver name := rfl

namespace Action

variable {environment : Environment} {state : State} {lower arguments : Array Value}

theorem moduleVariable_eq (state : State) (moduleId : Nat) (name : String) :
    moduleVariable moduleId name state =
      match (state.registry.moduleAt moduleId).assignedByName? name with
      | some value => (.ok value, state)
      | none => (.error (.fault (.undefinedVariable name)), state) := by
  rw [moduleVariable, look_bind]
  cases (state.registry.moduleAt moduleId).assignedByName? name <;> rfl

/-- Reading a property makes a bound method of a method. -/
theorem property_eq (state : State) (receiver : Value) (name : String) :
    property receiver name state =
      match state.lookup receiver name with
      | .missing fault => (.error (.fault fault), state)
      | .stored value => (.ok value, state)
      | .method method =>
        (.ok (.boundMethod state.heap.boundMethods receiver method),
          state.withBoundMethods (state.heap.boundMethods + 1)) := by
  cases receiver with
  | object id =>
      simp only [State.lookup, property, look_bind]
      cases state.heap.field? id name with
      | some value => rfl
      | none =>
          simp only [look_bind]
          cases (state.heap.classOf id).methods[name]? <;> rfl
  | classObject id =>
      simp only [State.lookup, property, look_bind]
      cases (state.heap.classAt id).statics[name]? <;> rfl
  | moduleHandle id label =>
      simp only [State.lookup, property, moduleVariable_eq]
      cases (state.registry.moduleAt id).assignedByName? name <;> rfl
  | _ => rfl

theorem peek_below
    {callee : Value}
    (stack : state.stack = lower.push callee ++ arguments) :
    peek arguments.size state = (.ok callee, state) := by
  have place : (lower.push callee ++ arguments).size - 1 - arguments.size = lower.size := by
    simp only [Array.size_append, Array.size_push]
    omega
  have inside : arguments.size < (lower.push callee ++ arguments).size := by
    simp only [Array.size_append, Array.size_push]
    omega
  unfold peek
  rw [stack, if_pos inside, place]
  simp [Array.getD_eq_getD_getElem?, Array.getElem?_append]

theorem calleeSlot_below
    {callee : Value}
    (stack : state.stack = lower.push callee ++ arguments) :
    calleeSlot arguments.size state = (.ok lower.size, state) := by
  have place : (lower.push callee ++ arguments).size - arguments.size - 1 = lower.size := by
    simp only [Array.size_append, Array.size_push]
    omega
  show (Except.ok (state.stack.size - arguments.size - 1), state) = _
  rw [stack, place]

/-- The value in the place of the callee. -/
theorem getD_below
    {callee : Value}
    (stack : state.stack = lower.push callee ++ arguments) :
    state.stack.getD lower.size .null = callee := by
  rw [stack, Array.getD_eq_getD_getElem?]
  simp [Array.getElem?_append]

/-- The values above the callee. -/
theorem extract_below
    {callee : Value}
    (stack : state.stack = lower.push callee ++ arguments) :
    state.stack.extract (lower.size + 1) state.stack.size = arguments := by
  rw [stack]
  simp

/-- Another value in the place of the callee. -/
theorem setIfInBounds_below (callee value : Value) :
    (lower.push callee ++ arguments).setIfInBounds lower.size value =
      lower.push value ++ arguments := by
  apply Array.ext_getElem?
  intro place
  simp only [Array.getElem?_setIfInBounds, Array.getElem?_append, Array.getElem?_push,
    Array.size_push, Array.size_append]
  by_cases same : lower.size = place
  · subst same
    simp
    omega
  · rw [if_neg same]
    simp [Ne.symm same]

/-- A method is called with its receiver in place; anything else takes the place of the receiver. -/
theorem invoke_eq
    {receiver : Value}
    (stack : state.stack = lower.push receiver ++ arguments)
    (name : String) :
    invoke environment name arguments.size state =
      match state.lookup receiver name with
      | .missing fault => (.error (.fault fault), state)
      | .stored value =>
        callValue environment value arguments.size
          { state with stack := lower.push value ++ arguments }
      | .method method => callValue environment method arguments.size state := by
  unfold invoke
  rw [bind_of_ok (peek_below stack), bind_of_ok (calleeSlot_below stack)]
  -- A value that takes the place of the receiver.
  have replaces :
      ∀ value,
        (setSlot lower.size value >>= fun _ => callValue environment value arguments.size) state =
          callValue environment value arguments.size
            { state with stack := lower.push value ++ arguments } := by
    intro value
    rw [← setIfInBounds_below receiver value, ← stack]
    rfl
  cases receiver with
  | object id =>
      simp only [State.lookup, look_bind]
      cases state.heap.field? id name with
      | some value => exact replaces value
      | none =>
          simp only [look_bind]
          cases (state.heap.classOf id).methods[name]? <;> rfl
  | classObject id =>
      simp only [State.lookup, look_bind]
      cases (state.heap.classAt id).statics[name]? <;> rfl
  | moduleHandle id label =>
      simp only [State.lookup]
      have variable_ := moduleVariable_eq state id name
      cases content : (state.registry.moduleAt id).assignedByName? name with
      | some value =>
          rw [content] at variable_
          rw [bind_of_ok variable_]
          exact replaces value
      | none =>
          rw [content] at variable_
          rw [bind_of_error variable_]
  | _ => rfl

/-- A bound method is called with its receiver in the place of the callee. -/
theorem callValue_boundMethod
    {callee receiver method : Value}
    (id : Nat)
    (stack : state.stack = lower.push callee ++ arguments) :
    callValue environment (.boundMethod id receiver method) arguments.size state =
      callValue environment method arguments.size
        { state with stack := lower.push receiver ++ arguments } := by
  rw [callValue, bind_of_ok (calleeSlot_below stack), ← setIfInBounds_below callee receiver,
    ← stack]
  rfl

/--
Calling a property that was read before does what calling it at once does, if the
bound method that was made has been made in both cases.
-/
theorem call_property_eq_invoke
    {receiver value : Value}
    {after : State}
    (stack : state.stack = lower.push receiver ++ arguments)
    {name : String}
    (read : property receiver name state = (.ok value, after)) :
    callValue environment value arguments.size
        { after with stack := lower.push value ++ arguments } =
      invoke environment name arguments.size after := by
  rw [property_eq] at read
  cases found : state.lookup receiver name with
  | missing fault =>
      rw [found] at read
      cases read
  | stored other =>
      rw [found] at read
      cases read
      rw [invoke_eq stack, found]
  | method method =>
      rw [found] at read
      cases read
      have same : (state.withBoundMethods (state.heap.boundMethods + 1)).stack =
          lower.push receiver ++ arguments := stack
      rw [invoke_eq same, State.lookup_withBoundMethods, found, callValue_boundMethod _ rfl, ← same]

/-- Calling a property at once makes no bound method and does not depend on those made before. -/
theorem invoke_withBoundMethods
    {receiver : Value}
    (stack : state.stack = lower.push receiver ++ arguments)
    (name : String)
    (count : Nat) :
    invoke environment name arguments.size (state.withBoundMethods count) =
      ((invoke environment name arguments.size state).1,
        (invoke environment name arguments.size state).2.withBoundMethods count) := by
  have same : (state.withBoundMethods count).stack = lower.push receiver ++ arguments := stack
  rw [invoke_eq same, invoke_eq stack, State.lookup_withBoundMethods]
  cases state.lookup receiver name with
  | missing fault => rfl
  | stored value =>
      exact callValue_ignores environment value arguments.size
        { state with stack := lower.push value ++ arguments } count
  | method method => exact callValue_ignores environment method arguments.size state count

/-- Reading a property uses up at most one number of a bound method and changes nothing else. -/
theorem after_property
    {receiver value : Value}
    {name : String}
    {after : State}
    (read : property receiver name state = (.ok value, after)) :
    after = state.withBoundMethods after.heap.boundMethods ∧
      (after.heap.boundMethods = state.heap.boundMethods ∨
        after.heap.boundMethods = state.heap.boundMethods + 1) := by
  rw [property_eq] at read
  cases found : state.lookup receiver name with
  | missing fault =>
      rw [found] at read
      cases read
  | stored other =>
      rw [found] at read
      cases read
      exact ⟨rfl, .inl rfl⟩
  | method method =>
      rw [found] at read
      cases read
      exact ⟨rfl, .inr rfl⟩

/-- Where a property cannot be read, calling it at once is interrupted in the same way. -/
theorem invoke_of_property_error
    (environment : Environment)
    {receiver : Value}
    (stack : state.stack = lower.push receiver ++ arguments)
    {name : String}
    {interruption : Interruption}
    {after : State}
    (failed : property receiver name state = (.error interruption, after)) :
    after = state ∧
      invoke environment name arguments.size state = (.error interruption, state) := by
  rw [property_eq] at failed
  rw [invoke_eq stack]
  cases found : state.lookup receiver name with
  | missing fault =>
      rw [found] at failed
      cases failed
      exact ⟨rfl, rfl⟩
  | stored other =>
      rw [found] at failed
      cases failed
  | method method =>
      rw [found] at failed
      cases failed

end Action

open Action

/--
The instruction that calls a property at once agrees with reading the property,
putting it in the place of the receiver, and calling it.

It stops with a fault exactly where one of the two steps does, with the same
wording and origin.  Otherwise the two steps give the same result and leave the
same state, up to the number of the bound method that they make.  And where the
bound method has been made in both cases, there is no difference at all: if a host
routine begins, the same one begins in the same state.
-/
theorem invoke_agrees_with_call_of_property
    (environment : Environment)
    (depth : Nat)
    (state : State)
    {lower arguments : Array Value}
    {receiver : Value}
    (stack : state.stack = lower.push receiver ++ arguments)
    {count : UInt8}
    (counted : count.toNat = arguments.size)
    {index : UInt16}
    {name : String}
    (named : Action.name index state = (.ok name, state)) :
    (∀ message origin,
      (execute environment depth (.invoke index count)).FaultsWith state message origin ↔
        (property receiver name).FaultsWith state message origin ∨
          ∃ value after,
            property receiver name state = (.ok value, after) ∧
              (execute environment depth (.call count)).FaultsWith
                { after with stack := lower.push value ++ arguments } message origin) ∧
      ∀ value after,
        property receiver name state = (.ok value, after) →
          (after = state.withBoundMethods after.heap.boundMethods ∧
            (after.heap.boundMethods = state.heap.boundMethods ∨
              after.heap.boundMethods = state.heap.boundMethods + 1)) ∧
          execute environment depth (.call count)
              { after with stack := lower.push value ++ arguments } =
            ((execute environment depth (.invoke index count) state).1,
              (execute environment depth (.invoke index count) state).2.withBoundMethods
                after.heap.boundMethods) ∧
          execute environment depth (.call count)
              { after with stack := lower.push value ++ arguments } =
            execute environment depth (.invoke index count) after := by
  have invokes :
      ∀ other, Action.name index other = (.ok name, other) →
        execute environment depth (.invoke index count) other =
          invoke environment name arguments.size other := by
    intro other isNamed
    rw [← counted]
    exact bind_of_ok isNamed _
  have calls :
      ∀ (value : Value) (after : State),
        execute environment depth (.call count)
            { after with stack := lower.push value ++ arguments } =
          callValue environment value arguments.size
            { after with stack := lower.push value ++ arguments } := by
    intro value after
    show (peek count.toNat >>= fun callee => callValue environment callee count.toNat) _ = _
    rw [counted]
    exact bind_of_ok (peek_below rfl) _
  -- After reading the property the two ways differ in the bound method only.
  have agrees :
      ∀ value after,
        property receiver name state = (.ok value, after) →
          execute environment depth (.call count)
              { after with stack := lower.push value ++ arguments } =
            ((execute environment depth (.invoke index count) state).1,
              (execute environment depth (.invoke index count) state).2.withBoundMethods
                after.heap.boundMethods) := by
    intro value after read
    rw [calls, call_property_eq_invoke stack read, invokes state named,
      ← invoke_withBoundMethods stack, ← (after_property read).1]
  refine ⟨fun message origin => ⟨?_, ?_⟩, fun value after read => ?_⟩
  · rintro ⟨fault, final, faulted, isMessage, isOrigin⟩
    rcases outcome : property receiver name state with ⟨interruption | value, after⟩
    · rw [invokes state named, (invoke_of_property_error environment stack outcome).2] at faulted
      cases faulted
      exact .inl ⟨fault, after, outcome, isMessage, isOrigin⟩
    · have same := agrees value after outcome
      rw [faulted] at same
      exact .inr ⟨value, after, rfl, fault, _, same, isMessage, isOrigin⟩
  · rintro (⟨fault, after, failed, isMessage, isOrigin⟩ |
      ⟨value, after, read, fault, final, faulted, isMessage, isOrigin⟩)
    · refine ⟨fault, state, ?_, isMessage, isOrigin⟩
      rw [invokes state named]
      exact (invoke_of_property_error environment stack failed).2
    · rw [agrees value after read, Prod.mk.injEq] at faulted
      exact ⟨fault, _, Prod.ext faulted.1 rfl, isMessage, isOrigin⟩
  · have isNamed : Action.name index after = (.ok name, after) := by
      rw [(after_property read).1, name_ignores, named]
    refine ⟨after_property read, agrees value after read, ?_⟩
    rw [calls, call_property_eq_invoke stack read, invokes after isNamed]

/-- An instance of a class with a method `m` without parameters, below an argument. -/
def methodSample : State where
  stack := #[.null, .object 0, .bool true]
  frames :=
    #[{ function :=
          { name := none, arity := 0, chunk := { entries := #[.ofValue (.string "m")] }, home := 0 }
        offset := 0, base := 0, initializer := false }]
  heap :=
    { functions := #[{ name := some "m", arity := 0, chunk := {}, home := 0 }]
      classes := #[{ name := "C", methods := (∅ : Table).insert "m" (.function 0) }]
      objects := #[{ classId := 0 }] }

/-- With one argument too many, the method fails in the same words when it is read first. -/
theorem methodSample_agrees :
    (property (.object 0) "m").FaultsWith methodSample "Expected 0 arguments but got 1." .script ∨
      ∃ value after,
        property (.object 0) "m" methodSample = (.ok value, after) ∧
          (execute { settings := {}, host := Host.empty } 0 (.call 1)).FaultsWith
            { after with stack := #[.null, value, .bool true] }
            "Expected 0 arguments but got 1." .script := by
  have stack :
      methodSample.stack = #[Value.null].push (.object 0) ++ #[Value.bool true] := rfl
  have named : Action.name 0 methodSample = (.ok "m", methodSample) := rfl
  have found : methodSample.lookup (.object 0) "m" = .method (.function 0) := by
    simp [State.lookup, methodSample, Heap.field?, Heap.objectAt, Heap.classOf, Heap.classAt]
  have faults :
      (execute { settings := {}, host := Host.empty } 0 (.invoke 0 1)).FaultsWith methodSample
        "Expected 0 arguments but got 1." .script := by
    refine ⟨.argumentCount 0 1, methodSample, ?_, by decide, rfl⟩
    show (Action.name 0 >>= fun name => invoke _ name 1) methodSample = _
    rw [bind_of_ok named]
    refine (invoke_eq stack "m").trans ?_
    rw [found]
    rfl
  exact ((invoke_agrees_with_call_of_property { settings := {}, host := Host.empty } 0 methodSample
    stack (show (1 : UInt8).toNat = 1 from rfl) named).1 _ _).mp faults

end ScriptEngine
