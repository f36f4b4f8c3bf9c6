import ScriptEngine.Proofs.Machine.Completion
import ScriptEngine.Proofs.Machine.Invocation

/-!
# Making instances

A class makes an instance, which takes the place of the callee, and runs the initialiser on
it.
-/

namespace ScriptEngine

/-! ## What a call calls -/

namespace Value

/-- What is called in the end: the method of a bound method. -/
def target : Value → Value
  | boundMethod _ _ method => method.target
  | value => value

/-- What stands in slot zero in the end, if a value is called in the place of another. -/
def receiverFor (callee occupant : Value) : Value :=
  match callee with
  | boundMethod _ receiver method => method.receiverFor receiver
  | _ => occupant

end Value

namespace Action

variable {environment : Environment} {state : State} {lower arguments : Array Value}

/-- A call comes down to a call of what is not a bound method. -/
theorem callValue_eq
    (callee : Value)
    {occupant : Value}
    (stack : state.stack = lower.push occupant ++ arguments) :
    callValue environment callee arguments.size state =
      callValue environment callee.target arguments.size
        { state with stack := lower.push (callee.receiverFor occupant) ++ arguments } := by
  induction callee generalizing state occupant with
  | boundMethod id receiver method _ induction =>
      rw [callValue_boundMethod id stack]
      exact induction rfl
  | _ => exact congrArg _ (congrArg (fun stack => { state with stack }) stack)

/-- A function is entered, or a fault tells why it is not. -/
theorem enterFunction_cases
    (environment : Environment)
    (function : Function)
    (initializer : Bool)
    {occupant : Value}
    (stack : state.stack = lower.push occupant ++ arguments) :
    let enters : Action Transition := do
      pushFrame environment.settings.limits function arguments.size initializer
      return .proceed
    enters state =
        (.ok .proceed,
          { state with
            frames :=
              state.frames.push { function, offset := 0, base := lower.size, initializer } }) ∨
      ∃ fault, enters state = (.error (.fault fault), state) := by
  intro enters
  by_cases arity : arguments.size = function.arity
  · have pushes := pushFrame_of_arity environment.settings.limits arity initializer state
    by_cases free : state.frames.size < environment.settings.limits.maxFrames
    · rw [if_pos free] at pushes
      have base : state.stack.size - arguments.size - 1 = lower.size := by
        rw [stack, Array.size_append, Array.size_push]
        omega
      rw [base] at pushes
      exact .inl (bind_of_ok pushes _)
    · rw [if_neg free] at pushes
      exact .inr ⟨_, bind_of_error pushes _⟩
  · refine .inr ⟨.argumentCount function.arity arguments.size, ?_⟩
    show (pushFrame environment.settings.limits function arguments.size initializer >>= _) state = _
    unfold pushFrame
    simp only [raise_bind]
    rw [if_pos arity]
    rfl

end Action

/-- What a routine that needs no host does at once: its result, and the heap afterwards. -/
def Routine.atOnce? (receiver : Value) (arguments : List Value) (heap : Heap) :
    Routine → Option (Except String Value × Heap)
  | sequence method => some (Container.runSequence method receiver arguments heap)
  | dictionary method => some (Container.runDictionary method receiver arguments heap)
  | host _ => none

namespace Action

variable {environment : Environment} {state : State} {lower arguments : Array Value}

/-- What the call of a native initialiser on an instance in a slot leads to. -/
inductive NativeOutcome (environment : Environment) (native : Native) (slot : Nat)
    (created : Value) (arguments : List Value) (state : State) :
    Except Interruption Transition × State → Prop where
  | fails (fault : Fault) (after : State) :
      NativeOutcome environment native slot created arguments state (.error (.fault fault), after)
  | host
      {key : String}
      (isRoutine : native.routine = .host key) :
      NativeOutcome environment native slot created arguments state
        (.ok (.enterHost { slot, constructed := some created }
          (environment.host key created arguments)), state)
  | atOnce
      {value : Value}
      {after : State}
      (done :
        native.routine.atOnce? created arguments state.heap = some (.ok value, after.heap))
      (frames : after.frames = state.frames)
      (top : after.stack.back? = some created) :
      NativeOutcome environment native slot created arguments state (.ok .proceed, after)

/-- The result of a routine that needs no host is not what the initialiser gives. -/
theorem nativeOutcome_of_completeAtOnce
    {native : Native}
    {created : Value}
    {arguments : List Value}
    {result : Except String Value}
    {heap : Heap}
    (done : native.routine.atOnce? created arguments state.heap = some (result, heap))
    (slot : Nat) :
    NativeOutcome environment native slot created arguments state
      (completeAtOnce environment { slot, constructed := some created } result
        { state with heap }) := by
  unfold completeAtOnce
  rcases result with message | value
  · exact .fails (.host message) _
  · have constructs : HostCall.constructed { slot, constructed := some created } = created := rfl
    rcases completeHostCall_cases environment constructs value { state with heap } with
      ⟨after, completes, frames, rfl, top⟩ | ⟨after, full⟩
    · dsimp only
      rw [bind_of_ok completes]
      exact .atOnce done frames top
    · dsimp only
      rw [bind_of_error full]
      exact .fails _ _

/-- What the call of a native initialiser leads to. -/
theorem callNative_outcome
    (native : Native)
    {created : Value}
    (stack : state.stack = lower.push created ++ arguments) :
    NativeOutcome environment native lower.size created arguments.toList state
      (callNative environment native arguments.size (some created) state) := by
  generalize isCall : callNative environment native arguments.size (some created) = call
  unfold callNative at isCall
  extract_lets goOn at isCall
  have goesOn :
      NativeOutcome environment native lower.size created arguments.toList state
        (goOn () state) := by
    change NativeOutcome environment native lower.size created arguments.toList state
      ((calleeSlot arguments.size >>= _) state)
    rw [bind_of_ok (calleeSlot_below stack), look_bind, look_bind, getD_below stack,
      extract_below stack]
    cases isRoutine : native.routine with
    | host key => exact .host isRoutine
    | sequence method =>
        exact nativeOutcome_of_completeAtOnce (by rw [isRoutine]; rfl) lower.size
    | dictionary method =>
        exact nativeOutcome_of_completeAtOnce (by rw [isRoutine]; rfl) lower.size
  cases arity : native.arity with
  | any =>
      rw [arity] at isCall
      exact isCall ▸ goesOn
  | exactly expected =>
      rw [arity] at isCall
      dsimp only at isCall
      by_cases accepted : expected ≠ arguments.size
      · rw [← isCall, if_pos accepted]
        exact .fails _ _
      · rw [← isCall, if_neg accepted]
        exact goesOn

end Action

/-- An instance has been made of a class and stands in the place of the callee. -/
def State.withInstance (state : State) (classId : Nat) (lower arguments : Array Value) : State :=
  { state with
    heap := (state.heap.addObject classId).2
    stack := lower.push (.object (state.heap.addObject classId).1) ++ arguments }

namespace Action

variable {environment : Environment} {state : State} {lower arguments : Array Value}

/-- What the construction of an instance leads to. -/
inductive ConstructionOutcome (environment : Environment) (state : State) (classId : Nat)
    (lower arguments : Array Value) : Except Interruption Transition × State → Prop where
  | fails (fault : Fault) (after : State) :
      ConstructionOutcome environment state classId lower arguments (.error (.fault fault), after)
  | absent
      (missing : (state.heap.classAt classId).methods["init"]? = none)
      (bare : arguments = #[]) :
      ConstructionOutcome environment state classId lower arguments
        (.ok .proceed, state.withInstance classId lower arguments)
  | compiled
      {id : Nat}
      (found : (state.heap.classAt classId).methods["init"]? = some (.function id)) :
      ConstructionOutcome environment state classId lower arguments
        (.ok .proceed,
          { state.withInstance classId lower arguments with
            frames :=
              state.frames.push
                { function := state.heap.function id
                  offset := 0
                  base := lower.size
                  initializer := true } })
  | native
      {id : Nat}
      {outcome : Except Interruption Transition × State}
      (found : (state.heap.classAt classId).methods["init"]? = some (.hostMethod id))
      (leads :
        NativeOutcome environment (state.heap.native id) lower.size
          (.object (state.heap.addObject classId).1) arguments.toList
          (state.withInstance classId lower arguments) outcome) :
      ConstructionOutcome environment state classId lower arguments outcome

theorem construct_outcome
    (environment : Environment)
    (classId : Nat)
    {occupant : Value}
    (stack : state.stack = lower.push occupant ++ arguments) :
    ConstructionOutcome environment state classId lower arguments
      (construct environment classId arguments.size state) := by
  let made := state.withInstance classId lower arguments
  have adds :
      updateHeap (fun heap => heap.addObject classId) state =
        (.ok (state.heap.addObject classId).1,
          { state with heap := (state.heap.addObject classId).2 }) :=
    rfl
  have sets :
      setSlot lower.size (.object (state.heap.addObject classId).1)
          { state with heap := (state.heap.addObject classId).2 } =
        (.ok (), made) := by
    show (Except.ok (), { state with
      heap := (state.heap.addObject classId).2
      stack := state.stack.setIfInBounds lower.size _ }) = _
    rw [stack, setIfInBounds_below]
    rfl
  have sameClass : made.heap.classAt classId = state.heap.classAt classId := rfl
  unfold construct
  rw [bind_of_ok (calleeSlot_below stack), bind_of_ok adds]
  dsimp only
  rw [bind_of_ok sets, look_bind, sameClass]
  cases found : (state.heap.classAt classId).methods["init"]? with
  | none =>
      by_cases bare : arguments.size ≠ 0
      · simp only [if_pos bare]
        exact .fails _ _
      · simp only [if_neg bare]
        exact .absent found (Array.eq_empty_of_size_eq_zero (not_not.mp bare))
  | some initializer =>
      cases initializer with
      | function id =>
          dsimp only
          rw [look_bind]
          rcases enterFunction_cases environment (state.heap.function id) true
            (show made.stack = lower.push _ ++ arguments from rfl) with entered | ⟨fault, refused⟩
          · exact entered ▸ .compiled found
          · exact refused ▸ .fails fault made
      | hostMethod id =>
          dsimp only
          rw [look_bind]
          exact .native found (callNative_outcome _ rfl)
      | _ => exact .fails _ _

end Action

/-! ## Initialisers -/

open Machine

/--
The initialiser of a class has run on an instance.  When it began, the instance stood in slot
zero, with the arguments above it, or it was handed to the routine of the host as its
receiver; later the function was about to return, or the routine to end.  A routine that
needs no host has run at once, and a class without an initialiser takes no arguments.
-/
inductive Machine.Initialized (environment : Environment) (heap : Heap) (classId : Nat)
    (created : Value) (arguments : Array Value) (began ending : Machine) : Prop where
  | absent
      (missing : (heap.classAt classId).methods["init"]? = none)
      (bare : arguments = #[])
  | compiled
      {id offset : Nat}
      {lower : Array Value}
      (found : (heap.classAt classId).methods["init"]? = some (.function id))
      (begins :
        began.state.frames.back? =
          some
            { function := heap.function id
              offset := 0
              base := lower.size
              initializer := true })
      (operands : began.state.stack = lower.push created ++ arguments)
      (size : ending.state.frames.size = began.state.frames.size)
      (returns :
        ending.Executes
          { function := heap.function id
            offset
            base := lower.size
            initializer := true }
          .leave)
  | host
      {id slot : Nat}
      {key : String}
      {value : Value}
      (found : (heap.classAt classId).methods["init"]? = some (.hostMethod id))
      (isRoutine : (heap.native id).routine = .host key)
      (begins :
        began.control =
          .host { slot, constructed := some created }
            (environment.host key created arguments.toList))
      (ends : ending.control = .host { slot, constructed := some created } (.finish value))
  | atOnce
      {id : Nat}
      {value : Value}
      (found : (heap.classAt classId).methods["init"]? = some (.hostMethod id))
      (done :
        (heap.native id).routine.atOnce? created arguments.toList (heap.addObject classId).2 =
          some (.ok value, began.state.heap))

namespace Site

variable
  {environment : Environment}
  {call : OuterCall}
  {site : Site}
  {before : State}
  {lower arguments : Array Value}
  {occupant : Value}

/-- A function that has just been entered is active. -/
theorem runs_of_entered
    (size : before.frames.size = site.depth)
    (activation : Activation)
    (after : State)
    (frames : after.frames = before.frames.push (activation.frame 0))
    (receiver : after.stack[activation.base]? = some activation.receiver) :
    settle .script site.around (.ok .proceed, after) =
        { state := after, control := .script, subRuns := site.around } ∧
      site.Runs activation [] { state := after, control := .script, subRuns := site.around } := by
  have count : after.frames.size = site.depth + 1 := by
    rw [frames, Array.size_push, size]
  have deeper : entryDepthOf site.around < after.frames.size := by
    rw [count]
    exact Nat.lt_succ_of_le site.within
  refine ⟨resume_of_deeper deeper, ⟨rfl, nofun, ⟨Nat.le_of_eq count.symm, ?_⟩, nofun⟩, receiver,
    0, ?_, .beginning⟩
  · intro place frame above found
    have inside := (Array.getElem?_eq_some_iff.mp found).1
    change place < after.frames.size at inside
    omega
  · show after.frames[site.depth]? = _
    rw [frames, ← size, Array.getElem?_push_size]

/-- The receiver of a function stands beneath its arguments. -/
theorem getElem?_occupant (lower arguments : Array Value) (occupant : Value) :
    (lower.push occupant ++ arguments)[lower.size]? = some occupant := by
  simp [Array.getElem?_append]

/-- The heap is the same when a result has been handed over. -/
theorem heap_resume
    {state : State}
    {value : Value}
    (top : state.stack.back? = some value)
    (subRuns : List SubRun) :
    (Machine.resume { state, control := .script, subRuns }).state.heap = state.heap := by
  unfold Machine.resume
  split
  · rfl
  · simp only [Action.pop, top]
    rw [state_conclude]

variable
  (orderly : call.state.Orderly)
  (size : before.frames.size = site.depth)
  (stack : before.stack = lower.push occupant ++ arguments)

include orderly size stack

/-- A class yields the instance that it has made. -/
theorem undertakes_construct (classId : Nat) :
    site.Undertakes environment call (.object (before.heap.addObject classId).1)
      (Initialized environment before.heap classId (.object (before.heap.addObject classId).1)
        arguments)
      (settle .script site.around
        (Action.construct environment classId arguments.size before)) := by
  have outcome := Action.construct_outcome environment classId stack
  generalize Action.construct environment classId arguments.size before = result at outcome
  cases outcome with
  | fails fault after => exact .fails (.raise _ _ _)
  | absent missing bare =>
      refine .atOnce (ends_of_resume size ?_) fun _ _ => .absent missing bare
      show (lower.push _ ++ arguments).back? = _
      rw [bare, Array.append_empty, Array.back?_push]
  | @compiled id found =>
      let activation : Activation :=
        { function := before.heap.function id
          base := lower.size
          initializer := true
          receiver := .object (before.heap.addObject classId).1 }
      let entered : State :=
        { before.withInstance classId lower arguments with
          frames := before.frames.push (activation.frame 0) }
      rcases runs_of_entered size activation entered rfl (getElem?_occupant lower arguments _) with
        ⟨isNext, runs⟩
      show site.Undertakes environment call _ _ (settle .script site.around (.ok .proceed, entered))
      rw [isNext]
      refine .pursues (pursues_function orderly activation (.inl rfl)) ⟨[], runs⟩ ?_
      rintro ending ⟨-, count, offset, executes⟩
      refine .compiled found Array.back?_push rfl ?_ executes
      rw [count]
      show _ = (before.frames.push _).size
      rw [Array.size_push, size]
  | @native id result found leads =>
      cases leads with
      | fails fault after => exact .fails (.raise _ _ _)
      | @host key isRoutine =>
          let routine : HostCall :=
            { slot := lower.size
              constructed := some (.object (before.heap.addObject classId).1) }
          let program :=
            environment.host key (.object (before.heap.addObject classId).1) arguments.toList
          have hosts :
              site.Hosts routine []
                { state := before.withInstance classId lower arguments
                  control := .host routine program
                  subRuns := site.around } := by
            refine ⟨⟨rfl, nofun, ⟨Nat.le_of_eq size.symm, ?_⟩, ?_⟩, .inl ⟨rfl, size, _, rfl⟩⟩
            · intro place frame above found
              have inside := (Array.getElem?_eq_some_iff.mp found).1
              change place < before.frames.size at inside
              omega
            · rintro _ _ ⟨⟩
              exact Nat.le_refl _
          refine .pursues (pursues_routine orderly rfl) ⟨[], hosts⟩ ?_
          rintro ending ⟨-, value, isHost⟩
          exact .host found isRoutine rfl isHost
      | @atOnce value after done frames top =>
          refine .atOnce (ends_of_resume ((congrArg Array.size frames).trans size) top) ?_
          intro other same
          have heap : other.state.heap = after.heap :=
            same.trans (heap_resume top site.around)
          exact .atOnce found (heap ▸ done)

/-- A function whose code returns slot zero yields what stands there. -/
theorem undertakes_function
    {function : Function}
    (yields : function.YieldsReceiver) :
    site.Undertakes environment call occupant (fun _ _ => True)
      (settle .script site.around
        ((do
          Action.pushFrame environment.settings.limits function arguments.size false
          return .proceed : Action Transition) before)) := by
  rcases Action.enterFunction_cases environment function false stack with
    entered | ⟨fault, refused⟩
  · rw [entered]
    let activation : Activation :=
      { function, base := lower.size, initializer := false, receiver := occupant }
    let after : State := { before with frames := before.frames.push (activation.frame 0) }
    have receiver : after.stack[activation.base]? = some activation.receiver := by
      show before.stack[lower.size]? = some occupant
      rw [stack]
      exact getElem?_occupant lower arguments occupant
    rcases runs_of_entered size activation after rfl receiver with ⟨isNext, runs⟩
    show site.Undertakes environment call _ _ (settle .script site.around (.ok .proceed, after))
    rw [isNext]
    exact .pursues (pursues_function orderly activation (.inr yields)) ⟨[], runs⟩
      fun _ _ => trivial
  · rw [refused]
    exact .fails (.raise _ _ _)

/-! ## Calls of classes and initialisers -/

theorem undertakes_class
    {callee : Value}
    {classId : Nat}
    (isClass : callee.target = .classObject classId) :
    site.Undertakes environment call (.object (before.heap.addObject classId).1)
      (Initialized environment before.heap classId (.object (before.heap.addObject classId).1)
        arguments)
      (settle .script site.around
        (Action.callValue environment callee arguments.size before)) := by
  rw [Action.callValue_eq callee stack, isClass]
  unfold Action.callValue
  let state : State :=
    { before with stack := lower.push (callee.receiverFor occupant) ++ arguments }
  have same : state.frames.size = site.depth := size
  exact undertakes_construct orderly same rfl classId

theorem undertakes_initializer
    {callee : Value}
    {id : Nat}
    (isFunction : callee.target = .function id)
    (yields : (before.heap.function id).YieldsReceiver) :
    site.Undertakes environment call (callee.receiverFor occupant) (fun _ _ => True)
      (settle .script site.around
        (Action.callValue environment callee arguments.size before)) := by
  rw [Action.callValue_eq callee stack, isFunction]
  unfold Action.callValue
  let state : State :=
    { before with stack := lower.push (callee.receiverFor occupant) ++ arguments }
  have same : state.frames.size = site.depth := size
  exact undertakes_function orderly same (show state.stack = _ from rfl) yields

end Site

end ScriptEngine
