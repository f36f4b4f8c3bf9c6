import ScriptEngine.Proofs.Compiler.JoiningRoutines
import ScriptEngine.Proofs.Machine.Construction

/-!
# Constructors yield the new instance

A call of a class that is completed gives the instance that it has made, and the initialiser
has run with this instance as its receiver, whether the class is called by compiled code or
from outside.  A compiled initialiser that is called as a method gives its receiver.  Both
hold whatever the initialiser does (`constructor_yields_instance`).
-/

namespace ScriptEngine

open Instruction Machine

/-! ## Compiled initialisers -/

/-- The code of a function attaches another one to a class, under a name. -/
def Function.Attaches (function : Function) (name : String) (id : Nat) : Prop :=
  ∃ offset target instruction index,
    Boundary function.chunk.code offset ∧
      decode function.chunk.code offset = .complete instruction ∧
      target ∈ instruction.successors offset ∧
      instruction.Pushes function.chunk.constants (.function id) ∧
      decode function.chunk.code target = .complete (.method index) ∧
      function.chunk.constants[index.toNat]? = some (.string name)

/-- Some code attaches the function to a class as its initialiser. -/
def Heap.HasInitializer (heap : Heap) (id : Nat) : Prop :=
  ∃ function ∈ heap.functions, function.Attaches "init" id

/-- The code of a function returns slot zero. -/
def Heap.Yields (heap : Heap) (id : Nat) : Prop :=
  ∃ function, heap.functions[id]? = some function ∧ function.YieldsReceiver

/-- What is attached as an initialiser returns slot zero. -/
structure State.Initializing (state : State) : Prop where
  functions : ∀ function ∈ state.heap.functions, function.AttachesInitializers state.heap.Yields

/-- An instruction pushes one constant. -/
theorem Instruction.Pushes.unique
    {constants : Array Value}
    {first second : Value}
    {instruction : Instruction}
    (pushes : instruction.Pushes constants first)
    (again : instruction.Pushes constants second) :
    first = second := by
  cases pushes with
  | constant found =>
      cases again with
      | constant other => exact Option.some.inj (found.symm.trans other)
  | constantLong found =>
      cases again with
      | constantLong other => exact Option.some.inj (found.symm.trans other)

namespace State.Initializing

variable {state : State}

/-- Every initialiser in the heap returns slot zero. -/
theorem yields
    (initializing : state.Initializing)
    {id : Nat}
    (isInitializer : state.heap.HasInitializer id) :
    (state.heap.function id).YieldsReceiver := by
  rcases isInitializer with
    ⟨function, member, offset, target, instruction, index, boundary, decoded, successor, pushes,
      attached, named⟩
  rcases (initializing.functions function member).before boundary decoded successor attached with
    ⟨other, alsoPushes, initializes⟩
  cases pushes.unique alsoPushes
  rcases initializes named with ⟨initializer, found, yields⟩
  unfold Heap.function
  rw [Array.getD_eq_getD_getElem?, found]
  exact yields

theorem addSource
    (initializing : state.Initializing)
    (mode : CompileMode)
    (id : Nat)
    (source : String) :
    (state.addSource mode id source).2.Initializing := by
  constructor
  intro function member
  rcases outcome : (compile mode source (state.registry.moduleAt id) id
      state.heap.functions.size).functions with error | functions
  · unfold State.addSource at member ⊢
    simp only [outcome] at member ⊢
    exact initializing.functions function member
  · unfold State.addSource at member ⊢
    simp only [outcome] at member ⊢
    rcases Array.mem_append.mp member with old | new
    · refine (initializing.functions function old).mono ?_
      rintro id ⟨other, found, yields⟩
      refine ⟨other, ?_, yields⟩
      rw [Array.getElem?_append_left (Array.getElem?_eq_some_iff.mp found).1]
      exact found
    · refine (attachesInitializers_of_compile outcome function new).mono ?_
      rintro id ⟨place, other, rfl, found, yields⟩
      refine ⟨other, ?_, yields⟩
      rw [Array.getElem?_append_right (Nat.le_add_right _ _), Nat.add_sub_cancel_left]
      exact found

end State.Initializing

/-- Whatever changes the state, initialisers return slot zero. -/
theorem State.initializing_invariant (limits : Limits) :
    State.Invariant limits (fun _ => True) State.Initializing where
  each := fun {state} _ => .of_forall (fun _ => trivial) state
  change := by
    intro before after initializing change
    cases change with
    | stack | journal | registry | frames => exact ⟨initializing.functions⟩
    | heap functions =>
        constructor
        unfold Heap.Yields
        rw [functions]
        exact initializing.functions
    | compile mode found source => exact initializing.addSource mode _ source

/-- In histories without code written by hand, initialisers return slot zero. -/
theorem Machine.Leads.initializing
    {environment : Environment}
    {first machine : Machine}
    (fresh : first.Fresh)
    (leads : first.Leads environment .compiled machine) :
    machine.state.Initializing := by
  have begins : first.state.Initializing := by
    constructor
    cases fresh <;> exact nofun
  have admits : Admits .compiled State.Initializing := fun _ _ supplied => False.elim supplied
  exact (leads.keeps (State.initializing_invariant _) admits
    (holds_of_forall (fun _ => trivial) begins)).state

/-! ## Calls -/

/--
What a machine is about to call, what stands in slot zero then, and the arguments.  A field or
a module variable takes the place of the receiver from which it is read; a method is called
on the receiver.
-/
inductive Machine.Calls (machine : Machine) : Value → Value → Array Value → Prop where
  | call
      {frame : Frame}
      {count : UInt8}
      {lower arguments : Array Value}
      {callee : Value}
      (executes : machine.Executes frame (.call count))
      (stack : machine.state.stack = lower.push callee ++ arguments)
      (counted : count.toNat = arguments.size) :
      Calls machine callee callee arguments
  | stored
      {frame : Frame}
      {index : UInt16}
      {count : UInt8}
      {name : String}
      {lower arguments : Array Value}
      {receiver value : Value}
      (executes : machine.Executes frame (.invoke index count))
      (named : frame.HasName index name)
      (stack : machine.state.stack = lower.push receiver ++ arguments)
      (counted : count.toNat = arguments.size)
      (found : machine.state.lookup receiver name = .stored value) :
      Calls machine value value arguments
  | method
      {frame : Frame}
      {index : UInt16}
      {count : UInt8}
      {name : String}
      {lower arguments : Array Value}
      {receiver method : Value}
      (executes : machine.Executes frame (.invoke index count))
      (named : frame.HasName index name)
      (stack : machine.state.stack = lower.push receiver ++ arguments)
      (counted : count.toNat = arguments.size)
      (found : machine.state.lookup receiver name = .method method) :
      Calls machine method receiver arguments

section Calling

variable
  {environment : Environment}
  {machine : Machine}
  {callee occupant : Value}
  {arguments : Array Value}

@[simp]
theorem State.lookup_fetched
    (environment : Environment)
    (frame : Frame)
    (instruction : Instruction)
    (state : State)
    (receiver : Value)
    (name : String) :
    (state.fetched environment frame instruction).lookup receiver name =
      state.lookup receiver name := by
  unfold State.lookup
  simp only [State.heap_fetched, State.registry_fetched]

/-- An instruction that calls a property has looked up the name and calls what it stands for. -/
theorem Machine.Executes.step_invoke
    {frame : Frame}
    {index : UInt16}
    {count : UInt8}
    (executes : machine.Executes frame (.invoke index count))
    {name : String}
    (named : frame.HasName index name)
    (counted : count.toNat = arguments.size) :
    machine.step environment =
      settle .script machine.subRuns
        (Action.invoke environment name arguments.size
          (machine.state.fetched environment frame (.invoke index count))) := by
  rw [executes.step_eq fun other _ same => by cases same; exact ⟨name, named⟩, ← counted]
  let fetched := machine.state.fetched environment frame (.invoke index count)
  have reads : Action.name index fetched = (.ok name, fetched) :=
    Action.name_of_hasName (State.back?_fetched executes.innermost) named
  exact congrArg _ (Action.bind_of_ok reads _)

theorem Machine.Calls.isScript (calls : machine.Calls callee occupant arguments) :
    machine.control = .script := by
  cases calls with
  | call executes | stored executes | method executes => exact executes.control

/-- The next step carries out the call. -/
theorem Machine.Calls.step_eq
    (environment : Environment)
    (calls : machine.Calls callee occupant arguments) :
    ∃ (before : State) (lower : Array Value),
      before.frames.size = machine.state.frames.size ∧
        before.heap = machine.state.heap ∧
        before.stack = lower.push occupant ++ arguments ∧
        machine.step environment =
          settle .script machine.subRuns
            (Action.callValue environment callee arguments.size before) := by
  cases calls with
  | @call frame count lower arguments callee executes stack counted =>
      let before := machine.state.fetched environment frame (.call count)
      have below : before.stack = lower.push callee ++ arguments :=
        State.stack_fetched.trans stack
      refine ⟨before, lower, State.size_frames_fetched, State.heap_fetched, below, ?_⟩
      rw [executes.step_eq nofun]
      show settle _ _ ((Action.peek count.toNat >>= _) before) = _
      rw [counted, Action.bind_of_ok (Action.peek_below below)]
  | @stored frame index count name lower arguments receiver value executes named stack counted
      found =>
      let fetched := machine.state.fetched environment frame (.invoke index count)
      have below : fetched.stack = lower.push receiver ++ arguments :=
        State.stack_fetched.trans stack
      have heap : fetched.heap = machine.state.heap := State.heap_fetched
      refine ⟨{ fetched with stack := lower.push callee ++ arguments }, lower,
        State.size_frames_fetched, heap, rfl, ?_⟩
      rw [executes.step_invoke named counted, Action.invoke_eq below, State.lookup_fetched, found]
  | @method frame index count name lower arguments receiver method executes named stack counted
      found =>
      let fetched := machine.state.fetched environment frame (.invoke index count)
      have below : fetched.stack = lower.push occupant ++ arguments :=
        State.stack_fetched.trans stack
      refine ⟨fetched, lower, State.size_frames_fetched, State.heap_fetched, below, ?_⟩
      rw [executes.step_invoke named counted, Action.invoke_eq below, State.lookup_fetched, found]

end Calling

/-- Arguments are pushed in order, or a fault tells why they are not. -/
theorem Machine.pushAll_cases
    (environment : Environment)
    (values : List Value)
    (state : State) :
    pushAll environment values state =
        (.ok (), { state with stack := state.stack ++ values.toArray }) ∨
      ∃ fault after, pushAll environment values state = (.error (.fault fault), after) := by
  induction values generalizing state with
  | nil =>
      refine .inl ?_
      show (Except.ok (), state) = _
      rw [Array.append_empty]
  | cons value rest induction =>
      unfold pushAll
      rcases Action.push_cases environment.settings.limits value state with pushed | full
      · rw [Action.bind_of_ok pushed]
        rcases induction { state with stack := state.stack.push value } with
          done | ⟨fault, after, failed⟩
        · refine .inl (done.trans ?_)
          simp
        · exact .inr ⟨fault, after, failed⟩
      · rw [Action.bind_of_error full]
        exact .inr ⟨_, _, rfl⟩

/-- A call from outside is carried out with the callee and its arguments on the stack. -/
theorem OuterCall.entered_cases
    (environment : Environment)
    (call : OuterCall) :
    (call.entered environment).FailsIn call.site.around ∨
      ∃ before : State,
        before.frames.size = call.site.depth ∧
          before.heap = call.state.heap ∧
          before.stack = call.state.stack.push call.callee ++ call.arguments.toArray ∧
          call.entered environment =
            settle .script call.site.around
              (Action.callValue environment call.callee call.arguments.toArray.size before) := by
  have fails {fault : Fault} {after : State} :
      enter environment (call.around.length + 1) call.callee call.arguments call.state =
          (.error (.fault fault), after) →
        (call.entered environment).FailsIn call.site.around := by
    intro failed
    show (settle .script call.site.around
      (enter environment (call.around.length + 1) call.callee call.arguments call.state)).FailsIn _
    rw [failed]
    exact .raise _ _ _
  by_cases deep : environment.settings.limits.maxNestedCalls < call.around.length + 1
  · have refused :
        enter environment (call.around.length + 1) call.callee call.arguments call.state =
          (.error (.fault .stackOverflow), call.state) := by
      unfold enter
      simp only [Action.raise_bind, if_pos deep]
      rfl
    exact .inl (fails refused)
  · by_cases many : Compiler.maxArguments < call.arguments.length
    · have refused :
          enter environment (call.around.length + 1) call.callee call.arguments call.state =
            (.error (.fault .tooManyArguments), call.state) := by
        unfold enter
        simp only [Action.raise_bind, if_neg deep, if_pos many]
        rfl
      exact .inl (fails refused)
    · have enters :
          enter environment (call.around.length + 1) call.callee call.arguments call.state =
            (do
              Action.push environment.settings.limits call.callee
              pushAll environment call.arguments
              Action.callValue environment call.callee call.arguments.length : Action Transition)
              call.state := by
        unfold enter
        simp only [Action.raise_bind, if_neg deep, if_neg many]
      let before : State :=
        { call.state with
          stack := call.state.stack.push call.callee ++ call.arguments.toArray }
      rcases Action.push_cases environment.settings.limits call.callee call.state with
        pushed | full
      · rw [Action.bind_of_ok pushed] at enters
        rcases pushAll_cases environment call.arguments
          { call.state with stack := call.state.stack.push call.callee } with
          all | ⟨fault, after, failed⟩
        · rw [Action.bind_of_ok all] at enters
          exact .inr ⟨before, rfl, rfl, rfl, congrArg (settle .script call.site.around) enters⟩
        · rw [Action.bind_of_error failed] at enters
          exact .inl (fails enters)
      · rw [Action.bind_of_error full] at enters
        exact .inl (fails enters)

/-! ## The value of a constructor -/

/-- What is known of the initialiser depends on the state and on what the machine does next. -/
theorem Machine.Initialized.of_same
    {environment : Environment}
    {heap : Heap}
    {classId : Nat}
    {created : Value}
    {arguments : Array Value}
    {began ending first last : Machine}
    (initialized : Initialized environment heap classId created arguments began ending)
    (sameBegan : first.state = began.state ∧ first.control = began.control)
    (sameEnding : last.state = ending.state ∧ last.control = ending.control) :
    Initialized environment heap classId created arguments first last := by
  rcases began with ⟨beganState, beganControl, beganCalls⟩
  rcases ending with ⟨endingState, endingControl, endingCalls⟩
  rcases first with ⟨state, control, firstCalls⟩
  rcases last with ⟨lastState, lastControl, lastCalls⟩
  rcases sameBegan with ⟨rfl, rfl⟩
  rcases sameEnding with ⟨rfl, rfl⟩
  cases initialized with
  | absent missing bare => exact .absent missing bare
  | compiled found begins operands size returns =>
      exact .compiled found begins operands size
        ⟨returns.control, returns.innermost, returns.decoded⟩
  | host found isRoutine begins ends => exact .host found isRoutine begins ends
  | atOnce found done => exact .atOnce found done

namespace OuterCall

variable
  {environment : Environment}
  {call : OuterCall}
  {value result : Value}
  {final : State}

/-- A call that succeeds does so with the value that it has undertaken to give. -/
theorem Succeeds.eq_value
    (succeeds : call.Succeeds environment result final)
    {outcome : Machine → Machine → Prop}
    (undertakes :
      ∀ before : State,
        before.frames.size = call.unawaited.site.depth →
        before.heap = call.state.heap →
        before.stack = call.state.stack.push call.callee ++ call.arguments.toArray →
          call.unawaited.site.Undertakes environment call.unawaited value outcome
            (settle .script call.unawaited.site.around
              (Action.callValue environment call.callee call.arguments.toArray.size before)))
    (congruent :
      ∀ {began ending first last : Machine},
        outcome began ending →
        first.state = began.state ∧ first.control = began.control →
        last.state = ending.state ∧ last.control = ending.control →
          outcome first last) :
    result = value ∧
      ∃ ending,
        call.Reaches environment ending ∧ outcome (call.entered environment) ending := by
  rcases reaches_iff_machineAt.mp succeeds with ⟨count, isFinal, lasted⟩
  have entered :
      call.unawaited.site.Undertakes environment call.unawaited value outcome
        (call.unawaited.entered environment) := by
    rcases call.unawaited.entered_cases environment with fails | ⟨before, size, heap, stack, isNext⟩
    · exact .fails fails
    · rw [isNext]
      exact undertakes before size heap stack
  rcases entered.returned rfl isFinal lasted with ⟨same, done | ⟨ending, before, done⟩⟩
  · have alike :
        call.Alike (call.machineAt environment 0) (call.unawaited.machineAt environment 0) :=
      alike_machineAt fun _ before => absurd before (Nat.not_lt_zero _)
    exact ⟨same, _, .entered, done _ (congrArg State.heap alike.sameState)⟩
  · have alike := fun now (less : now < count) =>
      (alike_machineAt fun earlier bound => lasted earlier (Nat.lt_trans bound less)).same
        (lasted now less)
    have first := alike 0 (Nat.zero_lt_of_lt before)
    have last := alike ending before
    refine ⟨same, call.machineAt environment ending, ?_,
      congruent done ⟨first.1, first.2.1⟩ ⟨last.1, last.2.1⟩⟩
    exact reaches_iff_machineAt.mpr
      ⟨ending, rfl, fun earlier less => (alike earlier (Nat.lt_trans less before)).2.2⟩

end OuterCall

/--
In every history without code written by hand, wherever a class is called, if the call is
completed, its value is the instance that it has added to the heap, and the initialiser of
the class has run on this instance.  A call from outside is completed if it succeeds, whoever
waits for its outcome.  A call that a function has made is completed if the function goes on;
it finds the value on top of the stack, whether it has called a value or the property of a
receiver.  A compiled initialiser that is called without its class gives its receiver.
-/
theorem constructor_yields_instance
    {environment : Environment}
    {first machine : Machine}
    (fresh : first.Fresh)
    (leads : first.Leads environment .compiled machine)
    (call : OuterCall)
    (sameState : call.state = machine.state) :
    (∀ value final,
        call.Succeeds environment value final →
          (∀ classId,
              call.callee.target = .classObject classId →
                value = .object (call.state.heap.addObject classId).1 ∧
                  ∃ ending,
                    call.Reaches environment ending ∧
                      Initialized environment call.state.heap classId value
                        call.arguments.toArray (call.entered environment) ending) ∧
            ∀ id,
              call.callee.target = .function id →
              call.state.heap.HasInitializer id →
                value = call.callee.receiverFor call.callee) ∧
      ∀ begun now callee occupant arguments,
        (call.machineAt environment begun).Calls callee occupant arguments →
        call.GoesOnAt environment begun now →
          let heap := (call.machineAt environment begun).state.heap
          let top := (call.machineAt environment now).state.stack.back?
          (∀ classId,
              callee.target = .classObject classId →
                let created : Value := .object (heap.addObject classId).1
                top = some created ∧
                  ∃ ending,
                    begun < ending ∧
                      ending ≤ now ∧
                      Initialized environment heap classId created arguments
                        (call.machineAt environment (begun + 1))
                        (call.machineAt environment ending)) ∧
            ∀ id,
              callee.target = .function id →
              heap.HasInitializer id →
                top = some (callee.receiverFor occupant) := by
  have orderly : call.state.Orderly := by
    rw [sameState]
    exact (leads.inOrder fresh).1
  have initializing : call.state.Initializing := by
    rw [sameState]
    exact leads.initializing fresh
  have unawaited : call.unawaited.state.Orderly := orderly
  constructor
  · intro value final succeeds
    constructor
    · intro classId isClass
      have undertakes (before : State) (size : before.frames.size = call.unawaited.site.depth)
          (heap : before.heap = call.state.heap)
          (stack : before.stack = call.state.stack.push call.callee ++ call.arguments.toArray) :
          call.unawaited.site.Undertakes environment call.unawaited
            (.object (call.state.heap.addObject classId).1)
            (Initialized environment call.state.heap classId
              (.object (call.state.heap.addObject classId).1) call.arguments.toArray)
            (settle .script call.unawaited.site.around
              (Action.callValue environment call.callee call.arguments.toArray.size before)) := by
        rw [← heap]
        exact Site.undertakes_class unawaited size stack isClass
      rcases succeeds.eq_value undertakes Initialized.of_same with ⟨rfl, ending⟩
      exact ⟨rfl, ending⟩
    · intro id isFunction isInitializer
      have undertakes (before : State) (size : before.frames.size = call.unawaited.site.depth)
          (heap : before.heap = call.state.heap)
          (stack : before.stack = call.state.stack.push call.callee ++ call.arguments.toArray) :
          call.unawaited.site.Undertakes environment call.unawaited
            (call.callee.receiverFor call.callee) (fun _ _ => True)
            (settle .script call.unawaited.site.around
              (Action.callValue environment call.callee call.arguments.toArray.size before)) :=
        Site.undertakes_initializer unawaited size stack isFunction
          (heap ▸ initializing.yields isInitializer)
      exact (succeeds.eq_value undertakes fun _ _ _ => trivial).1
  · intro begun now callee occupant arguments calls goesOn
    have reaches : call.Reaches environment (call.machineAt environment begun) :=
      OuterCall.reaches_iff_machineAt.mpr
        ⟨begun, rfl, fun earlier less => goesOn.lasted earlier (Nat.lt_trans less goesOn.order)⟩
    rcases calls.step_eq environment with ⟨before, lower, size, heap, stack, isNext⟩
    have inFrame :
        entryDepthOf (call.machineAt environment begun).subRuns <
          (call.machineAt environment begun).state.frames.size := by
      rw [← entryDepth_eq]
      exact reaches.inFrame calls.isScript
    let site : Site :=
      { around := (call.machineAt environment begun).subRuns
        depth := (call.machineAt environment begun).state.frames.size
        within := Nat.le_of_lt inFrame }
    have inCall := (reaches.goesOn (goesOn.lasted begun goesOn.order)).inCall
    refine ⟨fun classId isClass => ?_, fun id isFunction isInitializer => ?_⟩
    · have undertakes : site.Undertakes environment call _ _ _ :=
        Site.undertakes_class orderly size stack isClass
      rw [← isNext, heap] at undertakes
      exact undertakes.top goesOn inCall inFrame rfl
    · have known := reaches.keeps (State.initializing_invariant _) initializing
      have undertakes : site.Undertakes environment call _ _ _ :=
        Site.undertakes_initializer orderly size stack isFunction
          (heap ▸ known.yields isInitializer)
      rw [← isNext] at undertakes
      exact (undertakes.top goesOn inCall inFrame rfl).1

/-- A text that declares a class, makes an instance and calls its initialiser once more. -/
def constructingMachine : Machine :=
  { Machine.equipped with
    state :=
      ((HostRequest.compile .run "main" "class A { init() { return; } } A().init();").perform
        Machine.equipped.state).2 }

/-- The body of the text. -/
def constructingBody : Function :=
  constructingMachine.state.heap.function 1

/-- The body is called. -/
def constructingCall : OuterCall :=
  .outermost constructingMachine.state (.function 1) []

/-- When the body is about to call the class, the class is called from outside. -/
def classCall : OuterCall :=
  .outermost (constructingCall.machineAt quietEnvironment 7).state (.classObject 2) []

/-- The instance that is made in either case. -/
def constructedInstance : Value :=
  .object (classCall.state.heap.addObject 2).1

set_option maxRecDepth 4000 in
/--
The class that is called from outside returns after two steps.  The body calls the class after
seven steps and the initialiser after three more.
-/
theorem constructingCall_steps :
    ((classCall.entered quietEnvironment).run quietEnvironment 2).outcome =
        OuterCall.reported (.ok constructedInstance) ∧
      ((List.range 13).all fun now =>
        decide (constructingCall.Lasts (constructingCall.machineAt quietEnvironment now))) = true ∧
      ([7, 8, 9, 10, 11, 12, 13].map fun now =>
        (constructingCall.machineAt quietEnvironment now).state.frames.size) =
        [1, 2, 2, 1, 2, 2, 1] ∧
      (constructingCall.machineAt quietEnvironment 7).control = .script ∧
      (constructingCall.machineAt quietEnvironment 7).state.frames.back? =
        some { function := constructingBody, offset := 18, base := 0, initializer := false } ∧
      (constructingCall.machineAt quietEnvironment 7).state.stack =
        #[.function 1].push (.classObject 2) ++ #[] ∧
      (constructingCall.machineAt quietEnvironment 10).control = .script ∧
      (constructingCall.machineAt quietEnvironment 10).state.frames.back? =
        some { function := constructingBody, offset := 20, base := 0, initializer := false } ∧
      (constructingCall.machineAt quietEnvironment 10).state.stack =
        #[.function 1].push constructedInstance ++ #[] ∧
      (constructingCall.machineAt quietEnvironment 10).state.lookup constructedInstance "init" =
        .method (.function 0) ∧
      (constructingCall.machineAt quietEnvironment 10).state.heap.functions[1]? =
        some constructingBody ∧
      (constructingCall.machineAt quietEnvironment 13).control = .script ∧
      constructingBody.chunk.constants = #[.string "A", .string "init", .function 0] ∧
      constructingBody.chunk.code =
        #[28, 0, 0, 10, 0, 2, 8, 0, 2, 0, 2, 29, 0, 1, 5, 8, 0, 2, 25, 0,
          26, 0, 1, 0, 5, 2, 27] := by
  cbv

theorem constructingMachine_leads :
    Machine.equipped.Leads quietEnvironment .compiled constructingMachine :=
  .single (.request rfl trivial)

theorem classCall_leads :
    Machine.equipped.Leads quietEnvironment .compiled
      (constructingCall.machineAt quietEnvironment 7) := by
  have called :
      constructingMachine.Event quietEnvironment .compiled
        (constructingCall.entered quietEnvironment) :=
    .call rfl trivial (List.forall_mem_nil _)
  exact (constructingMachine_leads.tail called).trans
    (leads_machineAt (fun _ => trivial) constructingCall 7)

/-- The body attaches the initialiser to the class. -/
theorem constructingBody_attaches : constructingBody.Attaches "init" 0 := by
  rcases constructingCall_steps with ⟨-, -, -, -, -, -, -, -, -, -, -, -, constants, code⟩
  have decoded :
      decode constructingBody.chunk.code 0 = .complete (.makeClass 0) ∧
        decode constructingBody.chunk.code 3 = .complete (.defineModule 2) ∧
        decode constructingBody.chunk.code 6 = .complete (.getModule 2) ∧
        decode constructingBody.chunk.code 9 = .complete (.constant 2) ∧
        decode constructingBody.chunk.code 11 = .complete (.method 1) := by
    rw [code]
    exact ⟨rfl, rfl, rfl, rfl, rfl⟩
  rcases decoded with ⟨makes, defines, reads, pushes, attaches⟩
  have boundary : Boundary constructingBody.chunk.code 9 :=
    .next (.next (.next .first makes) defines) reads
  refine ⟨9, 11, _, 1, boundary, pushes, ?_, .constant ?_, attaches, ?_⟩
  · exact List.mem_singleton.mpr rfl
  · rw [constants]
    rfl
  · rw [constants]
    rfl

/--
The class is called from outside and by the body; in both cases the instance is the result.
It is the result as well when the body calls the initialiser on the instance.
-/
theorem constructingCall_yields :
    (∃ final ending,
        classCall.Succeeds quietEnvironment constructedInstance final ∧
          classCall.Reaches quietEnvironment ending ∧
          Initialized quietEnvironment classCall.state.heap 2 constructedInstance #[]
            (classCall.entered quietEnvironment) ending) ∧
      (constructingCall.machineAt quietEnvironment 10).state.stack.back? =
        some constructedInstance ∧
      (constructingCall.machineAt quietEnvironment 13).state.stack.back? =
        some constructedInstance := by
  rcases constructingCall_steps with
    ⟨outcome, lasted, sizes, first, atClass, beforeClass, second, atMethod, beforeMethod, found,
      inHeap, third, constants, code⟩
  rw [List.all_eq_true] at lasted
  simp only [List.map_cons, List.map_nil, List.cons.injEq, and_true] at sizes
  rcases sizes with ⟨size7, size8, size9, size10, size11, size12, size13⟩
  have lasts (now : Nat) (bound : now < 13) :
      constructingCall.Lasts (constructingCall.machineAt quietEnvironment now) :=
    of_decide_eq_true (lasted now (List.mem_range.mpr bound))
  have begins : classCall.Reaches quietEnvironment (classCall.entered quietEnvironment) := .entered
  have succeeds : classCall.Succeeds quietEnvironment constructedInstance _ :=
    (begins.run 2).returns_of_reported outcome
  have outside := (constructor_yields_instance .equipped classCall_leads classCall rfl).1
  have inside :=
    (constructor_yields_instance .equipped constructingMachine_leads constructingCall rfl).2
  refine ⟨?_, ?_, ?_⟩
  · rcases (outside _ _ succeeds).1 2 rfl with ⟨-, ending, reaches, initialized⟩
    exact ⟨_, ending, succeeds, reaches, initialized⟩
  · have executes :
        (constructingCall.machineAt quietEnvironment 7).Executes _ (.call 0) :=
      ⟨first, atClass, by rw [code]; rfl⟩
    have goesOn : constructingCall.GoesOnAt quietEnvironment 7 10 := by
      refine ⟨by decide, fun now bound => lasts now (by omega), second, size10.trans size7.symm, ?_⟩
      intro later after before
      rw [size7]
      interval_cases later
      · rw [size8]
        exact ⟨by decide, fun _ => by decide⟩
      · rw [size9]
        exact ⟨by decide, fun _ => by decide⟩
    exact ((inside 7 10 _ _ _ (.call executes beforeClass rfl) goesOn).1 2 rfl).1
  · have executes :
        (constructingCall.machineAt quietEnvironment 10).Executes _ (.invoke 1 0) :=
      ⟨second, atMethod, by rw [code]; rfl⟩
    have named :
        Frame.HasName
          { function := constructingBody, offset := 20, base := 0, initializer := false }
          1 "init" := by
      show constructingBody.chunk.constants[1]? = _
      rw [constants]
      rfl
    have goesOn : constructingCall.GoesOnAt quietEnvironment 10 13 := by
      refine ⟨by decide, fun now bound => lasts now bound, third, size13.trans size10.symm, ?_⟩
      intro later after before
      rw [size10]
      interval_cases later
      · rw [size11]
        exact ⟨by decide, fun _ => by decide⟩
      · rw [size12]
        exact ⟨by decide, fun _ => by decide⟩
    have attached : (constructingCall.machineAt quietEnvironment 10).state.heap.HasInitializer 0 :=
      ⟨constructingBody, Array.mem_of_getElem? inHeap, constructingBody_attaches⟩
    exact (inside 10 13 _ _ _
      (.method executes named beforeMethod rfl found) goesOn).2 0 rfl attached

end ScriptEngine
