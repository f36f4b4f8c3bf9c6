import ScriptEngine.Proofs.Machine.Call

/-!
# What actions leave alone

Most actions work on the stack, the instances and the journal.  A part of the state that has
nothing to do with these, such as the modules, the frames or the classes, stays the same
(`Action.Spares`).
-/

namespace ScriptEngine

/-- The instructions that can change a module. -/
def Instruction.changesModules : Instruction → Bool
  | .setModule _ | .defineModule _ | .importModule _ => true
  | _ => false

/-- The instructions that make classes or change them. -/
def Instruction.changesClasses : Instruction → Bool
  | .makeClass _ | .method _ | .staticMethod _ => true
  | _ => false

/-- A change of the heap that touches neither classes nor native callables. -/
class Heap.SparesKinds (step : Heap → α × Heap) : Prop where
  classes : ∀ heap, (step heap).2.classes = heap.classes
  natives : ∀ heap, (step heap).2.natives = heap.natives

namespace Heap.SparesKinds

instance addObject (classId : Nat) : SparesKinds fun heap => heap.addObject classId :=
  ⟨fun _ => rfl, fun _ => rfl⟩

instance bind (receiver method : Value) : SparesKinds fun heap => heap.bind receiver method :=
  ⟨fun _ => rfl, fun _ => rfl⟩

instance updateData (id : Nat) (refused : α) (change : NativeData → α × NativeData) :
    SparesKinds fun heap => heap.updateData id refused change := by
  constructor <;> intro heap <;> unfold Heap.updateData <;> split <;> rfl

instance runSequence (method : SequenceMethod) (receiver : Value) (arguments : List Value) :
    SparesKinds (Container.runSequence method receiver arguments) := by
  cases receiver with
  | object id => exact updateData id _ _
  | _ => exact ⟨fun _ => rfl, fun _ => rfl⟩

instance runDictionary (method : DictionaryMethod) (receiver : Value) (arguments : List Value) :
    SparesKinds (Container.runDictionary method receiver arguments) := by
  cases receiver with
  | object id => exact updateData id _ _
  | _ => exact ⟨fun _ => rfl, fun _ => rfl⟩

end Heap.SparesKinds

namespace State

/-- Classes and native callables. -/
def kinds (state : State) : Array Class × Array Native :=
  (state.heap.classes, state.heap.natives)

/-- A part of the state that has nothing to do with stack, instances and journal. -/
class Aside (view : State → γ) : Prop where
  same :
    ∀ (state : State) stack heap journal,
      heap.classes = state.heap.classes →
      heap.natives = state.heap.natives →
        view { state with stack, heap, journal } = view state

/-- A part of the state that has nothing to do with stack, heap and journal. -/
class Outside (view : State → γ) : Prop where
  same :
    ∀ (state : State) stack heap journal, view { state with stack, heap, journal } = view state

instance (view : State → γ) [outside : Outside view] : Aside view :=
  ⟨fun state stack heap journal _ _ => outside.same state stack heap journal⟩

/-- A part of the state that has nothing to do with frames. -/
class Frameless (view : State → γ) : Prop where
  same : ∀ (state : State) frames, view { state with frames } = view state

/-- A part of the state that has nothing to do with modules and functions. -/
class Codeless (view : State → γ) : Prop where
  same :
    ∀ (state : State) registry functions,
      view { state with registry, heap := { state.heap with functions } } = view state

instance : Outside State.registry :=
  ⟨fun _ _ _ _ => rfl⟩

instance : Outside State.frames :=
  ⟨fun _ _ _ _ => rfl⟩

instance : Aside State.kinds :=
  ⟨fun _ _ _ _ classes natives => congrArg₂ Prod.mk classes natives⟩

instance : Frameless State.registry :=
  ⟨fun _ _ => rfl⟩

instance : Frameless State.kinds :=
  ⟨fun _ _ => rfl⟩

instance : Codeless State.frames :=
  ⟨fun _ _ _ => rfl⟩

instance : Codeless State.kinds :=
  ⟨fun _ _ _ => rfl⟩

end State

namespace Action

/-- What is ensured of both outcomes of an action is ensured of the state after it. -/
theorem ensures_after_iff {action : Action α} {state : State} (holds : State → Prop) :
    action.Ensures state (fun _ after => holds after) (fun _ after => holds after) ↔
      holds (action state).2 := by
  unfold Ensures
  rcases action state with ⟨interruption | result, after⟩ <;> rfl

/-- An action that does not touch a part of the state, also if it is interrupted. -/
class Spares (view : State → γ) (action : Action α) : Prop where
  same : ∀ state, view (action state).2 = view state

namespace Spares

variable {view : State → γ}

instance bind
    {first : Action β}
    {next : β → Action α}
    [start : Spares view first]
    [rest : ∀ value, Spares view (next value)] :
    Spares view (first >>= next) := by
  constructor
  intro state
  have earlier := start.same state
  rcases outcome : first state with ⟨interruption | value, between⟩
  · rw [bind_of_error outcome]
    rw [outcome] at earlier
    exact earlier
  · rw [bind_of_ok outcome]
    rw [outcome] at earlier
    exact ((rest value).same between).trans earlier

/-- A sequence whose second part is examined further. -/
theorem andThen
    {first : Action β}
    {next : β → Action α}
    [Spares view first]
    (rest : ∀ value, Spares view (next value)) :
    Spares view (first >>= next) :=
  bind

instance pure (value : α) : Spares view (pure value : Action α) :=
  ⟨fun _ => rfl⟩

instance choice
    {condition : Prop}
    [Decidable condition]
    {first second : Action α}
    [Spares view first]
    [Spares view second] :
    Spares view (if condition then first else second) := by
  split <;> infer_instance

instance look (seen : State → α) : Spares view (look seen) :=
  ⟨fun _ => rfl⟩

instance raise (fault : Fault) : Spares view (raise fault : Action α) :=
  ⟨fun _ => rfl⟩

instance getStuck : Spares view (getStuck : Action α) :=
  ⟨fun _ => rfl⟩

variable [aside : State.Aside view]

instance push (limits : Limits) (value : Value) : Spares view (push limits value) := by
  constructor
  intro state
  unfold Action.push
  split
  · exact aside.same state _ _ _ rfl rfl
  · rfl

instance pop : Spares view pop := by
  constructor
  intro state
  unfold Action.pop
  split
  · exact aside.same state _ _ _ rfl rfl
  · rfl

instance peek (distance : Nat) : Spares view (peek distance) := by
  constructor
  intro state
  unfold Action.peek
  split <;> rfl

instance setSlot (slot : Nat) (value : Value) : Spares view (setSlot slot value) :=
  ⟨fun state => aside.same state _ _ _ rfl rfl⟩

instance cutStack (size : Nat) : Spares view (cutStack size) :=
  ⟨fun state => aside.same state _ _ _ rfl rfl⟩

instance setTop (value : Value) : Spares view (setTop value) :=
  ⟨fun state => aside.same state _ _ _ rfl rfl⟩

instance calleeSlot (argumentCount : Nat) : Spares view (calleeSlot argumentCount) :=
  look _

instance frame : Spares view frame :=
  look _

instance home : Spares view home :=
  look _

instance setField (id : Nat) (name : String) (value : Value) :
    Spares view (changeHeap fun heap => heap.setField id name value) :=
  ⟨fun state => aside.same state _ _ _ rfl rfl⟩

instance updateHeap (step : Heap → α × Heap) [spares : Heap.SparesKinds step] :
    Spares view (updateHeap step) :=
  ⟨fun state => aside.same state _ _ _ (spares.classes state.heap) (spares.natives state.heap)⟩

instance write (text : String) : Spares view (write text) :=
  ⟨fun state => aside.same state _ _ _ rfl rfl⟩

instance constant (index : Nat) : Spares view (constant index) := by
  unfold Action.constant
  refine andThen fun frame => ?_
  split <;> infer_instance

instance name (index : UInt16) : Spares view (name index) := by
  unfold Action.name
  refine andThen fun value => ?_
  split <;> infer_instance

instance andProceed (action : Action Unit) [Spares view action] :
    Spares view (andProceed action) := by
  unfold Action.andProceed
  infer_instance

variable (environment : Environment)

/-! ### Calls -/

instance completeHostCall (call : HostCall) (value : Value) :
    Spares view (completeHostCall environment call value) := by
  unfold Action.completeHostCall
  have finishes :
      ∀ constructed? : Option Value,
        Spares view (match constructed? with
          | some instanceValue => Action.setTop instanceValue
          | none => Pure.pure ()) := by
    intro constructed?
    split <;> infer_instance
  infer_instance

instance completeAtOnce (call : HostCall) (result : Except String Value) :
    Spares view (completeAtOnce environment call result) := by
  unfold Action.completeAtOnce
  split <;> infer_instance

instance callNative (native : Native) (argumentCount : Nat) (constructed : Option Value) :
    Spares view (callNative environment native argumentCount constructed) := by
  unfold Action.callNative
  split <;> split <;> infer_instance

/-! ### Properties and subscripts -/

instance moduleVariable (moduleId : Nat) (name : String) :
    Spares view (moduleVariable moduleId name) := by
  unfold Action.moduleVariable
  refine andThen fun value? => ?_
  split <;> infer_instance

instance property (receiver : Value) (name : String) : Spares view (property receiver name) := by
  unfold Action.property
  split
  · refine andThen fun value? => ?_
    split
    · infer_instance
    · refine andThen fun method? => ?_
      split <;> infer_instance
  · refine andThen fun method? => ?_
    split <;> infer_instance
  · infer_instance
  · infer_instance

instance indexable (receiver : Value) : Spares view (indexable receiver) := by
  unfold Action.indexable
  split
  · refine andThen fun data? => ?_
    split <;> infer_instance
  · infer_instance

instance getIndex (receiver index : Value) : Spares view (getIndex receiver index) := by
  unfold Action.getIndex
  refine andThen fun found => ?_
  split
  split <;> infer_instance

instance setIndex (receiver index value : Value) :
    Spares view (setIndex receiver index value) := by
  unfold Action.setIndex
  refine andThen fun found => ?_
  refine andThen fun result => ?_
  split <;> infer_instance

instance setProperty (name : String) : Spares view (setProperty environment name) := by
  unfold Action.setProperty
  refine andThen fun value => ?_
  refine andThen fun receiver => ?_
  split <;> infer_instance

/-! ### Operators and variables -/

instance binaryNumeric (operation : Float → Float → Value) :
    Spares view (binaryNumeric environment operation) := by
  unfold Action.binaryNumeric
  refine andThen fun right => ?_
  refine andThen fun left => ?_
  split <;> infer_instance

instance add : Spares view (add environment) := by
  unfold Action.add
  refine andThen fun right => ?_
  refine andThen fun left => ?_
  split <;> infer_instance

instance getLocal (slot : Nat) : Spares view (getLocal environment slot) := by
  unfold Action.getLocal
  refine andThen fun frame => ?_
  refine andThen fun value? => ?_
  split <;> infer_instance

instance setLocal (slot : Nat) : Spares view (setLocal slot) := by
  unfold Action.setLocal
  infer_instance

instance moduleSlot (slot : Nat) : Spares view (moduleSlot slot) := by
  unfold Action.moduleSlot
  refine andThen fun home => ?_
  refine andThen fun value? => ?_
  split
  · infer_instance
  · unfold raiseUndefined
    infer_instance

/-! ### Imports -/

instance requestSource (name : String) : Spares view (requestSource environment name) := by
  unfold Action.requestSource
  split
  · infer_instance
  · have notes :
        Spares view
          (change fun state =>
            { state with
              journal := { state.journal with loads := state.journal.loads.push name } }) :=
      ⟨fun state => aside.same state _ _ _ rfl rfl⟩
    infer_instance

/-! ### Modules -/

section Codeless

omit aside

variable [codeless : State.Codeless view]

instance changeRegistry (step : Registry → Registry) : Spares view (changeRegistry step) :=
  ⟨fun state => codeless.same state _ state.heap.functions⟩

instance setModuleSlot (slot : Nat) (value : Value) : Spares view (setModuleSlot slot value) := by
  unfold Action.setModuleSlot Action.home
  infer_instance

instance markLoaded (id : Nat) : Spares view (markLoaded id) :=
  changeRegistry _

instance compileModule (mode : CompileMode) (id : Nat) (source : String) :
    Spares view (compileModule mode id source) := by
  constructor
  intro state
  show view (state.addSource mode id source).2 = view state
  unfold State.addSource
  extract_lets compiled registry
  split
  · exact codeless.same state _ state.heap.functions
  · exact codeless.same state _ _

variable (view) in
/-- A module is looked up by its name and made if it is not there. -/
theorem ensureModule (name : String) :
    Spares view (update fun state =>
      ((state.registry.ensure name).1,
        { state with registry := (state.registry.ensure name).2 })) :=
  ⟨fun state => codeless.same state _ state.heap.functions⟩

end Codeless

/-! ### Frames -/

section Frameless

variable [frameless : State.Frameless view]

instance moveTo (offset : Nat) : Spares view (moveTo offset) :=
  ⟨fun state => frameless.same state _⟩

instance pushFrame
    (limits : Limits)
    (function : Function)
    (argumentCount : Nat)
    (initializer : Bool) :
    Spares view (pushFrame limits function argumentCount initializer) := by
  unfold Action.pushFrame
  have pushes :
      ∀ frame : Nat → Frame,
        Spares view (do
          let base ← Action.calleeSlot argumentCount
          change fun state => { state with frames := state.frames.push (frame base) }) :=
    fun _ => ⟨fun state => frameless.same state _⟩
  infer_instance

instance construct (classId argumentCount : Nat) :
    Spares view (construct environment classId argumentCount) := by
  unfold Action.construct
  refine andThen fun slot => ?_
  refine andThen fun created => ?_
  refine andThen fun _ => ?_
  refine andThen fun initializer? => ?_
  split <;> infer_instance

instance callValue (callee : Value) (argumentCount : Nat) :
    Spares view (callValue environment callee argumentCount) := by
  fun_induction Action.callValue environment callee argumentCount <;> infer_instance

instance invoke (name : String) (argumentCount : Nat) :
    Spares view (invoke environment name argumentCount) := by
  unfold Action.invoke
  refine andThen fun receiver => ?_
  refine andThen fun slot => ?_
  split
  · refine andThen fun value? => ?_
    split
    · infer_instance
    · refine andThen fun method? => ?_
      split <;> infer_instance
  · refine andThen fun method? => ?_
    split <;> infer_instance
  · infer_instance
  · infer_instance

instance skip (distance : Nat) : Spares view (skip distance) := by
  unfold Action.skip
  infer_instance

instance skipBack (distance : Nat) : Spares view (skipBack distance) := by
  unfold Action.skipBack
  infer_instance

instance leave (entryDepth : Nat) : Spares view (leave environment entryDepth) := by
  unfold Action.leave
  have removes : Spares view (change fun state => { state with frames := state.frames.pop }) :=
    ⟨fun state => frameless.same state _⟩
  refine andThen fun result => ?_
  refine andThen fun finished => ?_
  refine andThen fun _ => ?_
  infer_instance

/-- An instruction that changes neither modules nor classes. -/
theorem execute
    (entryDepth : Nat)
    {instruction : Instruction}
    (modules : instruction.changesModules = false)
    (classes : instruction.changesClasses = false) :
    Spares view (execute environment entryDepth instruction) := by
  cases instruction with
  | setModule | defineModule | importModule => cases modules
  | makeClass | method | staticMethod => cases classes
  | negate =>
      dsimp only [Action.execute]
      refine @Spares.andProceed _ _ _ ?_
      refine andThen fun value => ?_
      split <;> infer_instance
  | _ =>
      dsimp only [Action.execute]
      infer_instance

section Codeless

variable [codeless : State.Codeless view]

instance importModule (name : String) : Spares view (importModule environment name) := by
  unfold Action.importModule
  refine andThen fun existing? => ?_
  refine andThen fun loaded? => ?_
  split
  · infer_instance
  · refine andThen fun source? => ?_
    split
    · split <;> infer_instance
    · have ensures := ensureModule view name
      refine andThen fun id => ?_
      refine andThen fun compiled => ?_
      split <;> infer_instance

/-- An instruction that does not change classes. -/
theorem execute_of_codeless
    (entryDepth : Nat)
    {instruction : Instruction}
    (classes : instruction.changesClasses = false) :
    Spares view (Action.execute environment entryDepth instruction) := by
  cases instruction with
  | setModule | defineModule | importModule =>
      dsimp only [Action.execute]
      infer_instance
  | _ => exact execute environment entryDepth rfl classes

end Codeless

instance fetch (offset : Nat) (instruction : Instruction) :
    Spares view (fetch offset instruction) := by
  unfold Action.fetch
  split <;> infer_instance

instance fetchTruncated (frame : Frame) (operation : Opcode) :
    Spares view (fetchTruncated frame operation : Action α) := by
  unfold Action.fetchTruncated
  split <;> infer_instance

/-- A step leaves a part of the state alone if its instruction does. -/
theorem step_same
    {state : State}
    {entryDepth : Nat}
    (spares :
      ∀ instruction,
        Instruction.decode (state.frames.back?.getD default).function.chunk.code
            (state.frames.back?.getD default).offset = .complete instruction →
          Spares view (Action.execute environment entryDepth instruction)) :
    view (Action.step environment entryDepth state).2 = view state := by
  refine (ensures_after_iff fun after => view after = view state).mp ?_
  unfold Action.step
  extract_lets goOn
  have goesOn :
      ∀ current : State,
        current.frames = state.frames →
          (goOn ()).Ensures current (fun _ after => view after = view current)
            fun _ after => view after = view current := by
    intro current sameFrames
    apply Ensures.bind
    apply Ensures.look
    rw [sameFrames]
    generalize isFrame : state.frames.back?.getD default = frame at spares
    refine (ensures_after_iff fun after => view after = view current).mpr ?_
    rcases decoded : Instruction.decode frame.function.chunk.code frame.offset with
      instruction | byte | operation | _
    · have executes := spares instruction decoded
      exact Spares.bind.same current
    · exact Spares.bind.same current
    · exact (Spares.fetchTruncated frame operation).same current
    · rfl
  split
  · refine Ensures.bind ?_
    have recorded : view (Action.recordStep state).2 = view state :=
      aside.same state _ _ _ rfl rfl
    have continued := goesOn (Action.recordStep state).2 rfl
    rw [recorded] at continued
    exact continued
  · exact goesOn state rfl

end Frameless

/-! ### Classes -/

section Outside

omit aside

variable [outside : State.Outside view]

instance addClass (newClass : Class) :
    Spares view (Action.updateHeap fun heap => heap.addClass newClass) :=
  ⟨fun state => outside.same state _ _ _⟩

instance attach (store : Heap → Nat → String → Value → Heap) (name : String) :
    Spares view (attach store name) := by
  unfold Action.attach
  have stores :
      ∀ id method, Spares view (changeHeap fun heap => store heap id name method) :=
    fun _ _ => ⟨fun state => outside.same state _ _ _⟩
  refine andThen fun method => ?_
  refine andThen fun receiver => ?_
  split <;> infer_instance

end Outside

end Spares

end Action

end ScriptEngine
