import ScriptEngine.Machine.HostProgram
import ScriptEngine.Proofs.Compiler.Accumulation
import ScriptEngine.Proofs.Compiler.Verification
import ScriptEngine.Proofs.Machine.Reference

/-!
# Sound states and well-behaved host routines

A state is sound if everything that it stores refers to functions of its heap and
all these functions are well typed.  What a state refers to can only grow.

A host routine behaves well if it uses no references to functions but those that
it was given, and if it has given all containers back whenever it calls a value
and when it ends.
-/

namespace ScriptEngine

open Annotated

/-! ## Functions -/

namespace Function

/-- A function that can be run with `known` functions and a number of modules. -/
structure Runs (known modules : Nat) (function : Function) : Prop where
  wellTyped : ∃ slots, function.WellTyped slots (· < known)
  home : function.home < modules

theorem Runs.mono
    {known more modules others : Nat}
    {function : Function}
    (runs : function.Runs known modules)
    (knownBound : known ≤ more)
    (modulesBound : modules ≤ others) :
    function.Runs more others := by
  rcases runs with ⟨⟨slots, typed⟩, home⟩
  constructor
  · exact ⟨slots, typed.mono (Nat.le_refl _) fun id isKnown =>
      Nat.lt_of_lt_of_le isKnown knownBound⟩
  · exact Nat.lt_of_lt_of_le home modulesBound

theorem Runs.constant
    {known modules index : Nat}
    {function : Function}
    (runs : function.Runs known modules)
    {value : Value}
    (found : function.chunk.constants[index]? = some value) :
    value.Refers known := by
  rcases runs.wellTyped with ⟨slots, typed⟩
  rcases typed.constants value (Array.mem_of_getElem? found) with literal | ⟨id, rfl, isKnown⟩
  · cases value with
    | function | boundMethod => cases literal
    | _ => trivial
  · exact isKnown

/-- Annotated code that is the code of a function and typed from its first byte on. -/
structure Annotation (function : Function) (slots : Nat) (code : List Annotated) : Prop where
  encoded : function.chunk.code.toList = Instruction.encode (erase code)
  begins : entry code none = some (.plain (function.arity + 1))
  typed : Typed { constants := function.chunk.constants, slots } code none

/--
The stack of a function has a shape when execution gets to an offset of the code.  However the
code is annotated, the annotations say so; there is one shape at most.
-/
structure ShapeAt (function : Function) (offset : Nat) (shape : Shape) : Prop where
  annotated : ∃ slots code, function.Annotation slots code
  shaped :
    ∀ slots code, function.Annotation slots code → Annotated.shapeAt code offset = some shape

theorem ShapeAt.unique
    {function : Function}
    {offset : Nat}
    {first second : Shape}
    (shaped : function.ShapeAt offset first)
    (again : function.ShapeAt offset second) :
    first = second := by
  rcases shaped.annotated with ⟨slots, code, annotation⟩
  exact Option.some.inj
    ((shaped.shaped slots code annotation).symm.trans (again.shaped slots code annotation))

theorem WellTyped.shapeAt_zero
    {slots : Nat}
    {known : Nat → Prop}
    {function : Function}
    (wellTyped : function.WellTyped slots known) :
    function.ShapeAt 0 (.plain (function.arity + 1)) := by
  rcases wellTyped.typed with ⟨code, encoded, begins, typed⟩
  refine ⟨⟨slots, code, encoded, begins, typed⟩, ?_⟩
  rintro - (_ | ⟨⟨shape, instruction⟩, rest⟩) ⟨-, begins, -⟩
  · cases begins
  · cases begins
    exact if_pos rfl

theorem Runs.shapeAt_zero
    {known modules : Nat}
    {function : Function}
    (runs : function.Runs known modules) :
    function.ShapeAt 0 (.plain (function.arity + 1)) := by
  rcases runs.wellTyped with ⟨slots, wellTyped⟩
  exact wellTyped.shapeAt_zero

/-- What the instruction at an offset finds and what it leads to. -/
structure Steps (function : Function) (offset : Nat) (shape : Shape)
    (instruction : Instruction) : Prop where
  decoded : Instruction.decode function.chunk.code offset = .complete instruction
  inside : offset + instruction.length ≤ function.chunk.code.size
  takes : instruction.takes < shape.height
  operands :
    ∃ slots,
      CodeContext.Admits { constants := function.chunk.constants, slots } shape.height instruction
  attaches : instruction.attaches = true → shape.mark = .classBelowTop
  backward : ∀ distance, instruction = .loop distance → distance.toNat ≤ offset + 3
  passes :
    ∀ target ∈ instruction.successors offset,
      function.ShapeAt target (instruction.after shape)

theorem ShapeAt.steps
    {function : Function}
    {offset : Nat}
    {shape : Shape}
    (shaped : function.ShapeAt offset shape) :
    ∃ instruction, function.Steps offset shape instruction := by
  rcases shaped with ⟨⟨slots, code, annotation⟩, shaped⟩
  rcases exists_of_shapeAt (shaped slots code annotation) with
    ⟨before, instruction, after, split, isOffset⟩
  have checks :
      ∀ slots code,
        function.Annotation slots code →
          Checked { constants := function.chunk.constants, slots } (shapeAt code) offset shape
            instruction := by
    intro others other annotated
    rcases exists_of_shapeAt (shaped others other annotated) with ⟨first, same, last, parts, rfl⟩
    have flows := annotated.typed (shapeAt other) 0 (placed_shapeAt [] other)
    rw [parts] at flows
    have checked := flows.checked
    rw [← parts, Nat.zero_add] at checked
    have decoded := WellTyped.decode_of_split annotated.encoded parts
    rw [isOffset, WellTyped.decode_of_split annotation.encoded split] at decoded
    cases decoded
    exact checked
  have checked := checks slots code annotation
  have more : CodeContext.Extends { constants := function.chunk.constants, slots }
      { constants := function.chunk.constants, slots := slots + 1 } :=
    ⟨List.prefix_refl _, Nat.le_succ slots⟩
  have operands := (more.accepts checked.operands).admits (Nat.succ_pos slots)
  refine ⟨instruction, isOffset ▸ WellTyped.decode_of_split annotation.encoded split, ?_,
    checked.takes, ⟨slots + 1, operands⟩, checked.attaches, checked.backward, ?_⟩
  · rw [WellTyped.size_bytes annotation.encoded, split, isOffset]
    simp only [size_append, size_cons]
    omega
  · intro target member
    exact ⟨⟨slots, code, annotation⟩, fun others other annotated =>
      (checks others other annotated).passes target member⟩

end Function

/-! ## States -/

/-- Everything in the state refers to functions that can be run. -/
structure State.Sound (held : List Nat) (state : State) : Prop where
  stack : ∀ value ∈ state.stack, value.Refers state.heap.functions.size
  heap : state.heap.Sound state.heap.functions.size held
  functions :
    ∀ function ∈ state.heap.functions,
      function.Runs state.heap.functions.size state.registry.modules.size
  registry : state.registry.Sound state.heap.functions.size

/-- A state with at least the functions and modules of another. -/
structure State.Extends (before after : State) : Prop where
  functions : before.heap.functions.size ≤ after.heap.functions.size
  modules : before.registry.modules.size ≤ after.registry.modules.size

namespace State

theorem Extends.refl (state : State) : state.Extends state :=
  ⟨Nat.le_refl _, Nat.le_refl _⟩

theorem Extends.trans
    {before between after : State}
    (first : before.Extends between)
    (second : between.Extends after) :
    before.Extends after :=
  ⟨Nat.le_trans first.functions second.functions, Nat.le_trans first.modules second.modules⟩

namespace Sound

variable {held : List Nat} {state : State}

theorem withStack
    (sound : state.Sound held)
    {stack : Array Value}
    (refers : ∀ value ∈ stack, value.Refers state.heap.functions.size) :
    Sound held { state with stack } :=
  ⟨refers, sound.heap, sound.functions, sound.registry⟩

theorem withHeap
    (sound : state.Sound held)
    {later : List Nat}
    {heap : Heap}
    (same : heap.functions = state.heap.functions)
    (heapSound : heap.Sound state.heap.functions.size later) :
    Sound later { state with heap } := by
  constructor
  · rw [same]
    exact sound.stack
  · rw [same]
    exact heapSound
  · rw [same]
    exact sound.functions
  · rw [same]
    exact sound.registry

theorem withRegistry
    (sound : state.Sound held)
    {registry : Registry}
    (registrySound : registry.Sound state.heap.functions.size)
    (grows : state.registry.modules.size ≤ registry.modules.size) :
    Sound held { state with registry } where
  stack := sound.stack
  heap := sound.heap
  functions := fun function member => (sound.functions function member).mono (Nat.le_refl _) grows
  registry := registrySound

theorem function
    (sound : state.Sound held)
    {id : Nat}
    (isKnown : id < state.heap.functions.size) :
    (state.heap.function id).Runs state.heap.functions.size state.registry.modules.size := by
  unfold Heap.function
  rw [Array.getD_eq_getD_getElem?, Array.getElem?_eq_getElem isKnown, Option.getD_some]
  exact sound.functions _ (Array.getElem_mem isKnown)

/-- A text that is added leaves the state sound, whether it is accepted or refused. -/
theorem addSource
    (sound : state.Sound held)
    (mode : CompileMode)
    {moduleId : Nat}
    (inside : moduleId < state.registry.modules.size)
    (source : String) :
    (state.addSource mode moduleId source).2.Sound held := by
  have table := sound.registry.moduleAt inside
  have grows := grows_compile mode source (state.registry.moduleAt moduleId) moduleId
    state.heap.functions.size
  have tableSound :
      (compile mode source (state.registry.moduleAt moduleId) moduleId
        state.heap.functions.size).table.Sound state.heap.functions.size := by
    refine ⟨grows.indexed table.indexed, ?_⟩
    intro value member
    rcases grows.mem_values member with old | rfl
    · exact table.values value old
    · trivial
  unfold State.addSource
  simp only
  split
  · exact sound.withRegistry (sound.registry.replace tableSound moduleId)
      (Nat.le_of_eq (Registry.size_replace _ _ _).symm)
  · rename_i functions success
    have typed := compile_wellTyped table.indexed success
    have homes := home_of_compile success
    have bound : state.heap.functions.size ≤ (state.heap.functions ++ functions).size := by
      simp
    constructor
    · exact fun value member => (sound.stack value member).mono bound
    · have heap := sound.heap.mono bound
      exact ⟨heap.classes, heap.objects, heap.locks⟩
    · intro function member
      simp only [Registry.size_replace]
      rcases Array.mem_append.mp member with old | new
      · exact (sound.functions function old).mono bound (Nat.le_refl _)
      · constructor
        · refine ⟨_, (typed.functions function new).mono (Nat.le_refl _) ?_⟩
          rintro id ⟨-, last⟩
          rw [Array.size_append]
          exact last
        · rw [homes function new]
          exact inside
    · exact (sound.registry.replace tableSound moduleId).mono bound

/-- The module for a text exists before the text is compiled. -/
theorem prepared (sound : state.Sound held) (moduleName : String) :
    Sound held
        { state with
          registry := (state.registry.ensure moduleName).2.modify
            (state.registry.ensure moduleName).1 Module.markLoaded } ∧
      (state.registry.ensure moduleName).1 <
        ((state.registry.ensure moduleName).2.modify (state.registry.ensure moduleName).1
          Module.markLoaded).modules.size := by
  rcases sound.registry.ensure moduleName with ⟨ensured, inside⟩
  constructor
  · apply sound.withRegistry (ensured.markLoaded _)
    rw [Registry.size_modify]
    exact Registry.size_le_ensure _ _
  · rw [Registry.size_modify]
    exact inside

theorem addNamedSource
    (sound : state.Sound held)
    (mode : CompileMode)
    (moduleName source : String) :
    (state.addNamedSource mode moduleName source).2.Sound held := by
  rcases sound.prepared moduleName with ⟨ready, inside⟩
  exact ready.addSource mode inside source

end Sound

theorem extends_addSource
    (state : State)
    (mode : CompileMode)
    (moduleId : Nat)
    (source : String) :
    state.Extends (state.addSource mode moduleId source).2 := by
  unfold addSource
  simp only
  split
  · exact ⟨Nat.le_refl _, Nat.le_of_eq (Registry.size_replace _ _ _).symm⟩
  · constructor
    · simp
    · exact Nat.le_of_eq (Registry.size_replace _ _ _).symm

/-- The body of a text that was added is in the heap. -/
theorem lt_of_addSource
    {state : State}
    {mode : CompileMode}
    {moduleId body : Nat}
    {source : String}
    (sound : (state.registry.moduleAt moduleId).Sound state.heap.functions.size)
    (added : (state.addSource mode moduleId source).1 = .ok body) :
    body < (state.addSource mode moduleId source).2.heap.functions.size := by
  unfold addSource at added ⊢
  simp only at added ⊢
  split at added
  · cases added
  · rename_i functions success
    have nonempty := (compile_wellTyped sound.indexed success).nonempty
    cases added
    simp only [Array.size_append]
    omega

theorem Sound.lt_of_addNamedSource
    {held : List Nat}
    {state : State}
    (sound : state.Sound held)
    {mode : CompileMode}
    {moduleName source : String}
    {body : Nat}
    (added : (state.addNamedSource mode moduleName source).1 = .ok body) :
    body < (state.addNamedSource mode moduleName source).2.heap.functions.size := by
  rcases sound.prepared moduleName with ⟨ready, inside⟩
  exact lt_of_addSource (ready.registry.moduleAt inside) added

theorem extends_addNamedSource
    (state : State)
    (mode : CompileMode)
    (moduleName source : String) :
    state.Extends (state.addNamedSource mode moduleName source).2 := by
  have prepared :
      state.Extends
        { state with
          registry := (state.registry.ensure moduleName).2.modify
            (state.registry.ensure moduleName).1 Module.markLoaded } := by
    constructor
    · exact Nat.le_refl _
    · rw [Registry.size_modify]
      exact Registry.size_le_ensure _ _
  exact prepared.trans (extends_addSource _ mode _ source)

/-- Adding a text touches neither the stack nor the frames. -/
theorem frames_addSource
    (state : State)
    (mode : CompileMode)
    (moduleId : Nat)
    (source : String) :
    (state.addSource mode moduleId source).2.stack = state.stack ∧
      (state.addSource mode moduleId source).2.frames = state.frames := by
  unfold addSource
  simp only
  split <;> exact ⟨rfl, rfl⟩

theorem frames_addNamedSource
    (state : State)
    (mode : CompileMode)
    (moduleName source : String) :
    (state.addNamedSource mode moduleName source).2.stack = state.stack ∧
      (state.addNamedSource mode moduleName source).2.frames = state.frames :=
  frames_addSource _ mode _ source

end State

/-! ## Host routines -/

namespace HostRequest

/-- A request that stores only values that refer to functions. -/
abbrev Refers (known : Nat) (request : HostRequest) : Prop :=
  request.Each (Value.Refers known)

/-- The containers that a routine has taken after a request. -/
def heldAfter (held : List Nat) : HostRequest → List Nat
  | lock objectId => objectId :: held
  | unlock objectId => held.filter (· ≠ objectId)
  | _ => held

end HostRequest

/--
A routine that goes on well when there are `known` functions and it has taken
the containers `held`.
-/
def HostProgram.Behaves : HostProgram → Nat → List Nat → Prop
  | finish value, known, held => held = [] ∧ value.Refers known
  | fail _, _, held => held = []
  | inspect next, known, held =>
    ∀ state : State,
      state.heap.functions.size = known → state.Sound held → (next state).Behaves known held
  | perform request next, known, held =>
    request.Refers known ∧
      ∀ more answer,
        known ≤ more →
        answer.Refers more →
          (next answer).Behaves more (request.heldAfter held)
  | call callee arguments next, known, held =>
    held = [] ∧
      callee.Refers known ∧
      (∀ argument ∈ arguments, argument.Refers known) ∧
      ∀ more outcome,
        known ≤ more →
        OutcomeRefers more outcome →
          (next outcome).Behaves more []

/-- A host all of whose routines behave well with whatever they are called. -/
def Host.Behaves (host : Host) : Prop :=
  ∀ key known receiver arguments,
    receiver.Refers known →
    (∀ argument ∈ arguments, argument.Refers known) →
      (host key receiver arguments).Behaves known []

/-- What a request does to a sound state. -/
structure HostRequest.Performed (request : HostRequest) (held : List Nat) (state : State) :
    Prop where
  sound : (request.perform state).2.Sound (request.heldAfter held)
  extended : state.Extends (request.perform state).2
  answer : (request.perform state).1.Refers (request.perform state).2.heap.functions.size
  stack : (request.perform state).2.stack = state.stack
  frames : (request.perform state).2.frames = state.frames

theorem HostRequest.performed
    {held : List Nat}
    {state : State}
    (sound : state.Sound held)
    {request : HostRequest}
    (refers : request.Refers state.heap.functions.size) :
    request.Performed held state := by
  cases request with
  | write text =>
      exact ⟨⟨sound.stack, sound.heap, sound.functions, sound.registry⟩,
        ⟨Nat.le_refl _, Nat.le_refl _⟩, trivial, rfl, rfl⟩
  | bind receiver method =>
      have heap := sound.heap
      exact ⟨sound.withHeap rfl ⟨heap.classes, heap.objects, heap.locks⟩,
        ⟨Nat.le_refl _, Nat.le_refl _⟩, refers, rfl, rfl⟩
  | setField objectId name value =>
      exact ⟨sound.withHeap rfl (sound.heap.setField objectId name refers),
        ⟨Nat.le_refl _, Nat.le_refl _⟩, trivial, rfl, rfl⟩
  | setMethod classId name method =>
      exact ⟨sound.withHeap rfl (sound.heap.setMethod classId name refers),
        ⟨Nat.le_refl _, Nat.le_refl _⟩, trivial, rfl, rfl⟩
  | setData objectId data =>
      exact ⟨sound.withHeap rfl (sound.heap.setData objectId refers),
        ⟨Nat.le_refl _, Nat.le_refl _⟩, trivial, rfl, rfl⟩
  | lock objectId =>
      exact ⟨sound.withHeap rfl (sound.heap.lock objectId),
        ⟨Nat.le_refl _, Nat.le_refl _⟩, trivial, rfl, rfl⟩
  | unlock objectId =>
      exact ⟨sound.withHeap rfl (sound.heap.unlock objectId),
        ⟨Nat.le_refl _, Nat.le_refl _⟩, trivial, rfl, rfl⟩
  | defineBuiltin name value =>
      have sizes :
          state.registry.modules.size ≤
            (state.registry.defineBuiltin name value).modules.size := by
        simp [Registry.defineBuiltin]
      exact ⟨sound.withRegistry (sound.registry.defineBuiltin name refers) sizes,
        ⟨Nat.le_refl _, sizes⟩, trivial, rfl, rfl⟩
  | defineVariable moduleName name value =>
      have sizes :
          state.registry.modules.size ≤
            (state.registry.defineVariable moduleName name value).2.modules.size := by
        unfold Registry.defineVariable
        rw [Registry.size_replace]
        exact Registry.size_le_ensure _ _
      exact ⟨sound.withRegistry (sound.registry.defineVariable moduleName name refers) sizes,
        ⟨Nat.le_refl _, sizes⟩, trivial, rfl, rfl⟩
  | addNative native =>
      have heap := sound.heap
      exact ⟨sound.withHeap rfl ⟨heap.classes, heap.objects, heap.locks⟩,
        ⟨Nat.le_refl _, Nat.le_refl _⟩, trivial, rfl, rfl⟩
  | addClass newClass =>
      exact ⟨sound.withHeap rfl (sound.heap.addClass refers),
        ⟨Nat.le_refl _, Nat.le_refl _⟩, trivial, rfl, rfl⟩
  | addObject classId =>
      exact ⟨sound.withHeap rfl (sound.heap.addObject classId),
        ⟨Nat.le_refl _, Nat.le_refl _⟩, trivial, rfl, rfl⟩
  | ensureModule moduleName =>
      have sizes := Registry.size_le_ensure state.registry moduleName
      exact ⟨sound.withRegistry (sound.registry.ensure moduleName).1 sizes,
        ⟨Nat.le_refl _, sizes⟩, trivial, rfl, rfl⟩
  | compile mode moduleName source =>
      have named := sound.addNamedSource mode moduleName source
      have extended := State.extends_addNamedSource state mode moduleName source
      have unchanged := State.frames_addNamedSource state mode moduleName source
      rcases added : state.addNamedSource mode moduleName source with ⟨error | body, after⟩
      · have same : HostRequest.perform (.compile mode moduleName source) state =
            (.string error.report, after) := by
          simp only [HostRequest.perform, added]
        rw [added] at named extended unchanged
        refine ⟨?_, ?_, ?_, ?_, ?_⟩ <;> rw [same]
        · exact named
        · exact extended
        · trivial
        · exact unchanged.1
        · exact unchanged.2
      · have same : HostRequest.perform (.compile mode moduleName source) state =
            (.function body, after) := by
          simp only [HostRequest.perform, added]
        have inside := sound.lt_of_addNamedSource (congrArg Prod.fst added)
        rw [added] at named extended unchanged inside
        refine ⟨?_, ?_, ?_, ?_, ?_⟩ <;> rw [same]
        · exact named
        · exact extended
        · exact inside
        · exact unchanged.1
        · exact unchanged.2

end ScriptEngine
