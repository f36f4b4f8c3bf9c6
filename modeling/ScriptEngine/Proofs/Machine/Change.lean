import ScriptEngine.Proofs.Machine.Call

/-!
# What an action can change

Whatever code is run, the state changes in a few ways only: values are put on the
stack while there is room, functions of the heap are activated while there is room,
heap and module variables are written, modules are added and texts are compiled.
`State.Change` lists them.  It says nothing about how well the code is formed, so it
covers code written by hand as well as compiled code.

The list is relative to a property of values: what is stored has it, and what is changed
is named by a value that has it.  An action keeps every invariant of such changes, and what
it hands on has the property (`Action.Keeps`).  The lemmas below say so for calls,
properties, subscripts and imports.

A new instance gets a new name.  Where the name does not have the property, making the
instance is an escape, after which nothing is claimed any more (`Action.KeepsUnless`).
-/

namespace ScriptEngine

/-- A property that a bound method has if its parts do. -/
class Value.Partwise (good : Value → Prop) : Prop extends Value.Pervasive good where
  boundMethod :
    ∀ id receiver method, good (.boundMethod id receiver method) ↔ good receiver ∧ good method

/-- A property of values that depends on the parts of bound methods only: all instances have it. -/
class Value.Compound (good : Value → Prop) : Prop extends Value.Partwise good where
  object : ∀ id, good (.object id)

/-- A property that the machine does not lose: all functions have it. -/
class Value.Inherited (good : Value → Prop) : Prop extends Value.Compound good where
  function : ∀ id, good (.function id)

open Value.Pervasive (plain)

instance : Value.Inherited fun _ => True where
  plain := fun _ _ => trivial
  object := fun _ => trivial
  function := fun _ => trivial
  boundMethod := fun _ _ _ => (and_self_iff).symm

/-- The constants of a function have a property. -/
def Function.Each (good : Value → Prop) (function : Function) : Prop :=
  ∀ value ∈ function.chunk.constants, good value

/-- The variables of a module are unassigned or have a property. -/
def Module.Each (good : Value → Prop) (table : Module) : Prop :=
  ∀ value ∈ table.values, value = .undefined ∨ good value

/--
Everything that the machine computes with has a property; a module variable may be unassigned.
-/
structure State.Each (good : Value → Prop) (state : State) : Prop where
  stack : ∀ value ∈ state.stack, good value
  frames : ∀ frame ∈ state.frames, frame.function.Each good
  functions : ∀ function ∈ state.heap.functions, function.Each good
  heap : state.heap.Each good
  modules : ∀ table ∈ state.registry.modules, table.Each good

/--
An instance is changed by whoever can name it: names are values with a property.  One more
instance is made at most, and its name has the property too.
-/
structure Heap.ChangesNamed (good : Value → Prop) (before after : Heap) : Prop where
  size :
    after.objects.size = before.objects.size ∨
      after.objects.size = before.objects.size + 1 ∧ good (.object before.objects.size)
  kept :
    ∀ id < before.objects.size,
      ¬ good (.object id) → after.objects[id]? = before.objects[id]?

/-- A change of the modules other than by compiling. -/
inductive Registry.Change (good : Value → Prop) (registry : Registry) : Registry → Prop where
  | assign (id slot : Nat) {value : Value} (isGood : good value) :
      Change good registry (registry.modify id fun table => table.set slot value)
  | markLoaded (id : Nat) : Change good registry (registry.modify id Module.markLoaded)
  | ensure (name : String) : Change good registry (registry.ensure name).2
  | defineBuiltin (name : String) {value : Value} (isGood : good value) :
      Change good registry (registry.defineBuiltin name value)
  | defineVariable (moduleName name : String) {value : Value} (isGood : good value) :
      Change good registry (registry.defineVariable moduleName name value).2

/-- A variable that exists is assigned. -/
theorem Registry.Change.of_assign
    {good : Value → Prop}
    {registry after : Registry}
    {moduleName name : String}
    {value : Value}
    (assigned : registry.assign? moduleName name value = some after)
    (isGood : good value) :
    Registry.Change good registry after := by
  unfold Registry.assign? at assigned
  rcases Option.bind_eq_some_iff.mp assigned with ⟨id, -, found⟩
  rcases Option.bind_eq_some_iff.mp found with ⟨slot, -, same⟩
  cases same
  exact .assign id slot isGood

/-- A function that can be active: it was active before or is in the heap. -/
def State.CanActivate (state : State) (function : Function) : Prop :=
  (∃ frame ∈ state.frames, function = frame.function) ∨ ∃ id, function = state.heap.function id

/-- A change of the state. -/
inductive State.Change (limits : Limits) (good : Value → Prop) (state : State) : State → Prop where
  /-- The stack grows within its capacity only. -/
  | stack
      {stack : Array Value}
      (stored : ∀ value ∈ stack, value ∈ state.stack ∨ good value)
      (bounded : stack.size ≤ max state.stack.size limits.stackCapacity) :
      Change limits good state { state with stack }
  /-- The frames grow within their bound only, by functions of the heap. -/
  | frames
      {frames : Array Frame}
      (known : ∀ frame ∈ frames, state.CanActivate frame.function)
      (bounded : frames.size ≤ max state.frames.size limits.maxFrames) :
      Change limits good state { state with frames }
  | heap
      {heap : Heap}
      (functions : heap.functions = state.heap.functions)
      (stored : state.heap.Each good → heap.Each good)
      (named : state.heap.ChangesNamed good heap) :
      Change limits good state { state with heap }
  | registry
      {registry : Registry}
      (change : Registry.Change good state.registry registry) :
      Change limits good state { state with registry }
  /-- A text is compiled into a module, successfully or not. -/
  | compile
      (mode : CompileMode)
      {name : String}
      {id : Nat}
      (found : state.registry.find? name = some id)
      (source : String) :
      Change limits good state (state.addSource mode id source).2
  | journal (journal : Journal) : Change limits good state { state with journal }

/-- A property of states that all changes keep and in which values are good. -/
structure State.Invariant (limits : Limits) (good : Value → Prop) (holds : State → Prop) :
    Prop where
  each : ∀ {state : State}, holds state → state.Each good
  change :
    ∀ {before after : State}, holds before → State.Change limits good before after → holds after

/--
The name of an instance that is made while a property of states holds is good, or that the
instance exists is an escape, now and for all time.
-/
structure State.Escape (limits : Limits) (good : Value → Prop) (holds escape : State → Prop) :
    Prop where
  created :
    ∀ {state : State},
      holds state →
        ∀ classId : Nat,
          good (.object state.heap.objects.size) ∨
            escape { state with heap := (state.heap.addObject classId).2 }
  change :
    ∀ {before after : State},
      escape before → State.Change limits (fun _ => True) before after → escape after

/-- The bodies of texts that are compiled while a property of states holds are good. -/
class State.Compiles (good : Value → Prop) (holds : State → Prop) : Prop where
  body :
    ∀ {state : State} {mode : CompileMode} {id body : Nat} {source : String},
      holds state →
      (state.addSource mode id source).1 = .ok body →
        good (.function body)

instance {good : Value → Prop} {holds : State → Prop} [inherited : Value.Inherited good] :
    State.Compiles good holds :=
  ⟨fun _ _ => inherited.function _⟩

/-- What an action hands on to whatever comes next has a property. -/
def Transition.Hands (environment : Environment) (good : Value → Prop) : Transition → Prop
  | .proceed => True
  | .enterHost call program =>
    (∀ created, call.constructed = some created → good created) ∧
      ∃ key receiver arguments,
        program = environment.host key receiver arguments ∧
          good receiver ∧
          ∀ argument ∈ arguments, good argument
  | .finished value => good value

/-! ## Changes of instances -/

namespace Heap.ChangesNamed

variable {good : Value → Prop} {before after heap : Heap} {id : Nat}

theorem of_same (same : after.objects = before.objects) : before.ChangesNamed good after :=
  ⟨.inl (congrArg Array.size same), fun id _ _ => by rw [same]⟩

theorem addObject
    (isGood : good (.object heap.objects.size))
    (classId : Nat) :
    heap.ChangesNamed good (heap.addObject classId).2 := by
  refine ⟨.inr ⟨Array.size_push _, isGood⟩, fun id inside _ => ?_⟩
  show (heap.objects.push _)[id]? = _
  rw [Array.getElem?_push, if_neg (Nat.ne_of_lt inside)]

theorem modify
    (isGood : good (.object id))
    (change : Object → Object) :
    heap.ChangesNamed good { heap with objects := heap.objects.modify id change } := by
  refine ⟨.inl Array.size_modify, fun other _ hidden => ?_⟩
  show (heap.objects.modify id change)[other]? = _
  rw [Array.getElem?_modify, if_neg]
  rintro rfl
  exact hidden isGood

theorem updateData
    (isGood : good (.object id))
    (refused : α)
    (change : NativeData → α × NativeData) :
    heap.ChangesNamed good (heap.updateData id refused change).2 := by
  unfold Heap.updateData
  split
  · refine ⟨.inl ?_, fun other _ hidden => ?_⟩
    · show ((heap.objects.setIfInBounds _ _).setIfInBounds _ _).size = _
      rw [Array.size_setIfInBounds, Array.size_setIfInBounds]
    · have differs : id ≠ other := by
        rintro rfl
        exact hidden isGood
      show ((heap.objects.setIfInBounds _ _).setIfInBounds _ _)[other]? = _
      rw [Array.getElem?_setIfInBounds_ne differs, Array.getElem?_setIfInBounds_ne differs]
  · exact .of_same rfl

theorem runSequence
    {receiver : Value}
    (isGood : good receiver)
    (method : SequenceMethod)
    (arguments : List Value) :
    heap.ChangesNamed good (Container.runSequence method receiver arguments heap).2 := by
  unfold Container.runSequence
  split
  · exact updateData isGood _ _
  · exact .of_same rfl

theorem runDictionary
    {receiver : Value}
    (isGood : good receiver)
    (method : DictionaryMethod)
    (arguments : List Value) :
    heap.ChangesNamed good (Container.runDictionary method receiver arguments heap).2 := by
  unfold Container.runDictionary
  split
  · exact updateData isGood _ _
  · exact .of_same rfl

end Heap.ChangesNamed

/-! ## What can be read from a state -/

namespace State.Each

variable {good : Value → Prop} {state : State}

theorem of_forall (all : ∀ value, good value) (state : State) : state.Each good where
  stack := fun value _ => all value
  frames := fun _ _ value _ => all value
  functions := fun _ _ value _ => all value
  heap := .of_forall all state.heap
  modules := fun _ _ value _ => .inr (all value)

/-- A module that is not there has no variables. -/
theorem values (each : state.Each good) (id : Nat) :
    (state.registry.moduleAt id).Each good :=
  holds_getD each.modules (fun _ member => absurd member (Array.not_mem_empty _)) id

theorem assigned
    (each : state.Each good)
    {id slot : Nat}
    {value : Value}
    (found : (state.registry.moduleAt id).assigned? slot = some value) :
    good value := by
  rcases Option.filter_eq_some_iff.mp found with ⟨here, isAssigned⟩
  rcases each.values id value (Array.mem_of_getElem? here) with rfl | isGood
  · cases isAssigned
  · exact isGood

theorem assignedByName
    (each : state.Each good)
    {id : Nat}
    {name : String}
    {value : Value}
    (found : (state.registry.moduleAt id).assignedByName? name = some value) :
    good value := by
  rcases Option.bind_eq_some_iff.mp found with ⟨slot, -, here⟩
  exact each.assigned here

/-- Without frames there are no constants. -/
theorem frame (each : state.Each good) : (state.frames.back?.getD default).function.Each good := by
  rcases last : state.frames.back? with _ | frame
  · exact fun value member => absurd member Chunk.not_mem_constants_empty
  · exact each.frames frame (Array.mem_of_back? last)

end State.Each

/-! ## Escapes -/

namespace State.Escape

variable {limits : Limits} {good : Value → Prop} {holds escape : State → Prop}

theorem invariant (escapes : State.Escape limits good holds escape) :
    State.Invariant limits (fun _ => True) escape where
  each := fun {state} _ => .of_forall (fun _ => trivial) state
  change := escapes.change

/-- Where all names are good, nothing is an escape. -/
theorem none [compound : Value.Compound good] :
    State.Escape limits good holds fun _ => False where
  created := fun _ _ => .inl (compound.object _)
  change := fun impossible _ => impossible.elim

end State.Escape

/-! ## Actions that keep an invariant -/

namespace Action

/-- An action keeps a property of states, interrupted or not, and gives a good result. -/
def Keeps (holds : State → Prop) (good : α → Prop) (action : Action α) (state : State) : Prop :=
  action.Ensures state (fun result after => holds after ∧ good result) fun _ after => holds after

/-- The outcome of an action that keeps a property, whether it was interrupted or not. -/
theorem Keeps.holds
    {holds : State → Prop}
    {good : α → Prop}
    {action : Action α}
    {state : State}
    (keeps : action.Keeps holds good state) :
    holds (action state).2 := by
  unfold Keeps Ensures at keeps
  rcases outcome : action state with ⟨interruption | result, after⟩
  · rw [outcome] at keeps
    exact keeps
  · rw [outcome] at keeps
    exact keeps.1

/-- An action keeps a property of states and gives a good result, or it escapes. -/
def KeepsUnless (escape holds : State → Prop) (good : α → Prop) (action : Action α)
    (state : State) : Prop :=
  action.Ensures state (fun result after => escape after ∨ holds after ∧ good result)
    fun _ after => escape after ∨ holds after

section Rules

variable {holds escape : State → Prop} {state : State}

theorem Keeps.bind
    {good : α → Prop}
    {goodFirst : β → Prop}
    {action : Action β}
    {next : β → Action α}
    (first : action.Keeps holds goodFirst state)
    (goesOn :
      ∀ result after, holds after → goodFirst result → (next result).Keeps holds good after) :
    (action >>= next).Keeps holds good state := by
  apply Ensures.bind
  apply first.mono
  rintro result after ⟨kept, isGood⟩
  exact goesOn result after kept isGood

/-- What is looked at is known when the rest goes on in the same state. -/
theorem Keeps.look
    {good : α → Prop}
    {view : State → β}
    {next : β → Action α}
    (goesOn : (next (view state)).Keeps holds good state) :
    (Action.look view >>= next).Keeps holds good state :=
  goesOn

theorem Keeps.pure
    {good : α → Prop}
    {result : α}
    (kept : holds state)
    (isGood : good result) :
    (Pure.pure result : Action α).Keeps holds good state :=
  ⟨kept, isGood⟩

theorem Keeps.raise
    {good : α → Prop}
    (kept : holds state)
    (fault : Fault) :
    (Action.raise fault : Action α).Keeps holds good state :=
  kept

theorem Keeps.stuck
    {good : α → Prop}
    (kept : holds state) :
    (getStuck : Action α).Keeps holds good state :=
  kept

/-- A condition that is only checked. -/
theorem Keeps.check
    {good : α → Prop}
    {condition : Prop}
    [Decidable condition]
    {next : Action α}
    (kept : holds state)
    (fault : Fault)
    (goesOn : next.Keeps holds good state) :
    (do
      if condition then
        Action.raise fault
      next : Action α).Keeps holds good state := by
  simp only [raise_bind]
  split
  · exact .raise kept fault
  · exact goesOn

theorem Keeps.unless
    {good : α → Prop}
    {action : Action α}
    (keeps : action.Keeps holds good state) :
    action.KeepsUnless escape holds good state :=
  Ensures.weaken keeps (fun _ _ => .inr) fun _ _ => .inr

/-- After an escape it only matters that it stays one. -/
theorem Keeps.escaped
    {good : α → Prop}
    {action : Action α}
    {result : α → Prop}
    (keeps : action.Keeps escape result state) :
    action.KeepsUnless escape holds good state :=
  Ensures.weaken keeps (fun _ _ kept => .inl kept.1) fun _ _ => .inl

theorem KeepsUnless.keeps
    {good : α → Prop}
    {action : Action α}
    (keeps : action.KeepsUnless (fun _ => False) holds good state) :
    action.Keeps holds good state :=
  Ensures.weaken keeps (fun _ _ kept => kept.resolve_left id) fun _ _ kept => kept.resolve_left id

/-- Either the action has escaped, or it keeps what it should. -/
theorem KeepsUnless.escaped_or_keeps
    {good : α → Prop}
    {action : Action α}
    (keeps : action.KeepsUnless escape holds good state) :
    escape (action state).2 ∨ action.Keeps holds good state := by
  by_cases escaped : escape (action state).2
  · exact .inl escaped
  · refine .inr ?_
    unfold KeepsUnless Ensures at keeps
    unfold Keeps Ensures
    split <;> rename_i ends <;> rw [ends] at keeps escaped
    · exact keeps.resolve_left escaped
    · exact keeps.resolve_left escaped

/-- What comes last may escape. -/
theorem Keeps.last
    {good : α → Prop}
    {goodFirst : β → Prop}
    {action : Action β}
    {next : β → Action α}
    (first : action.Keeps holds goodFirst state)
    (goesOn :
      ∀ result after,
        holds after → goodFirst result → (next result).KeepsUnless escape holds good after) :
    (action >>= next).KeepsUnless escape holds good state := by
  apply Ensures.bind
  refine Ensures.weaken first ?_ fun _ _ => .inr
  rintro result after ⟨kept, isGood⟩
  exact goesOn result after kept isGood

theorem KeepsUnless.look
    {good : α → Prop}
    {view : State → β}
    {next : β → Action α}
    (goesOn : (next (view state)).KeepsUnless escape holds good state) :
    (Action.look view >>= next).KeepsUnless escape holds good state :=
  goesOn

theorem KeepsUnless.check
    {good : α → Prop}
    {condition : Prop}
    [Decidable condition]
    {next : Action α}
    (kept : holds state)
    (fault : Fault)
    (goesOn : next.KeepsUnless escape holds good state) :
    (do
      if condition then
        Action.raise fault
      next : Action α).KeepsUnless escape holds good state := by
  simp only [raise_bind]
  split
  · exact (Keeps.raise kept fault).unless
  · exact goesOn

end Rules

/-! ## Stack, frames and constants -/

variable
  {environment : Environment}
  {good : Value → Prop}
  {holds : State → Prop}
  (invariant : State.Invariant environment.settings.limits good holds)
  {state : State}
  (kept : holds state)

include invariant kept

theorem push_keeps {value : Value} (isGood : good value) :
    (push environment.settings.limits value).Keeps holds (fun _ => True) state := by
  unfold push Keeps Ensures
  by_cases room : state.stack.size < environment.settings.limits.stackCapacity
  · simp only [if_pos room]
    refine ⟨invariant.change kept (.stack ?_ ?_), trivial⟩
    · intro other member
      rcases Array.mem_push.mp member with old | rfl
      · exact .inl old
      · exact .inr isGood
    · rw [Array.size_push]
      exact Nat.le_trans room (Nat.le_max_right _ _)
  · simp only [if_neg room]
    exact kept

theorem pop_keeps : pop.Keeps holds good state := by
  unfold pop Keeps Ensures
  rcases last : state.stack.back? with _ | value
  · simp only [last]
    exact kept
  · simp only [last]
    refine ⟨invariant.change kept (.stack ?_ ?_), ?_⟩
    · exact fun other member => .inl (mem_of_mem_pop member)
    · rw [Array.size_pop]
      exact Nat.le_trans (Nat.sub_le _ _) (Nat.le_max_left _ _)
    · exact (invariant.each kept).stack value (Array.mem_of_back? last)

theorem setSlot_keeps (slot : Nat) {value : Value} (isGood : good value) :
    (setSlot slot value).Keeps holds (fun _ => True) state := by
  refine ⟨invariant.change kept (.stack ?_ ?_), trivial⟩
  · intro other member
    rcases Array.mem_or_eq_of_mem_setIfInBounds member with old | rfl
    · exact .inl old
    · exact .inr isGood
  · rw [Array.size_setIfInBounds]
    exact Nat.le_max_left _ _

theorem cutStack_keeps (size : Nat) : (cutStack size).Keeps holds (fun _ => True) state := by
  refine ⟨invariant.change kept (.stack ?_ ?_), trivial⟩
  · exact fun other member => .inl (mem_of_mem_shrink member)
  · rw [Array.size_shrink]
    exact Nat.le_trans (Nat.min_le_right _ _) (Nat.le_max_left _ _)

theorem moveTo_keeps (offset : Nat) : (moveTo offset).Keeps holds (fun _ => True) state := by
  refine ⟨invariant.change kept (.frames ?_ ?_), trivial⟩
  · have known : ∀ frame ∈ state.frames, state.CanActivate frame.function :=
      fun frame member => .inl ⟨frame, member, rfl⟩
    apply forall_mem_modify known
    exact fun _ same => same
  · rw [Array.size_modify]
    exact Nat.le_max_left _ _

/-- A frame is entered for a function of the heap. -/
theorem pushFrame_keeps
    {function : Function}
    (known : ∃ id, function = state.heap.function id)
    (argumentCount : Nat)
    (initializer : Bool) :
    (pushFrame environment.settings.limits function argumentCount initializer).Keeps holds
      (fun _ => True) state := by
  unfold pushFrame
  apply Keeps.check kept
  apply Keeps.look
  simp only [raise_bind]
  split
  · exact .raise kept _
  · rename_i room
    refine ⟨invariant.change kept (.frames ?_ ?_), trivial⟩
    · have old : ∀ frame ∈ state.frames, state.CanActivate frame.function :=
        fun frame member => .inl ⟨frame, member, rfl⟩
      exact forall_mem_push old (.inr known)
    · rw [Array.size_push]
      exact Nat.le_trans (Nat.lt_of_not_le room) (Nat.le_max_right _ _)

theorem constant_keeps (index : Nat) : (constant index).Keeps holds good state := by
  unfold constant frame
  apply Keeps.look
  split
  · rename_i value found
    rw [Chunk.constant?_eq_getElem?] at found
    exact .pure kept ((invariant.each kept).frame value (Array.mem_of_getElem? found))
  · exact .raise kept _

theorem name_keeps (index : UInt16) : (name index).Keeps holds (fun _ => True) state := by
  unfold name
  apply (constant_keeps invariant kept index.toNat).bind
  intro value after kept _
  split
  · exact .pure kept trivial
  · exact .raise kept _

/-- A change of the heap that leaves the functions alone. -/
theorem updateHeap_keeps
    {step : Heap → α × Heap}
    {goodResult : α → Prop}
    (functions : (step state.heap).2.functions = state.heap.functions)
    (stored :
      state.heap.Each good → goodResult (step state.heap).1 ∧ (step state.heap).2.Each good)
    (named : state.heap.ChangesNamed good (step state.heap).2) :
    (updateHeap step).Keeps holds goodResult state :=
  ⟨invariant.change kept (.heap functions (fun each => (stored each).2) named),
    (stored (invariant.each kept).heap).1⟩

theorem changeHeap_keeps
    {step : Heap → Heap}
    (functions : (step state.heap).functions = state.heap.functions)
    (stored : state.heap.Each good → (step state.heap).Each good)
    (named : state.heap.ChangesNamed good (step state.heap)) :
    (changeHeap step).Keeps holds (fun _ => True) state :=
  ⟨invariant.change kept (.heap functions stored named), trivial⟩

variable [partwise : Value.Partwise good]

theorem peek_keeps (distance : Nat) : (peek distance).Keeps holds good state := by
  unfold peek Keeps Ensures
  by_cases inside : distance < state.stack.size
  · simp only [if_pos inside]
    exact ⟨kept, holds_getD (invariant.each kept).stack (plain .null rfl) _⟩
  · simp only [if_neg inside]
    exact kept

/-! ## Calls -/

omit partwise in
theorem completeHostCall_keeps
    {call : HostCall}
    {value : Value}
    (constructed : ∀ created, call.constructed = some created → good created)
    (isGood : good value) :
    (completeHostCall environment call value).Keeps holds (fun _ => True) state := by
  unfold completeHostCall
  apply (cutStack_keeps invariant kept call.slot).bind
  intro _ cut kept _
  apply (push_keeps invariant kept isGood).bind
  intro _ pushed kept _
  split
  · rename_i created isCreated
    exact setSlot_keeps invariant kept (pushed.stack.size - 1) (constructed created isCreated)
  · exact .pure kept trivial

omit partwise in
theorem completeAtOnce_keeps
    {call : HostCall}
    {result : Except String Value}
    (constructed : ∀ created, call.constructed = some created → good created)
    (isGood : OutcomeEach good result) :
    (completeAtOnce environment call result).Keeps holds (Transition.Hands environment good)
      state := by
  unfold completeAtOnce
  split
  · rename_i value
    apply (completeHostCall_keeps invariant kept constructed (isGood value rfl)).bind
    intro _ after kept _
    exact .pure kept trivial
  · exact .raise kept _

/-- A native callable gets its receiver and its arguments from the stack. -/
theorem callNative_keeps
    (native : Native)
    (argumentCount : Nat)
    {constructed : Option Value}
    (isGood : ∀ created, constructed = some created → good created) :
    (callNative environment native argumentCount constructed).Keeps holds
      (Transition.Hands environment good) state := by
  have each := invariant.each kept
  have receiverGood : ∀ slot, good (state.stack.getD slot .null) :=
    holds_getD each.stack (plain .null rfl)
  have argumentsGood :
      ∀ slot, ∀ argument ∈ (state.stack.extract (slot + 1) state.stack.size).toList,
        good argument := by
    intro slot argument member
    rcases Array.mem_extract_iff_getElem.mp (Array.mem_toList_iff.mp member) with
      ⟨place, bound, rfl⟩
    exact each.stack _ (Array.getElem_mem _)
  unfold callNative
  extract_lets goOn
  have goesOn : (goOn ()).Keeps holds (Transition.Hands environment good) state := by
    apply Keeps.look
    apply Keeps.look
    apply Keeps.look
    simp only
    split
    · rename_i method _
      refine Keeps.bind
        (updateHeap_keeps invariant kept (Container.functions_runSequence _ _ _ _)
          (fun each => Container.runSequence_each each (receiverGood _) (argumentsGood _) method)
          (.runSequence (receiverGood _) method _)) ?_
      intro outcome after kept outcomeGood
      exact completeAtOnce_keeps invariant kept isGood outcomeGood
    · rename_i method _
      refine Keeps.bind
        (updateHeap_keeps invariant kept (Container.functions_runDictionary _ _ _ _)
          (fun each => Container.runDictionary_each each _ _ method)
          (.runDictionary (receiverGood _) method _)) ?_
      intro outcome after kept outcomeGood
      exact completeAtOnce_keeps invariant kept isGood outcomeGood
    · rename_i key _
      exact .pure kept ⟨isGood, key, _, _, rfl, receiverGood _, argumentsGood _⟩
  split
  · exact .check kept _ goesOn
  · exact goesOn

omit partwise in
/-- A compiled function is entered. -/
theorem enterFunction_keeps (id argumentCount : Nat) (initializer : Bool) :
    (do
      pushFrame environment.settings.limits (state.heap.function id) argumentCount initializer
      return .proceed : Action Transition).Keeps holds (Transition.Hands environment good)
        state := by
  apply (pushFrame_keeps invariant kept ⟨id, rfl⟩ argumentCount initializer).bind
  intro _ after kept _
  exact .pure kept trivial

omit partwise in
theorem callFunction_keeps (id argumentCount : Nat) :
    (callValue environment (.function id) argumentCount).Keeps holds
      (Transition.Hands environment good) state := by
  unfold callValue
  exact .look (enterFunction_keeps invariant kept id argumentCount false)

/-- The new instance stands in the place of the callee, and its initialiser is called. -/
theorem initialize_keeps
    {id : Nat}
    (isGood : good (.object id))
    (slot classId argumentCount : Nat) :
    (do
      setSlot slot (.object id)
      match ← look fun state => (state.heap.classAt classId).methods["init"]? with
      | some (.function id) =>
        let function ← look (·.heap.function id)
        pushFrame environment.settings.limits function argumentCount true
        return .proceed
      | some (.hostMethod other) =>
        callNative environment (← look (·.heap.native other)) argumentCount (some (.object id))
      | some _ => raise .notCallable
      | none =>
        if argumentCount ≠ 0 then
          raise (.argumentCount 0 argumentCount)
        return .proceed : Action Transition).Keeps holds (Transition.Hands environment good)
      state := by
  apply (setSlot_keeps invariant kept _ isGood).bind
  intro _ placed kept _
  apply Keeps.look
  split
  · rename_i function _
    exact .look (enterFunction_keeps invariant kept function argumentCount true)
  · apply Keeps.look
    apply callNative_keeps invariant kept
    rintro _ ⟨⟩
    exact isGood
  · exact .raise kept _
  · exact .check kept _ (.pure kept trivial)

section Escaping

variable
  {escape : State → Prop}
  (escapes : State.Escape environment.settings.limits good holds escape)

include escapes

theorem construct_keepsUnless (classId argumentCount : Nat) :
    (construct environment classId argumentCount).KeepsUnless escape holds
      (Transition.Hands environment good) state := by
  unfold construct
  apply KeepsUnless.look
  apply Ensures.bind
  apply Ensures.updateHeap
  rcases escapes.created kept classId with isGood | escaped
  · have added : holds { state with heap := (state.heap.addObject classId).2 } :=
      invariant.change kept
        (.heap rfl (fun each => each.addObject classId) (.addObject isGood classId))
    exact (initialize_keeps invariant added isGood _ classId argumentCount).unless
  · exact (initialize_keeps escapes.invariant escaped trivial _ classId argumentCount).escaped

theorem callValue_keepsUnless {callee : Value} (isGood : good callee) (argumentCount : Nat) :
    (callValue environment callee argumentCount).KeepsUnless escape holds
      (Transition.Hands environment good) state := by
  induction callee generalizing state with
  | function id => exact (callFunction_keeps invariant kept id argumentCount).unless
  | boundMethod id receiver method _ induction =>
      rcases (partwise.boundMethod id receiver method).mp isGood with
        ⟨receiverGood, methodGood⟩
      unfold callValue
      apply KeepsUnless.look
      apply (setSlot_keeps invariant kept _ receiverGood).last
      intro _ after kept _
      exact induction kept methodGood
  | classObject id =>
      unfold callValue
      exact construct_keepsUnless invariant kept escapes id argumentCount
  | hostFunction id | hostMethod id =>
      unfold callValue
      apply KeepsUnless.look
      apply Keeps.unless
      apply callNative_keeps invariant kept
      rintro _ ⟨⟩
  | _ =>
      unfold callValue
      exact (Keeps.raise kept _).unless

end Escaping

/-! ## Properties and subscripts -/

omit partwise in
theorem moduleVariable_keeps (moduleId : Nat) (name : String) :
    (moduleVariable moduleId name).Keeps holds good state := by
  unfold moduleVariable
  apply Keeps.look
  split
  · rename_i value found
    exact .pure kept ((invariant.each kept).assignedByName found)
  · exact .raise kept _

/-- A method that is read as a property is bound to its receiver. -/
theorem bind_keeps
    {receiver method : Value}
    (receiverGood : good receiver)
    (methodGood : good method) :
    (updateHeap fun heap => heap.bind receiver method).Keeps holds good state := by
  refine updateHeap_keeps invariant kept rfl (fun each => ⟨?_, each.classes, each.objects⟩)
    (.of_same rfl)
  exact (partwise.boundMethod _ _ _).mpr ⟨receiverGood, methodGood⟩

theorem property_keeps {receiver : Value} (isGood : good receiver) (name : String) :
    (property receiver name).Keeps holds good state := by
  have each := (invariant.each kept).heap
  unfold property
  split
  · rename_i id
    apply Keeps.look
    split
    · rename_i value found
      exact .pure kept ((each.objectAt id).fields _ _ found)
    · apply Keeps.look
      split
      · rename_i method found
        exact bind_keeps invariant kept isGood ((each.classAt _).methods _ _ found)
      · exact .raise kept _
  · apply Keeps.look
    split
    · rename_i method found
      exact bind_keeps invariant kept isGood ((each.classAt _).statics _ _ found)
    · exact .raise kept _
  · exact moduleVariable_keeps invariant kept _ name
  · exact .raise kept _

theorem invoke_keepsUnless
    {escape : State → Prop}
    (escapes : State.Escape environment.settings.limits good holds escape)
    (name : String)
    (argumentCount : Nat) :
    (invoke environment name argumentCount).KeepsUnless escape holds
      (Transition.Hands environment good) state := by
  unfold invoke
  apply (peek_keeps invariant kept argumentCount).last
  intro receiver peeked kept isGood
  have each := (invariant.each kept).heap
  apply KeepsUnless.look
  split
  · rename_i id
    apply KeepsUnless.look
    split
    · rename_i value found
      have fieldGood := (each.objectAt id).fields _ _ found
      apply (setSlot_keeps invariant kept _ fieldGood).last
      intro _ after kept _
      exact callValue_keepsUnless invariant kept escapes fieldGood argumentCount
    · apply KeepsUnless.look
      split
      · rename_i method found
        exact callValue_keepsUnless invariant kept escapes
          ((each.classAt _).methods _ _ found) argumentCount
      · exact (Keeps.raise kept _).unless
  · apply KeepsUnless.look
    split
    · rename_i method found
      exact callValue_keepsUnless invariant kept escapes
        ((each.classAt _).statics _ _ found) argumentCount
    · exact (Keeps.raise kept _).unless
  · apply (moduleVariable_keeps invariant kept _ name).last
    intro value read kept valueGood
    apply (setSlot_keeps invariant kept _ valueGood).last
    intro _ after kept _
    exact callValue_keepsUnless invariant kept escapes valueGood argumentCount
  · exact (Keeps.raise kept _).unless

omit partwise in
theorem indexable_keeps {receiver : Value} (isGood : good receiver) :
    (indexable receiver).Keeps holds (fun found => found.2.Each good ∧ good (.object found.1))
      state := by
  unfold indexable
  split
  · rename_i id
    apply Keeps.look
    split
    · exact .raise kept _
    · rename_i data isData
      apply Keeps.look
      split
      · exact .raise kept _
      · split
        · exact .pure kept ⟨((invariant.each kept).heap.objectAt id).data data isData, isGood⟩
        · exact .raise kept _
  · exact .raise kept _

theorem getIndex_keeps {receiver : Value} (isGood : good receiver) (index : Value) :
    (getIndex receiver index).Keeps holds good state := by
  unfold getIndex
  apply (indexable_keeps invariant kept isGood).bind
  rintro ⟨id, data⟩ after kept ⟨dataGood, -⟩
  simp only
  split
  · rename_i value read
    exact .pure kept (dataGood.readIndex read)
  · exact .raise kept _

omit partwise in
theorem setIndex_keeps
    {receiver index value : Value}
    (receiverGood : good receiver)
    (indexGood : good index)
    (valueGood : good value) :
    (setIndex receiver index value).Keeps holds (fun _ => True) state := by
  unfold setIndex
  apply (indexable_keeps invariant kept receiverGood).bind
  rintro ⟨id, data⟩ found kept ⟨-, isGood⟩
  have written :
      (updateHeap fun heap =>
        heap.updateData id (.ok ()) fun data => data.writeIndex index value).Keeps holds
          (fun _ => True) found :=
    updateHeap_keeps invariant kept (Heap.functions_updateData _ _ _ _)
      (fun each =>
        ⟨trivial, each.updateData (fun _ isGood => isGood.writeIndex indexGood valueGood) id⟩)
      (.updateData isGood _ _)
  apply written.bind
  intro outcome after kept _
  split
  · exact .pure kept trivial
  · exact .raise kept _

/-! ## Imports -/

omit partwise in
theorem requestSource_keeps (name : String) :
    (requestSource environment name).Keeps holds (fun _ => True) state := by
  unfold requestSource
  split
  · exact .pure kept trivial
  · exact ⟨invariant.change kept (.journal _), trivial⟩

omit partwise in
theorem markLoaded_keeps (moduleId : Nat) :
    (markLoaded moduleId).Keeps holds (fun _ => True) state :=
  ⟨invariant.change kept (.registry (.markLoaded moduleId)), trivial⟩

omit partwise in
theorem pushProceed_keeps {value : Value} (isGood : good value) :
    (do
      push environment.settings.limits value
      return .proceed : Action Transition).Keeps holds (Transition.Hands environment good)
        state := by
  apply (push_keeps invariant kept isGood).bind
  intro _ after kept _
  exact .pure kept trivial

theorem importModule_keeps [compiles : State.Compiles good holds] (name : String) :
    (importModule environment name).Keeps holds (Transition.Hands environment good) state := by
  unfold importModule
  extract_lets limits
  apply Keeps.look
  apply Keeps.look
  split
  · exact pushProceed_keeps invariant kept (plain (.moduleHandle _ _) rfl)
  · apply (requestSource_keeps invariant kept name).bind
    intro source? asked kept _
    split
    · split
      · rename_i id _
        apply (markLoaded_keeps invariant kept id).bind
        intro _ marked kept _
        exact pushProceed_keeps invariant kept (plain .null rfl)
      · exact .raise kept _
    · rename_i source
      apply Ensures.bind
      apply Ensures.update
      have ensured := invariant.change kept (.registry (.ensure name))
      apply Ensures.bind
      apply Ensures.update
      have compiled := invariant.change ensured
        (.compile .run (Registry.find?_ensure asked.registry name) source)
      split
      · exact compiled
      · rename_i body accepted
        have isGood : good (.function body) := compiles.body ensured accepted
        apply (markLoaded_keeps invariant compiled _).bind
        intro _ marked kept _
        apply (push_keeps invariant kept isGood).bind
        intro _ pushed kept _
        exact callFunction_keeps invariant kept body 0

end Action

end ScriptEngine
