import ScriptEngine.Proofs.Compiler.Evaluation
import ScriptEngine.Proofs.Machine.Ground
import ScriptEngine.Proofs.Machine.Permanence

/-!
# The outermost function under a disguise

A `Disguise` puts another function with other code in the place of a function of the
heap and of the outermost frame, and another value in the slot from which that frame
was called.  `Disguise.Covers` relates a state to the one under the disguise; nothing
else but the record of executed instructions may differ.

An action that works above the slot does not notice (`Action.Overlooks`), since
everything but the code of a function can be found out about it: its name, its
constants and its home are the same.
-/

namespace ScriptEngine

/-- The function at a position is not among the parts of a value. -/
def Value.Avoids (position : Nat) : Value → Prop
  | .function id => id ≠ position
  | .boundMethod _ receiver method => receiver.Avoids position ∧ method.Avoids position
  | _ => True

instance (position : Nat) : Value.Compound (Value.Avoids position) where
  plain := by
    intro value isPlain
    cases value with
    | undefined | function | boundMethod => cases isPlain
    | _ => trivial
  object := fun _ => trivial
  boundMethod := fun _ _ _ => Iff.rfl

/-- A value that refers to earlier functions only avoids a later one. -/
theorem Value.Refers.avoids
    {known position : Nat}
    (bound : known ≤ position)
    {value : Value}
    (refers : value.Refers known) :
    value.Avoids position := by
  induction value with
  | function id => exact Nat.ne_of_lt (Nat.lt_of_lt_of_le refers bound)
  | boundMethod _ receiver method receiverAvoids methodAvoids =>
      exact ⟨receiverAvoids refers.1, methodAvoids refers.2⟩
  | _ => trivial

/-! ## Heaps with other code -/

/-- Heaps that differ in nothing but the code of functions. -/
structure Heap.SameButCode (first second : Heap) : Prop where
  natives : second.natives = first.natives
  classes : second.classes = first.classes
  objects : second.objects = first.objects
  boundMethods : second.boundMethods = first.boundMethods
  size : second.functions.size = first.functions.size
  function : ∀ id, (first.function id).SameButCode (second.function id)

namespace Heap.SameButCode

variable {first second : Heap}

theorem objectAt (same : first.SameButCode second) (id : Nat) :
    second.objectAt id = first.objectAt id := by
  unfold Heap.objectAt
  rw [same.objects]

theorem classAt (same : first.SameButCode second) (id : Nat) :
    second.classAt id = first.classAt id := by
  unfold Heap.classAt
  rw [same.classes]

theorem native (same : first.SameButCode second) (id : Nat) :
    second.native id = first.native id := by
  unfold Heap.native
  rw [same.natives]

theorem classOf (same : first.SameButCode second) (id : Nat) :
    second.classOf id = first.classOf id := by
  unfold Heap.classOf
  rw [same.classAt, same.objectAt]

theorem field? (same : first.SameButCode second) (id : Nat) (name : String) :
    second.field? id name = first.field? id name := by
  unfold Heap.field?
  rw [same.objectAt]

/-- The text of a value does not tell the code of functions. -/
theorem displayWithin
    (same : first.SameButCode second)
    (levels : Nat)
    (enclosing : List Nat)
    (value : Value) :
    second.displayWithin levels enclosing value = first.displayWithin levels enclosing value := by
  induction levels generalizing enclosing value with
  | zero =>
      unfold Heap.displayWithin Heap.plainText
      simp only [same.objectAt, same.classAt, same.native, same.classOf, (same.function _).name]
  | succ levels induction =>
      have inside :
          ∀ enclosing,
            second.displayWithin levels enclosing = first.displayWithin levels enclosing :=
        fun enclosing => funext fun value => induction enclosing value
      unfold Heap.displayWithin Heap.plainText
      simp only [same.objectAt, same.classAt, same.native, same.classOf, (same.function _).name,
        inside]

theorem display (same : first.SameButCode second) (value : Value) :
    second.display value = first.display value :=
  same.displayWithin _ _ value

end Heap.SameButCode

/-- A change of the heap that neither looks at functions nor changes them. -/
def Heap.Neutral (step : Heap → α × Heap) : Prop :=
  ∀ heap functions,
    step { heap with functions } = ((step heap).1, { (step heap).2 with functions })

theorem Heap.Neutral.functions
    {step : Heap → α × Heap}
    (neutral : Neutral step)
    (heap : Heap) :
    (step heap).2.functions = heap.functions :=
  congrArg (fun result => result.2.functions) (neutral heap heap.functions)

theorem Heap.neutral_updateData
    (id : Nat)
    (refused : α)
    (change : NativeData → α × NativeData) :
    Neutral fun heap => heap.updateData id refused change := by
  intro heap functions
  have sameObject : Heap.objectAt { heap with functions } id = heap.objectAt id := rfl
  unfold Heap.updateData
  simp only [sameObject]
  split <;> rfl

theorem Container.neutral_runSequence
    (method : SequenceMethod)
    (receiver : Value)
    (arguments : List Value) :
    Heap.Neutral (runSequence method receiver arguments) := by
  cases receiver with
  | object id => exact Heap.neutral_updateData id _ _
  | _ => exact fun _ _ => rfl

theorem Container.neutral_runDictionary
    (method : DictionaryMethod)
    (receiver : Value)
    (arguments : List Value) :
    Heap.Neutral (runDictionary method receiver arguments) := by
  cases receiver with
  | object id => exact Heap.neutral_updateData id _ _
  | _ => exact fun _ _ => rfl

/-! ## Disguises -/

/-- A function with other code in the place of the outermost function of a call. -/
structure Disguise where
  /-- Position of slot zero of the outermost function on the stack. -/
  slot : Nat
  /-- What lies there. -/
  value : Value
  /-- Position of the outermost function in the heap. -/
  position : Nat
  original : Function
  function : Function
  same : original.SameButCode function

namespace Disguise

variable (disguise : Disguise)

/-- The heap with the other function. -/
def heap (heap : Heap) : Heap :=
  { heap with functions := heap.functions.setIfInBounds disguise.position disguise.function }

/-- The outermost frame with the other function. -/
def frame (frame : Frame) : Frame :=
  { frame with function := disguise.function }

/-- Everything but stack and frames under a disguise. -/
structure Surrounds (plain other : State) : Prop where
  heap : other.heap = disguise.heap plain.heap
  registry : other.registry = plain.registry
  texts : other.journal.texts = plain.journal.texts
  loads : other.journal.loads = plain.journal.loads
  original : plain.heap.functions[disguise.position]? = some disguise.original

/-- A state and the same state under a disguise; all other frames are above the slot. -/
structure Covers (plain other : State) : Prop extends disguise.Surrounds plain other where
  stack : other.stack = plain.stack.setIfInBounds disguise.slot disguise.value
  frames : other.frames = plain.frames.modify 0 disguise.frame
  inside : disguise.slot < plain.stack.size
  outermost :
    ∃ frame,
      plain.frames[0]? = some frame ∧
        frame.base = disguise.slot ∧
        frame.initializer = false ∧
        frame.function = disguise.original
  above : ∀ place frame, plain.frames[place + 1]? = some frame → disguise.slot < frame.base

/-- The outermost function has returned, and only the heap is still under the disguise. -/
structure Remains (plain other : State) : Prop extends disguise.Surrounds plain other where
  stack : other.stack = plain.stack
  frames : other.frames = plain.frames

variable {disguise : Disguise} {plain other : State}

theorem Surrounds.lt_size (surrounds : disguise.Surrounds plain other) :
    disguise.position < plain.heap.functions.size :=
  (Array.getElem?_eq_some_iff.mp surrounds.original).1

/-- What can be found out about heaps is the same. -/
theorem Surrounds.sameButCode (surrounds : disguise.Surrounds plain other) :
    plain.heap.SameButCode other.heap := by
  rw [surrounds.heap]
  refine ⟨rfl, rfl, rfl, rfl, Array.size_setIfInBounds, ?_⟩
  intro id
  unfold Heap.function Disguise.heap
  simp only [Array.getD_eq_getD_getElem?, Array.getElem?_setIfInBounds]
  by_cases here : disguise.position = id
  · subst here
    rw [if_pos rfl, if_pos surrounds.lt_size, surrounds.original]
    exact disguise.same
  · rw [if_neg here]
    exact ⟨rfl, rfl, rfl, rfl⟩

namespace Covers

/-! ### What can be seen -/

theorem size_stack (covers : disguise.Covers plain other) :
    other.stack.size = plain.stack.size := by
  rw [covers.stack, Array.size_setIfInBounds]

theorem size_frames (covers : disguise.Covers plain other) :
    other.frames.size = plain.frames.size := by
  rw [covers.frames, Array.size_modify]

theorem frames_pos (covers : disguise.Covers plain other) : 0 < plain.frames.size := by
  rcases covers.outermost with ⟨frame, here, -⟩
  exact (Array.getElem?_eq_some_iff.mp here).1

/-- Another position of the stack holds the same. -/
theorem getElem?_stack
    (covers : disguise.Covers plain other)
    {position : Nat}
    (elsewhere : position ≠ disguise.slot) :
    other.stack[position]? = plain.stack[position]? := by
  rw [covers.stack, Array.getElem?_setIfInBounds_ne elsewhere.symm]

theorem getD_stack
    (covers : disguise.Covers plain other)
    {position : Nat}
    (elsewhere : position ≠ disguise.slot)
    (missing : Value) :
    other.stack.getD position missing = plain.stack.getD position missing := by
  rw [Array.getD_eq_getD_getElem?, Array.getD_eq_getD_getElem?, covers.getElem?_stack elsewhere]

/-- The innermost frame is the outermost one under the disguise, or it is above the slot. -/
theorem innermost (covers : disguise.Covers plain other) :
    ∃ frame,
      plain.frames.back? = some frame ∧
        (plain.frames.size = 1 ∧
            other.frames.back? = some (disguise.frame frame) ∧
            frame.base = disguise.slot ∧
            frame.initializer = false ∧
            frame.function = disguise.original ∨
          1 < plain.frames.size ∧
            other.frames.back? = some frame ∧
            disguise.slot < frame.base) := by
  have positive := covers.frames_pos
  have last : plain.frames.back? = some plain.frames[plain.frames.size - 1] := by
    rw [Array.back?_eq_getElem?, Array.getElem?_eq_getElem]
  refine ⟨_, last, ?_⟩
  rw [Array.back?_eq_getElem?, covers.size_frames, covers.frames, Array.getElem?_modify]
  by_cases single : plain.frames.size = 1
  · rcases covers.outermost with ⟨frame, here, base, initializer, function⟩
    have same : plain.frames[plain.frames.size - 1] = frame := by
      have there := (Array.getElem?_eq_some_iff.mp here).2
      simp only [single]
      exact there
    rw [same]
    refine .inl ⟨single, ?_, base, initializer, function⟩
    rw [single, if_pos rfl, here]
    rfl
  · refine .inr ⟨by omega, ?_, ?_⟩
    · rw [if_neg (by omega), Array.getElem?_eq_getElem]
    · apply covers.above (plain.frames.size - 2)
      rw [show plain.frames.size - 2 + 1 = plain.frames.size - 1 by omega,
        Array.getElem?_eq_getElem]

/-- What is known of the innermost frame whatever its code. -/
theorem frame_eq (covers : disguise.Covers plain other) :
    (other.frames.back?.getD default).base = (plain.frames.back?.getD default).base ∧
      (other.frames.back?.getD default).offset = (plain.frames.back?.getD default).offset ∧
      (other.frames.back?.getD default).initializer =
        (plain.frames.back?.getD default).initializer ∧
      (plain.frames.back?.getD default).function.SameButCode
        (other.frames.back?.getD default).function := by
  rcases covers.innermost with ⟨frame, last, ⟨-, same, -, -, function⟩ | ⟨-, same, -⟩⟩
  · rw [last, same]
    refine ⟨rfl, rfl, rfl, ?_⟩
    show frame.function.SameButCode disguise.function
    rw [function]
    exact disguise.same
  · rw [last, same]
    exact ⟨rfl, rfl, rfl, rfl, rfl, rfl, rfl⟩

/-- Only slot zero of the outermost function is at the place of the disguise. -/
theorem local_ne
    (covers : disguise.Covers plain other)
    {slot : Nat}
    (spared : plain.frames.size = 1 → slot ≠ 0) :
    (plain.frames.back?.getD default).base + slot ≠ disguise.slot := by
  rcases covers.innermost with ⟨frame, last, ⟨single, -, base, -⟩ | ⟨-, -, isAbove⟩⟩
  · have positive := spared single
    rw [last, Option.getD_some, base]
    omega
  · rw [last, Option.getD_some]
    omega

/-! ### Changes of the state -/

theorem withStack
    (covers : disguise.Covers plain other)
    {stack otherStack : Array Value}
    (same : otherStack = stack.setIfInBounds disguise.slot disguise.value)
    (inside : disguise.slot < stack.size) :
    disguise.Covers { plain with stack } { other with stack := otherStack } :=
  { covers with stack := same, inside := inside }

theorem push (covers : disguise.Covers plain other) (value : Value) :
    disguise.Covers { plain with stack := plain.stack.push value }
      { other with stack := other.stack.push value } := by
  apply covers.withStack
  · rw [covers.stack]
    apply Array.ext_getElem?
    intro place
    have inside := covers.inside
    simp only [Array.getElem?_push, Array.getElem?_setIfInBounds, Array.size_setIfInBounds,
      Array.size_push]
    grind
  · rw [Array.size_push]
    exact Nat.lt_succ_of_lt covers.inside

theorem pop
    (covers : disguise.Covers plain other)
    (above : disguise.slot + 1 < plain.stack.size) :
    disguise.Covers { plain with stack := plain.stack.pop }
      { other with stack := other.stack.pop } := by
  apply covers.withStack
  · rw [covers.stack]
    apply Array.ext_getElem?
    intro place
    simp only [Array.getElem?_pop, Array.getElem?_setIfInBounds, Array.size_setIfInBounds,
      Array.size_pop]
    grind
  · rw [Array.size_pop]
    omega

theorem setSlot
    (covers : disguise.Covers plain other)
    {position : Nat}
    (elsewhere : position ≠ disguise.slot)
    (value : Value) :
    disguise.Covers { plain with stack := plain.stack.setIfInBounds position value }
      { other with stack := other.stack.setIfInBounds position value } := by
  apply covers.withStack
  · rw [covers.stack]
    exact Array.setIfInBounds_comm _ _ elsewhere.symm
  · rw [Array.size_setIfInBounds]
    exact covers.inside

theorem cutStack
    (covers : disguise.Covers plain other)
    {size : Nat}
    (above : disguise.slot < size) :
    disguise.Covers { plain with stack := plain.stack.shrink size }
      { other with stack := other.stack.shrink size } := by
  apply covers.withStack
  · rw [covers.stack]
    apply Array.toList_inj.mp
    simp only [Array.toList_shrink, Array.toList_setIfInBounds]
    exact List.take_set
  · rw [Array.size_shrink]
    have inside := covers.inside
    omega

theorem withFrames
    (covers : disguise.Covers plain other)
    {frames otherFrames : Array Frame}
    (same : otherFrames = frames.modify 0 disguise.frame)
    (outermost :
      ∀ frame, plain.frames[0]? = some frame →
        ∃ offset, frames[0]? = some { frame with offset })
    (above :
      ∀ place frame, frames[place + 1]? = some frame → disguise.slot < frame.base) :
    disguise.Covers { plain with frames } { other with frames := otherFrames } := by
  rcases covers.outermost with ⟨frame, here, base, initializer, function⟩
  rcases outermost frame here with ⟨offset, there⟩
  exact { covers with
    frames := same
    outermost := ⟨_, there, base, initializer, function⟩
    above := above }

theorem pushFrame
    (covers : disguise.Covers plain other)
    {frame : Frame}
    (isAbove : disguise.slot < frame.base) :
    disguise.Covers { plain with frames := plain.frames.push frame }
      { other with frames := other.frames.push frame } := by
  have positive := covers.frames_pos
  apply covers.withFrames
  · rw [covers.frames]
    apply Array.ext_getElem?
    intro place
    simp only [Array.getElem?_push, Array.getElem?_modify, Array.size_modify]
    split
    · rw [if_neg (by omega)]
    · rfl
  · intro outermost here
    refine ⟨outermost.offset, ?_⟩
    rw [Array.getElem?_push, if_neg (by omega)]
    exact here
  · intro place other here
    rw [Array.getElem?_push] at here
    split at here
    · cases here
      exact isAbove
    · exact covers.above place other here

/-- A frame other than the outermost one is left. -/
theorem popFrame
    (covers : disguise.Covers plain other)
    (others : 1 < plain.frames.size) :
    disguise.Covers { plain with frames := plain.frames.pop }
      { other with frames := other.frames.pop } := by
  apply covers.withFrames
  · rw [covers.frames]
    apply Array.ext_getElem?
    intro place
    simp only [Array.getElem?_pop, Array.getElem?_modify, Array.size_modify]
    split
    · split <;> rfl
    · split <;> rfl
  · intro outermost here
    refine ⟨outermost.offset, ?_⟩
    rw [Array.getElem?_pop, if_pos (by omega)]
    exact here
  · intro place frame here
    rw [Array.getElem?_pop] at here
    split at here
    · exact covers.above place frame here
    · cases here

theorem cutFrames
    (covers : disguise.Covers plain other)
    {size : Nat}
    (positive : 0 < size) :
    disguise.Covers { plain with frames := plain.frames.shrink size }
      { other with frames := other.frames.shrink size } := by
  have kept (place : Nat) :
      (plain.frames.shrink size)[place]? =
        if place < size then plain.frames[place]? else none := by
    rw [← Array.getElem?_toList, Array.toList_shrink, List.getElem?_take, Array.getElem?_toList]
  apply covers.withFrames
  · rw [covers.frames]
    apply Array.toList_inj.mp
    simp only [Array.toList_shrink, Array.toList_modify]
    apply List.ext_getElem?
    intro place
    simp only [List.getElem?_take, List.getElem?_modify]
    split
    · rfl
    · split <;> rfl
  · intro outermost here
    refine ⟨outermost.offset, ?_⟩
    rw [kept, if_pos positive]
    exact here
  · intro place frame here
    rw [kept] at here
    split at here
    · exact covers.above place frame here
    · cases here

/-- The outermost frame is left, and the stack is cut back to its slot zero. -/
theorem remains
    (covers : disguise.Covers plain other)
    (single : plain.frames.size = 1) :
    disguise.Remains
      { plain with frames := plain.frames.pop, stack := plain.stack.shrink disguise.slot }
      { other with frames := other.frames.pop, stack := other.stack.shrink disguise.slot } :=
  { covers.toSurrounds with
    stack := by
      rw [covers.stack]
      apply Array.toList_inj.mp
      simp only [Array.toList_shrink, Array.toList_setIfInBounds, List.take_set]
      apply List.set_eq_of_length_le
      exact List.length_take_le _ _
    frames := by
      have none : ∀ frames : Array Frame, frames.size = 1 → frames.pop = #[] := by
        intro frames isSingle
        apply Array.eq_empty_of_size_eq_zero
        rw [Array.size_pop, isSingle]
      rw [none _ single, none _ (covers.size_frames.trans single)] }

theorem moveTo (covers : disguise.Covers plain other) (offset : Nat) :
    disguise.Covers
      { plain with
        frames := plain.frames.modify (plain.frames.size - 1) fun frame => { frame with offset } }
      { other with
        frames :=
          other.frames.modify (other.frames.size - 1) fun frame => { frame with offset } } := by
  apply covers.withFrames
  · rw [covers.size_frames, covers.frames]
    apply Array.ext_getElem?
    intro place
    simp only [Array.getElem?_modify]
    by_cases isLast : plain.frames.size - 1 = place
    · by_cases isFirst : 0 = place
      · rw [if_pos isLast, if_pos isFirst, if_pos isFirst, if_pos isLast, Option.map_map,
          Option.map_map]
        rfl
      · rw [if_pos isLast, if_neg isFirst, if_neg isFirst, if_pos isLast]
    · by_cases isFirst : 0 = place
      · rw [if_neg isLast, if_pos isFirst, if_pos isFirst, if_neg isLast]
      · rw [if_neg isLast, if_neg isFirst, if_neg isFirst, if_neg isLast]
  · intro outermost here
    rw [Array.getElem?_modify, here]
    split
    · exact ⟨offset, rfl⟩
    · exact ⟨outermost.offset, rfl⟩
  · intro place frame here
    rw [Array.getElem?_modify] at here
    split at here
    · rcases Option.map_eq_some_iff.mp here with ⟨former, there, rfl⟩
      exact covers.above place former there
    · exact covers.above place frame here

end Covers

namespace Surrounds

/-- A neutral change of the heap has the same result. -/
theorem neutral
    (surrounds : disguise.Surrounds plain other)
    {step : Heap → α × Heap}
    (neutral : Heap.Neutral step) :
    (step other.heap).1 = (step plain.heap).1 ∧
      (step other.heap).2 = disguise.heap (step plain.heap).2 ∧
      (step plain.heap).2.functions = plain.heap.functions := by
  have functions := neutral.functions plain.heap
  rw [surrounds.heap]
  unfold Disguise.heap
  rw [neutral, functions]
  exact ⟨rfl, rfl, rfl⟩

end Surrounds

namespace Covers

theorem withHeap
    (covers : disguise.Covers plain other)
    {step : Heap → α × Heap}
    (neutral : Heap.Neutral step) :
    disguise.Covers { plain with heap := (step plain.heap).2 }
      { other with heap := (step other.heap).2 } := by
  rcases covers.toSurrounds.neutral neutral with ⟨-, same, functions⟩
  exact { covers with
    heap := same
    original := by
      rw [functions]
      exact covers.original }

theorem withRegistry (covers : disguise.Covers plain other) (registry : Registry) :
    disguise.Covers { plain with registry } { other with registry } :=
  { covers with registry := rfl }

/-- The record of executed instructions does not matter. -/
theorem withJournal
    (covers : disguise.Covers plain other)
    {journal otherJournal : Journal}
    (texts : otherJournal.texts = journal.texts)
    (loads : otherJournal.loads = journal.loads) :
    disguise.Covers { plain with journal } { other with journal := otherJournal } :=
  { covers with
    texts := texts
    loads := loads }

theorem write (covers : disguise.Covers plain other) (text : String) :
    disguise.Covers { plain with journal := plain.journal.write text }
      { other with journal := other.journal.write text } := by
  apply covers.withJournal
  · simp only [Journal.write, covers.texts]
  · exact covers.loads

theorem load (covers : disguise.Covers plain other) (name : String) :
    disguise.Covers
      { plain with journal := { plain.journal with loads := plain.journal.loads.push name } }
      { other with journal := { other.journal with loads := other.journal.loads.push name } } := by
  apply covers.withJournal
  · exact covers.texts
  · simp only [covers.loads]

/-- A text is compiled into the same functions, or refused for the same reason. -/
theorem addSource
    (covers : disguise.Covers plain other)
    (mode : CompileMode)
    (moduleId : Nat)
    (source : String) :
    (other.addSource mode moduleId source).1 = (plain.addSource mode moduleId source).1 ∧
      disguise.Covers (plain.addSource mode moduleId source).2
        (other.addSource mode moduleId source).2 := by
  have size : other.heap.functions.size = plain.heap.functions.size :=
    covers.sameButCode.size
  unfold State.addSource
  simp only [size, covers.registry]
  split
  · exact ⟨rfl, covers.withRegistry _⟩
  · rename_i functions _
    have inside := covers.lt_size
    refine ⟨by simp only [Array.size_append, size], { covers with
      heap := ?_
      registry := rfl
      original := ?_ }⟩
    · simp only [covers.heap, Disguise.heap]
      rw [Array.setIfInBounds_append_left inside]
    · rw [Array.getElem?_append_left inside]
      exact covers.original

theorem addNamedSource
    (covers : disguise.Covers plain other)
    (mode : CompileMode)
    (moduleName source : String) :
    (other.addNamedSource mode moduleName source).1 =
        (plain.addNamedSource mode moduleName source).1 ∧
      disguise.Covers (plain.addNamedSource mode moduleName source).2
        (other.addNamedSource mode moduleName source).2 := by
  unfold State.addNamedSource
  simp only [covers.registry]
  exact (covers.withRegistry _).addSource mode _ source

/-- A request of a host routine has the same answer. -/
theorem perform (covers : disguise.Covers plain other) (request : HostRequest) :
    (request.perform other).1 = (request.perform plain).1 ∧
      disguise.Covers (request.perform plain).2 (request.perform other).2 := by
  have changes :
      ∀ step : Heap → Value × Heap,
        Heap.Neutral step →
          (step other.heap).1 = (step plain.heap).1 ∧
            disguise.Covers { plain with heap := (step plain.heap).2 }
              { other with heap := (step other.heap).2 } :=
    fun _ neutral => ⟨(covers.toSurrounds.neutral neutral).1, covers.withHeap neutral⟩
  cases request with
  | write text => exact ⟨rfl, covers.write text⟩
  | bind receiver method => exact changes (fun heap => heap.bind receiver method) fun _ _ => rfl
  | setField id name value =>
      exact changes (fun heap => (.null, heap.setField id name value)) fun _ _ => rfl
  | setMethod id name method =>
      exact changes (fun heap => (.null, heap.setMethod id name method)) fun _ _ => rfl
  | setData id data => exact changes (fun heap => (.null, heap.setData id data)) fun _ _ => rfl
  | lock id => exact changes (fun heap => (.null, heap.setLocked id true)) fun _ _ => rfl
  | unlock id => exact changes (fun heap => (.null, heap.setLocked id false)) fun _ _ => rfl
  | addNative native =>
      exact changes (fun heap => ((heap.addNative native).map .hostFunction id)) fun _ _ => rfl
  | addClass newClass =>
      exact changes (fun heap => ((heap.addClass newClass).map .classObject id)) fun _ _ => rfl
  | addObject classId =>
      exact changes (fun heap => ((heap.addObject classId).map .object id)) fun _ _ => rfl
  | defineBuiltin name value | defineVariable moduleName name value | ensureModule moduleName =>
      simp only [HostRequest.perform, covers.registry]
      exact ⟨trivial, covers.withRegistry _⟩
  | compile mode moduleName source =>
      rcases covers.addNamedSource mode moduleName source with ⟨same, added⟩
      simp only [HostRequest.perform]
      rcases found : other.addNamedSource mode moduleName source with ⟨error | body, after⟩ <;>
        rcases counterpart : plain.addNamedSource mode moduleName source with
          ⟨unlike | home, final⟩ <;>
        rw [found, counterpart] at same added <;>
        cases same <;>
        exact ⟨rfl, added⟩

end Covers

end Disguise

end ScriptEngine
