import ScriptEngine.Display
import ScriptEngine.Module
import ScriptEngine.Machine.Fault

/-!
# The state of the machine

The machine works on a stack of values and a stack of frames, one for each
function that is active.  Heap and modules are shared by all of them.  The
journal collects what the outside can see of a run: written text, requests for
module sources and, on demand, every instruction executed.

An action changes the state and may be interrupted by a fault.  The state
survives an interruption; it is cut back by the call that the fault ends.
-/

namespace ScriptEngine

/-- Bounds on what a run may use. -/
structure Limits where
  /-- Largest number of values on the stack. -/
  stackCapacity : Nat := 65536
  /-- Largest number of active functions. -/
  maxFrames : Nat := 1024
  /-- Largest number of calls from outside that are active at the same time. -/
  maxNestedCalls : Nat := 64
deriving Repr, DecidableEq

/-- What the embedding program decides about a run. -/
structure Settings where
  limits : Limits := {}
  /-- The source of a module, if modules can be loaded at all. -/
  load : Option (String → Option String) := none
  /-- Whether the journal records every instruction. -/
  trace : Bool := false
  /-- Number of steps after which a run is given up. -/
  patience : Nat := 1000000000000000

/-- An active function. -/
structure Frame where
  function : Function
  /-- Offset of the next byte to be read. -/
  offset : Nat
  /-- Position of slot zero on the stack. -/
  base : Nat
  /-- Whether a constructor runs the function, so that it yields slot zero. -/
  initializer : Bool
deriving Inhabited

namespace Frame

/-- Source line of the instruction being executed. -/
def line (frame : Frame) : Nat :=
  frame.function.chunk.lineAt (frame.offset - 1)

end Frame

/-- What the outside sees of a run. -/
structure Journal where
  /-- Texts written, in order. -/
  texts : Array String := #[]
  /-- Modules whose source was asked for. -/
  loads : Array String := #[]
  /-- Instructions executed, each with the stack before it. -/
  steps : Array String := #[]
deriving Inhabited

/-- The texts written, one after the other. -/
def Journal.output (journal : Journal) : String :=
  journal.texts.foldl (· ++ ·) ""

/-- The journal with one more text. -/
def Journal.write (journal : Journal) (text : String) : Journal :=
  { journal with texts := journal.texts.push text }

/-- Stack, frames, heap and modules. -/
structure State where
  stack : Array Value := #[]
  frames : Array Frame := #[]
  heap : Heap := {}
  registry : Registry := Registry.initial
  journal : Journal := {}
deriving Inhabited

/-- Why an action did not finish. -/
inductive Interruption where
  | fault (fault : Fault)
  /-- The code has no instruction where one is needed. -/
  | stuck
deriving Repr, DecidableEq

/-- A change of the state that may be interrupted. -/
abbrev Action := ExceptT Interruption (StateM State)

namespace Action

/-- Looks at the state. -/
@[inline]
def look (view : State → α) : Action α :=
  fun state => (.ok (view state), state)

/-- Changes the state. -/
@[inline]
def change (step : State → State) : Action Unit :=
  fun state => (.ok (), step state)

/-- Changes the state and gives a result. -/
@[inline]
def update (step : State → α × State) : Action α :=
  fun state =>
    let (result, after) := step state
    (.ok result, after)

/-- Stops with a fault. -/
def raise (fault : Fault) : Action α :=
  fun state => (.error (.fault fault), state)

/-- Stops because there is no instruction. -/
def getStuck : Action α :=
  fun state => (.error .stuck, state)

/-! ## The stack of values -/

/-- Pushes a value, unless the stack is full. -/
def push (limits : Limits) (value : Value) : Action Unit :=
  fun state =>
    if state.stack.size < limits.stackCapacity then
      (.ok (), { state with stack := state.stack.push value })
    else
      (.error (.fault .stackOverflow), state)

/-- Pops a value. -/
def pop : Action Value :=
  fun state =>
    match state.stack.back? with
    | some value => (.ok value, { state with stack := state.stack.pop })
    | none => (.error (.fault .stackUnderflow), state)

/-- The value at a distance below the top. -/
def peek (distance : Nat) : Action Value :=
  fun state =>
    if distance < state.stack.size then
      (.ok (state.stack.getD (state.stack.size - 1 - distance) .null), state)
    else
      (.error (.fault .stackUnderflow), state)

/-- Replaces the value at a position of the stack. -/
def setSlot (slot : Nat) (value : Value) : Action Unit :=
  change fun state => { state with stack := state.stack.setIfInBounds slot value }

/-- Removes all values from a position on. -/
def cutStack (size : Nat) : Action Unit :=
  change fun state => { state with stack := state.stack.shrink size }

/-- The position of the callee below a number of arguments. -/
def calleeSlot (argumentCount : Nat) : Action Nat :=
  look fun state => state.stack.size - argumentCount - 1

/-! ## Frames -/

/-- The innermost frame. -/
def frame : Action Frame :=
  look fun state => state.frames.back?.getD default

/-- Moves the innermost frame to an offset of its code. -/
def moveTo (offset : Nat) : Action Unit :=
  change fun state =>
    { state with
      frames := state.frames.modify (state.frames.size - 1) fun frame => { frame with offset } }

/-- The module of the innermost function. -/
def home : Action Nat :=
  look fun state => (state.frames.back?.getD default).function.home

/-- Activates a function whose callee and arguments are on the stack. -/
def pushFrame (limits : Limits) (function : Function) (argumentCount : Nat)
    (initializer : Bool) : Action Unit := do
  if argumentCount ≠ function.arity then
    raise (.argumentCount function.arity argumentCount)
  if limits.maxFrames ≤ (← look (·.frames.size)) then
    raise .stackOverflow
  let base ← calleeSlot argumentCount
  change fun state =>
    { state with frames := state.frames.push { function, offset := 0, base, initializer } }

/-! ## Operands -/

/-- A constant of the innermost function. -/
def constant (index : Nat) : Action Value := do
  match (← frame).function.chunk.constant? index with
  | some value => return value
  | none => raise .invalidConstant

/-- A constant of the innermost function that must be a name. -/
def name (index : UInt16) : Action String := do
  match ← constant index.toNat with
  | .string content => return content
  | _ => raise .invalidName

/-! ## Heap and journal -/

/-- Changes the heap. -/
@[inline]
def changeHeap (step : Heap → Heap) : Action Unit :=
  change fun state => { state with heap := step state.heap }

/-- Changes the heap and gives a result. -/
@[inline]
def updateHeap (step : Heap → α × Heap) : Action α :=
  update fun state =>
    let (result, heap) := step state.heap
    (result, { state with heap })

/-- Changes the registry of modules. -/
@[inline]
def changeRegistry (step : Registry → Registry) : Action Unit :=
  change fun state => { state with registry := step state.registry }

/-- Writes text. -/
def write (text : String) : Action Unit :=
  change fun state => { state with journal := state.journal.write text }

end Action

end ScriptEngine
