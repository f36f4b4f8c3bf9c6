import ScriptEngine.Listing
import ScriptEngine.Number.Dyadic
import ScriptEngine.Machine.Dispatch

/-!
# Executing one instruction

`Action.step` reads the instruction at the place of the innermost frame, moves
the frame past it and carries it out.  The frame is moved before anything can
go wrong, so a fault is attributed to the line of the instruction.
-/

namespace ScriptEngine.Action

variable (environment : Environment)

/-- Pops two numbers and pushes what an operation makes of them. -/
def binaryNumeric (operation : Float → Float → Value) : Action Unit := do
  let right ← pop
  let left ← pop
  match left, right with
  | .number left, .number right => push environment.settings.limits (operation left right)
  | _, _ => raise .operandsNotNumbers

/-- The sum of two numbers, or the concatenation of two texts or of a text and a number. -/
def sum? (left right : Value) : Option Value :=
  match left, right with
  | .number left, .number right => some (.number (left + right))
  | .string left, .string right => some (.string (left ++ right))
  | .string left, .number right => some (.string (left ++ Number.display right))
  | .number left, .string right => some (.string (Number.display left ++ right))
  | _, _ => none

/-- Pops two operands and pushes their sum. -/
def add : Action Unit := do
  let right ← pop
  let left ← pop
  match sum? left right with
  | some value => push environment.settings.limits value
  | none => raise .operandsNotNumbers

/-- Pushes a local variable. -/
def getLocal (slot : Nat) : Action Unit := do
  let base := (← frame).base
  match ← look fun state => state.stack[base + slot]? with
  | some value => push environment.settings.limits value
  | none => raise .invalidLocal

/-- Assigns the value on top of the stack to a local variable. -/
def setLocal (slot : Nat) : Action Unit := do
  let base := (← frame).base
  let value ← peek 0
  if base + slot < (← look (·.stack.size)) then
    setSlot (base + slot) value
  else
    raise .invalidLocal

/-- Stops because a variable of the present module is not assigned. -/
def raiseUndefined (slot : Nat) : Action α := do
  let home ← home
  let name? ← look fun state => (state.registry.moduleAt home).variableName? slot
  raise (.undefinedVariable (name?.getD "?"))

/-- The content of a variable of the present module. -/
def moduleSlot (slot : Nat) : Action Value := do
  let home ← home
  match ← look fun state => (state.registry.moduleAt home).assigned? slot with
  | some value => return value
  | none => raiseUndefined slot

/-- Changes the content of a variable of the present module. -/
def setModuleSlot (slot : Nat) (value : Value) : Action Unit := do
  let home ← home
  changeRegistry fun registry => registry.modify home fun table => table.set slot value

/-- Moves the innermost frame forward. -/
def skip (distance : Nat) : Action Unit := do
  moveTo ((← frame).offset + distance)

/-- Moves the innermost frame backward. -/
def skipBack (distance : Nat) : Action Unit := do
  let offset := (← frame).offset
  if distance ≤ offset then moveTo (offset - distance) else getStuck

/--
Returns from the innermost function.  The value of an initialiser is the
instance in slot zero.  `entryDepth` is the number of frames below those of the
present call from outside, which ends with its last frame.
-/
def leave (entryDepth : Nat) : Action Transition := do
  let result ← pop
  let finished ← frame
  change fun state => { state with frames := state.frames.pop }
  let value ←
    if finished.initializer then
      look fun state => state.stack.getD finished.base result
    else
      pure result
  cutStack finished.base
  if (← look (·.frames.size)) ≤ entryDepth then
    return .finished value
  else
    push environment.settings.limits value
    return .proceed

/-- Attaches a method to the class on top of the stack. -/
def attach (store : Heap → Nat → String → Value → Heap) (name : String) : Action Unit := do
  let method ← pop
  match ← peek 0 with
  | .classObject id => changeHeap fun heap => store heap id name method
  | _ => raise .methodWithoutClass

/-- Assigns a field. -/
def setProperty (name : String) : Action Unit := do
  let value ← pop
  match ← pop with
  | .object id =>
    changeHeap fun heap => heap.setField id name value
    push environment.settings.limits value
  | _ => raise .noFields

/-- Carries out an action after which the innermost function goes on. -/
@[inline]
def andProceed (action : Action Unit) : Action Transition := do
  action
  return .proceed

/-- Carries out an instruction; the innermost frame stands behind it already. -/
def execute (entryDepth : Nat) (instruction : Instruction) : Action Transition := do
  let limits := environment.settings.limits
  match instruction with
  | .constant index => andProceed do push limits (← constant index.toNat)
  | .constantLong index => andProceed do push limits (← constant index.toNat)
  | .pushNull => andProceed (push limits .null)
  | .pushTrue => andProceed (push limits (.bool true))
  | .pushFalse => andProceed (push limits (.bool false))
  | .pop => andProceed do let _ ← pop
  | .getLocal slot => andProceed (getLocal environment slot.toNat)
  | .setLocal slot => andProceed (setLocal slot.toNat)
  | .getModule slot => andProceed do push limits (← moduleSlot slot.toNat)
  | .setModule slot =>
    andProceed do
      let _ ← moduleSlot slot.toNat
      setModuleSlot slot.toNat (← peek 0)
  | .defineModule slot => andProceed do setModuleSlot slot.toNat (← pop)
  | .equal =>
    andProceed do
      let right ← pop
      let left ← pop
      push limits (.bool (left.equals right))
  | .greater => andProceed (binaryNumeric environment fun left right => .bool (left > right))
  | .less => andProceed (binaryNumeric environment fun left right => .bool (left < right))
  | .add => andProceed (add environment)
  | .subtract => andProceed (binaryNumeric environment fun left right => .number (left - right))
  | .multiply => andProceed (binaryNumeric environment fun left right => .number (left * right))
  | .divide => andProceed (binaryNumeric environment fun left right => .number (left / right))
  | .modulo =>
    andProceed (binaryNumeric environment fun left right =>
      .number (Number.remainder left right))
  | .negateTruth => andProceed do push limits (.bool (← pop).isFalsey)
  | .negate =>
    andProceed do
      match ← pop with
      | .number number => push limits (.number (-number))
      | _ => raise .operandNotNumber
  | .print =>
    andProceed do
      let value ← pop
      write ((← look fun state => state.heap.display value) ++ "\n")
  | .jump distance => andProceed (skip distance.toNat)
  | .jumpIfFalse distance =>
    andProceed do
      if (← peek 0).isFalsey then
        skip distance.toNat
  | .loop distance => andProceed (skipBack distance.toNat)
  | .call argumentCount => do
    callValue environment (← peek argumentCount.toNat) argumentCount.toNat
  | .invoke index argumentCount => do
    invoke environment (← name index) argumentCount.toNat
  | .leave => leave environment entryDepth
  | .makeClass index =>
    andProceed do
      let name ← name index
      let id ← updateHeap fun heap => heap.addClass { name }
      push limits (.classObject id)
  | .method index => andProceed do attach Heap.setMethod (← name index)
  | .staticMethod index => andProceed do attach Heap.setStatic (← name index)
  | .getProperty index =>
    andProceed do
      let name ← name index
      let receiver ← pop
      push limits (← property receiver name)
  | .setProperty index => andProceed do setProperty environment (← name index)
  | .getIndex =>
    andProceed do
      let index ← pop
      let receiver ← pop
      push limits (← getIndex receiver index)
  | .setIndex =>
    andProceed do
      let value ← pop
      let index ← pop
      let receiver ← pop
      setIndex receiver index value
      push limits value
  | .importModule index => do importModule environment (← name index)

/-- Records the stack and the next instruction in the journal. -/
def recordStep : Action Unit :=
  change fun state =>
    let frame := state.frames.back?.getD default
    let names := (state.registry.moduleAt frame.function.home).names
    let line := (Listing.line state.heap frame.function.chunk names frame.offset).1
    let entry := state.heap.displayStack state.stack ++ "\n" ++ line
    { state with journal := { state.journal with steps := state.journal.steps.push entry } }

/--
Moves the innermost frame past an instruction.  The name of a method is read
and checked before the number of its arguments.
-/
def fetch (offset : Nat) (instruction : Instruction) : Action Unit := do
  match instruction with
  | .invoke index _ =>
    moveTo (offset + 3)
    let _ ← name index
    moveTo (offset + 4)
  | _ => moveTo (offset + instruction.length)

/--
Stops at an operation whose operands run past the end of the code.  If only the
number of arguments is missing, the name of the method has been checked before.
-/
def fetchTruncated (frame : Frame) (operation : Opcode) : Action α := do
  match operation, frame.function.chunk.readWord? (frame.offset + 1) with
  | .invoke, some index =>
    moveTo (frame.offset + 3)
    let _ ← name index
    getStuck
  | _, _ => getStuck

/-- Reads and carries out the next instruction of the innermost function. -/
def step (entryDepth : Nat) : Action Transition := do
  if environment.settings.trace then
    recordStep
  let frame ← frame
  match Instruction.decode frame.function.chunk.code frame.offset with
  | .complete instruction =>
    fetch frame.offset instruction
    execute environment entryDepth instruction
  | .unknown byte =>
    moveTo (frame.offset + 1)
    raise (.unknownOpcode byte)
  | .truncated operation => fetchTruncated frame operation
  | .outside => getStuck

end ScriptEngine.Action
