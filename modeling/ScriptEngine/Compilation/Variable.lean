import ScriptEngine.Compilation.Draft

/-!
# Declaring and resolving names

At the level of a module a declared name is a variable of the module; inside a
block or a function it is a local variable.  A name that is used means the
innermost local variable of the present function.  A local variable of a
surrounding function cannot be used.  Any other name is a variable of the
module, which is declared on its first use, so a function can refer to
variables that are defined after it.

Array literals build arrays through slot zero of the module, so that slot
cannot be assigned while it is called `Array`.
-/

namespace ScriptEngine.Compiler

/-- The slot that holds the class `Array` in every module. -/
def arraySlot : Nat := 0

/-- Where a declared name will live. -/
inductive Binding where
  | moduleSlot (slot : Nat)
  | newLocal

/-- Where a used name lives. -/
inductive Reference where
  | moduleSlot (slot : Nat)
  | localSlot (slot : Nat)

/-- Whether a declaration here makes a variable of the module. -/
def atModuleLevel : Compiler Bool :=
  look fun state => state.draft.role = .script && state.draft.scope.depth = 0

/-- The slot of a variable of the module, which is declared if it is new. -/
def moduleSlot (name : String) : Compiler Nat := do
  let slot? ← (fun state =>
    let (slot?, table) := state.table.declare name
    (.ok slot?, { state with table }) : Compiler (Option Nat))
  match slot? with
  | some slot => return slot
  | none => fail .tooManyModuleVariables

/-- Refuses to assign the class `Array`. -/
def checkWritable (slot : Nat) : Compiler Unit := do
  let name? ← look (·.table.variableName? slot)
  if slot = arraySlot ∧ name? = some "Array" then
    fail .arrayRedefined

/-- Declares a local variable of the present function. -/
def declareLocal (name : String) : Compiler Unit := do
  match ← look (·.draft.scope.declare name) with
  | .ok scope => changeScope fun _ => scope
  | .error problem => fail (.scope problem)

/-- Declares a name; its value is pushed next. -/
def declareVariable (name : String) : Compiler Binding := do
  if ← atModuleLevel then
    let slot ← moduleSlot name
    checkWritable slot
    return .moduleSlot slot
  else
    declareLocal name
    return .newLocal

/-- Gives a declared name the value on top of the stack. -/
def defineVariable : Binding → Compiler Unit
  | .moduleSlot slot => emit (.defineModule (UInt16.ofNat slot))
  | .newLocal => changeScope Scope.markInitialized

/-- Finds out what a name means here. -/
def resolve (name : String) : Compiler Reference := do
  match ← look (·.draft.scope.resolve name) with
  | .error problem => fail (.scope problem)
  | .ok (some slot) => return .localSlot slot
  | .ok none =>
    if ← look (·.enclosing.any fun draft => draft.scope.contains name) then
      fail (.capture name)
    else
      return .moduleSlot (← moduleSlot name)

/-- The instruction that reads a variable. -/
def Reference.read : Reference → Instruction
  | .moduleSlot slot => .getModule (UInt16.ofNat slot)
  | .localSlot slot => .getLocal (UInt8.ofNat slot)

/-- The instruction that assigns a variable. -/
def Reference.write : Reference → Instruction
  | .moduleSlot slot => .setModule (UInt16.ofNat slot)
  | .localSlot slot => .setLocal (UInt8.ofNat slot)

/-- Refuses to assign the class `Array` through a name. -/
def Reference.checkWritable : Reference → Compiler Unit
  | .moduleSlot slot => Compiler.checkWritable slot
  | .localSlot _ => return ()

end ScriptEngine.Compiler
