import ScriptEngine.Compilation.Problem

/-!
# Scopes of local variables

The local variables of a function occupy the slots of its frame in the order of
their declaration.  They are kept latest first: the slot of a variable is the
number of variables declared before it.  Slot zero belongs to the callee or the
receiver.
-/

namespace ScriptEngine

/-- A local variable. -/
structure LocalVariable where
  name : String
  /-- Depth of the block that declares it. -/
  depth : Nat
  /-- Whether its initialiser is complete. -/
  initialized : Bool
deriving Repr, DecidableEq

/-- The local variables of a function that is being compiled. -/
structure Scope where
  /-- The variables that are alive, latest first. -/
  locals : List LocalVariable
  /-- Number of blocks around the present place, zero at module level. -/
  depth : Nat
deriving Repr, DecidableEq

namespace Scope

/-- Largest number of local variables, slot zero included. -/
def maxLocals : Nat := 256

/-- A scope with nothing but slot zero under the given name. -/
def reserving (name : String) : Scope :=
  { locals := [{ name, depth := 0, initialized := true }], depth := 0 }

/-- Enters a block. -/
def enter (scope : Scope) : Scope :=
  { scope with depth := scope.depth + 1 }

/-- Leaves a block and says how many variables end with it. -/
def leave (scope : Scope) : Nat × Scope :=
  let ending := scope.locals.takeWhile fun entry => entry.depth == scope.depth
  let remaining := scope.locals.dropWhile fun entry => entry.depth == scope.depth
  (ending.length, { locals := remaining, depth := scope.depth - 1 })

/-- Whether one of the variables declared in blocks of at least the depth has the name. -/
def declaredSince (depth : Nat) (name : String) : List LocalVariable → Bool
  | [] => false
  | latest :: earlier =>
    if latest.depth < depth then false
    else latest.name == name || declaredSince depth name earlier

/-- Declares a variable whose initialiser is still to come. -/
def declare (scope : Scope) (name : String) : Except ScopeProblem Scope :=
  if declaredSince scope.depth name scope.locals then
    .error .alreadyDeclared
  else if scope.locals.length < maxLocals then
    .ok { scope with
      locals := { name, depth := scope.depth, initialized := false } :: scope.locals }
  else
    .error .tooManyLocals

/-- Notes that the initialiser of the latest variable is complete. -/
def markInitialized (scope : Scope) : Scope :=
  match scope.locals with
  | [] => scope
  | latest :: earlier => { scope with locals := { latest with initialized := true } :: earlier }

/-- The slot of the latest variable with a name. -/
def resolveIn (name : String) : List LocalVariable → Except ScopeProblem (Option Nat)
  | [] => .ok none
  | latest :: earlier =>
    if latest.name == name then
      if latest.initialized then .ok (some earlier.length) else .error .readInInitializer
    else
      resolveIn name earlier

/-- The slot of the innermost variable with a name. -/
def resolve (scope : Scope) (name : String) : Except ScopeProblem (Option Nat) :=
  resolveIn name scope.locals

/-- Whether a variable with a name is alive. -/
def contains (scope : Scope) (name : String) : Bool :=
  scope.locals.any fun entry => entry.name == name

end Scope

end ScriptEngine
