import ScriptEngine.Heap

/-!
# Functions written by hand

An assembly lists the bytes of a function, with operation codes by name and
marks for source lines, together with its constants.  Unlike compiled code it
need not be well formed.  Functions among the constants are added to the heap
before the function that contains them.
-/

namespace ScriptEngine

/-- An item of hand-written code. -/
inductive AssemblyItem where
  | byte (value : UInt8)
  | operation (opcode : Opcode)
  /-- The source line of the items that follow. -/
  | line (number : Nat)
deriving Repr, DecidableEq

/-- Appends hand-written code to a chunk; `line` is the source line of the next byte. -/
def Chunk.writeItems (chunk : Chunk) (line : Nat) : List AssemblyItem → Chunk
  | [] => chunk
  | .byte value :: rest => (chunk.write value line).writeItems line rest
  | .operation opcode :: rest => (chunk.write opcode.toByte line).writeItems line rest
  | .line number :: rest => chunk.writeItems number rest

/-- A function written by hand, with constants that can be functions in turn. -/
inductive Assembly where
  | function (name : Option String) (arity : Nat) (code : List AssemblyItem)
      (constants : List (Value ⊕ Assembly))

namespace Assembly

mutual

/-- Adds a function of a module to the heap and gives its position. -/
def assemble (home : Nat) : Assembly → Heap → Nat × Heap
  | function name arity code constants, heap =>
    let (chunk, heap) := addConstants home constants (({} : Chunk).writeItems 1 code) heap
    heap.addFunction { name, arity, chunk, home }

/-- Appends constants to a chunk in order; equal constants are kept apart. -/
def addConstants (home : Nat) : List (Value ⊕ Assembly) → Chunk → Heap → Chunk × Heap
  | [], chunk, heap => (chunk, heap)
  | constant :: rest, chunk, heap =>
    let (value, heap) := constantValue home constant heap
    addConstants home rest (chunk.pushConstant (.ofValue value)) heap

/-- The value of a constant. -/
def constantValue (home : Nat) : Value ⊕ Assembly → Heap → Value × Heap
  | .inl value, heap => (value, heap)
  | .inr nested, heap =>
    let (id, heap) := assemble home nested heap
    (.function id, heap)

end

end Assembly

end ScriptEngine
