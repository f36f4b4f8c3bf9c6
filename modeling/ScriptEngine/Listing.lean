import ScriptEngine.Display

/-!
# Listings

A listing shows the instructions of a chunk one per line: offset, source line,
mnemonic and operands.  It reads the code by itself, with widths and offsets of
its own, and stops reading where operands would run past the end of the code.
A function is listed together with the functions among its constants; these
have smaller positions in the heap, since a function is added to the heap after
the functions it contains.
-/

namespace ScriptEngine.Listing

open Text (decimal padRight rightAligned zeroPadded)

/-- Number of operand bytes that a listing steps over. -/
def operandWidth : Opcode → Nat
  | .constant | .getLocal | .setLocal | .call => 1
  | .constantLong | .getModule | .setModule | .defineModule | .jump | .jumpIfFalse | .loop
  | .makeClass | .method | .staticMethod | .getProperty | .setProperty | .importModule => 2
  | .invoke => 3
  | _ => 0

/-- A mnemonic in a column of sixteen characters, followed by a blank. -/
def column (operation : Opcode) : String :=
  padRight 16 operation.mnemonic ++ " "

/-- The text of a constant. -/
def constantText (heap : Heap) (chunk : Chunk) (index : Nat) : String :=
  match chunk.constant? index with
  | some value => heap.display value
  | none => "<bad constant>"

/-- A constant operand with its text. -/
def constantOperand (heap : Heap) (chunk : Chunk) (index : Nat) : String :=
  rightAligned 4 index ++ " '" ++ constantText heap chunk index ++ "'"

/-- A module variable with its name. -/
def variableOperand (names : Array String) (slot : Nat) : String :=
  rightAligned 4 slot ++ " '" ++ names.getD slot "?" ++ "'"

/-- The offset of a jump and the offset it leads to. -/
def jumpOperand (offset target : Nat) : String :=
  rightAligned 4 offset ++ " -> " ++ decimal target

/--
Mnemonic and operands of the operation at an offset, which are missing where
the code ends before the operands do.
-/
def operationText?
    (heap : Heap)
    (chunk : Chunk)
    (names : Array String)
    (offset : Nat)
    (operation : Opcode) :
    Option String :=
  match operation with
  | .constant => do
    let index ← chunk.code[offset + 1]?
    return column operation ++ constantOperand heap chunk index.toNat
  | .constantLong | .makeClass | .method | .staticMethod | .getProperty | .setProperty
  | .importModule => do
    let index ← chunk.readWord? (offset + 1)
    return column operation ++ constantOperand heap chunk index.toNat
  | .getLocal | .setLocal | .call => do
    let operand ← chunk.code[offset + 1]?
    return column operation ++ rightAligned 4 operand.toNat
  | .getModule | .setModule | .defineModule => do
    let slot ← chunk.readWord? (offset + 1)
    return column operation ++ variableOperand names slot.toNat
  | .jump | .jumpIfFalse => do
    let distance ← chunk.readWord? (offset + 1)
    return column operation ++ jumpOperand offset (offset + 3 + distance.toNat)
  | .loop => do
    let distance ← chunk.readWord? (offset + 1)
    return column operation ++ jumpOperand offset (offset + 3 - distance.toNat)
  | .invoke => do
    let index ← chunk.readWord? (offset + 1)
    let argumentCount ← chunk.code[offset + 3]?
    return column operation ++ "(" ++ decimal argumentCount.toNat ++ " args) "
      ++ constantOperand heap chunk index.toNat
  | bare => return bare.mnemonic

/-- The offset and the source line, which is left out when it is that of the byte before. -/
def margin (chunk : Chunk) (offset : Nat) : String :=
  let line := chunk.lineAt offset
  let place :=
    if 0 < offset ∧ line = chunk.lineAt (offset - 1) then "   | "
    else rightAligned 4 line ++ " "
  zeroPadded 4 offset ++ " " ++ place

/-- Whether the operands of the operation at an offset run past the end of the code. -/
def isTruncated (code : Array UInt8) (offset : Nat) (operation : Opcode) : Bool :=
  code.size ≤ offset + operandWidth operation ∧ 0 < operandWidth operation

/--
The line for what stands at an offset, and the offset of the next line.  There
is none where it takes a byte that is not in the code.
-/
def line? (heap : Heap) (chunk : Chunk) (names : Array String) (offset : Nat) :
    Option (String × Nat) := do
  let byte ← chunk.code[offset]?
  match Opcode.ofByte? byte with
  | none => some (margin chunk offset ++ "Unknown opcode " ++ decimal byte.toNat, offset + 1)
  | some operation =>
    if isTruncated chunk.code offset operation then
      some (margin chunk offset ++ operation.mnemonic ++ " <truncated>", chunk.code.size)
    else
      (operationText? heap chunk names offset operation).map fun text =>
        (margin chunk offset ++ text, offset + 1 + operandWidth operation)

/-- The line for an offset, which is bare behind the end of the code. -/
def line (heap : Heap) (chunk : Chunk) (names : Array String) (offset : Nat) : String × Nat :=
  (line? heap chunk names offset).getD (margin chunk offset, offset + 1)

theorem lt_line
    (heap : Heap)
    (chunk : Chunk)
    (names : Array String)
    {offset : Nat}
    (inside : offset < chunk.code.size) :
    offset < (line heap chunk names offset).2 := by
  unfold line line?
  rcases chunk.code[offset]? with _ | byte
  · exact Nat.lt_succ_self offset
  simp only [Option.bind_eq_bind, Option.bind_some]
  split
  · exact Nat.lt_succ_self offset
  · rename_i operation _
    split
    · exact inside
    · rcases operationText? heap chunk names offset operation with _ | text
      · exact Nat.lt_succ_self offset
      · exact Nat.lt_of_lt_of_le (Nat.lt_succ_self offset) (Nat.le_add_right _ _)

/-- The lines from an offset to the end of the code. -/
def linesFrom
    (heap : Heap)
    (chunk : Chunk)
    (names : Array String)
    (offset : Nat)
    (text : String) :
    String :=
  if inside : offset < chunk.code.size then
    have := lt_line heap chunk names inside
    linesFrom heap chunk names (line heap chunk names offset).2
      (text ++ (line heap chunk names offset).1 ++ "\n")
  else
    text
termination_by chunk.code.size - offset

/-- All instructions of a chunk under its name. -/
def ofChunk (heap : Heap) (chunk : Chunk) (name : String) (names : Array String) : String :=
  linesFrom heap chunk names 0 ("== " ++ name ++ " ==\n")

/-- The functions among the constants that were added to the heap before `bound`. -/
def nestedBelow (bound : Nat) (function : Function) : List { id : Nat // id < bound } :=
  function.chunk.constants.toList.filterMap fun
    | .function id => if below : id < bound then some ⟨id, below⟩ else none
    | _ => none

/-- The function at a position and the functions inside it, outermost first. -/
def functionsIn (heap : Heap) (id : Nat) : List Function :=
  let function := heap.function id
  function :: (nestedBelow id function).flatMap fun nested => functionsIn heap nested.1
termination_by id
decreasing_by exact nested.2

/-- A function and, below it, the functions inside it. -/
def ofFunction (heap : Heap) (id : Nat) (names : Array String) : String :=
  String.intercalate "\n" ((functionsIn heap id).map fun function =>
    ofChunk heap function.chunk function.listingName names)

end ScriptEngine.Listing
