import Std.Data.TreeMap
import ScriptEngine.Instruction
import ScriptEngine.Value

/-!
# Chunks of code

A chunk holds the bytes of a function, its constants and a table that says
from which source line each byte came.  The table is run-length encoded: it has
an entry for every byte whose line differs from the line of the byte before.

Numbers and texts are stored once in the pool of constants.  Numbers are told
apart by their 64 bits, so zero and negative zero are different constants, and
so are two patterns of not-a-number, which are one value to scripts.
-/

namespace ScriptEngine

/-- The first byte that came from a line, in a run of bytes from that line. -/
structure LineStart where
  offset : Nat
  line : Nat
deriving Repr, DecidableEq

/-- A limit that a chunk can run into while it is written. -/
inductive ChunkLimit where
  | tooManyConstants
  | jumpTooFar
  | loopTooLarge
deriving Repr, DecidableEq

/-- The wording of a limit. -/
def ChunkLimit.message : ChunkLimit → String
  | tooManyConstants => "Too many constants in one chunk."
  | jumpTooFar => "Too much code to jump over."
  | loopTooLarge => "Loop body too large."

/-- A forward jump whose distance is not known yet. -/
structure PendingJump where
  /-- Offset of the operand of the jump. -/
  operand : Nat
deriving Repr, DecidableEq

/-- A constant: a number by the 64 bits that it is written with, or another value. -/
inductive Constant where
  | number (bits : UInt64)
  | other (value : Value) (noNumber : value.number? = none)
deriving DecidableEq

/-- What a stored constant is found by: the bits of a number or the content of a text. -/
inductive ConstantKey where
  | number (bits : UInt64)
  | string (content : String)
deriving Repr, DecidableEq

namespace Constant

/-- A value as a constant, a number with the bits of its float. -/
def ofValue (value : Value) : Constant :=
  match isNumber : value.number? with
  | some float => .number float.toBits
  | none => .other value isNumber

/-- The value that the code reads. -/
def value : Constant → Value
  | number bits => .number (Float.ofBits bits)
  | other value _ => value

/-- The key of a number or text; other constants are never looked for. -/
def key? : Constant → Option ConstantKey
  | number bits => some (.number bits)
  | other (.string content) _ => some (.string content)
  | other _ _ => none

end Constant

/-- Code, constants and line table of a function. -/
structure Chunk where
  code : Array UInt8 := #[]
  /-- The pool of constants. -/
  entries : Array Constant := #[]
  /-- The line table, latest entry first. -/
  runs : List LineStart := []
  /-- Pool positions of numbers by their bits. -/
  numbers : Std.TreeMap UInt64 Nat := ∅
  /-- Pool positions of texts. -/
  strings : Std.TreeMap String Nat := ∅
deriving Inhabited

namespace Chunk

/-- Largest number of constants. -/
def maxConstants : Nat := 65536

/-- Largest distance of a jump. -/
def maxDistance : Nat := 65535

/-- Appends a byte that came from a line. -/
def write (chunk : Chunk) (byte : UInt8) (line : Nat) : Chunk :=
  let sameLine := chunk.runs.head?.any fun latest => latest.line == line
  let runs :=
    if sameLine then chunk.runs else { offset := chunk.code.size, line } :: chunk.runs
  { chunk with code := chunk.code.push byte, runs }

/-- Appends bytes that came from a line. -/
def writeAll (chunk : Chunk) (bytes : List UInt8) (line : Nat) : Chunk :=
  bytes.foldl (fun written byte => written.write byte line) chunk

/-- Appends an instruction. -/
def emit (chunk : Chunk) (instruction : Instruction) (line : Nat) : Chunk :=
  chunk.writeAll instruction.bytes line

/-- Appends a two-byte operand. -/
def writeWord (chunk : Chunk) (word : UInt16) (line : Nat) : Chunk :=
  chunk.writeAll [highByte word, lowByte word] line

/-- The two-byte operand at an offset. -/
def readWord? (chunk : Chunk) (offset : Nat) : Option UInt16 := do
  let high ← chunk.code[offset]?
  let low ← chunk.code[offset + 1]?
  return joinBytes high low

/-- The source line of the byte at an offset, zero for an empty chunk. -/
def lineAt (chunk : Chunk) (offset : Nat) : Nat :=
  match chunk.runs.find? fun start => start.offset ≤ offset with
  | some start => start.line
  | none => 0

/-- The line table in the order of the code. -/
def lineStarts (chunk : Chunk) : List LineStart :=
  chunk.runs.reverse

/-- The constants as the code reads them. -/
def constants (chunk : Chunk) : Array Value :=
  (chunk.entries.toList.map Constant.value).toArray

/-- The value of the constant at a position. -/
def constant? (chunk : Chunk) (position : Nat) : Option Value :=
  chunk.entries[position]?.map Constant.value

@[simp]
theorem constant?_eq_getElem? (chunk : Chunk) (position : Nat) :
    chunk.constant? position = chunk.constants[position]? := by
  simp [constant?, constants]

@[simp]
theorem size_constants (chunk : Chunk) : chunk.constants.size = chunk.entries.size := by
  simp [constants]

/-- The pool position that is remembered for a key. -/
def position? (chunk : Chunk) : ConstantKey → Option Nat
  | .number bits => chunk.numbers[bits]?
  | .string content => chunk.strings[content]?

/-- Remembers the pool position of a key. -/
def remember (chunk : Chunk) (position : Nat) : ConstantKey → Chunk
  | .number bits => { chunk with numbers := chunk.numbers.insert bits position }
  | .string content => { chunk with strings := chunk.strings.insert content position }

/-- The pool position of a number with the same bits or of the same text. -/
def findConstant? (chunk : Chunk) (constant : Constant) : Option Nat :=
  constant.key?.bind chunk.position?

/-- Appends a constant to the pool and remembers where numbers and texts stand. -/
def pushConstant (chunk : Chunk) (constant : Constant) : Chunk :=
  let position := chunk.entries.size
  let longer := { chunk with entries := chunk.entries.push constant }
  match constant.key? with
  | some key => longer.remember position key
  | none => longer

/-- The pool position of a constant, which is added unless it is already there. -/
def addConstant (chunk : Chunk) (constant : Constant) : Except ChunkLimit Nat × Chunk :=
  match chunk.findConstant? constant with
  | some position => (.ok position, chunk)
  | none =>
    let position := chunk.entries.size
    if position < maxConstants then
      (.ok position, chunk.pushConstant constant)
    else
      (.error .tooManyConstants, chunk)

/-- Appends a forward jump with a placeholder for its distance. -/
def emitJump (chunk : Chunk) (operation : Opcode) (line : Nat) : PendingJump × Chunk :=
  let opened := chunk.write operation.toByte line
  ({ operand := opened.code.size }, opened.writeWord 65535 line)

/-- Lets a pending jump lead to the present end of the code. -/
def patchJump (chunk : Chunk) (pending : PendingJump) : Except ChunkLimit Unit × Chunk :=
  let distance := chunk.code.size - pending.operand - 2
  if distance ≤ maxDistance then
    let word := UInt16.ofNat distance
    let code := chunk.code.setIfInBounds pending.operand (highByte word)
    (.ok (), { chunk with code := code.setIfInBounds (pending.operand + 1) (lowByte word) })
  else
    (.error .jumpTooFar, chunk)

/--
Appends a backward jump to an earlier offset.  The operation code is written
before the distance is checked and stays when the check fails.
-/
def emitLoop (chunk : Chunk) (start line : Nat) : Except ChunkLimit Unit × Chunk :=
  let opened := chunk.write Opcode.loop.toByte line
  let distance := opened.code.size - start + 2
  if distance ≤ maxDistance then
    (.ok (), opened.writeWord (UInt16.ofNat distance) line)
  else
    (.error .loopTooLarge, opened)

end Chunk

/-- A compiled function. -/
structure Function where
  /-- The name, absent for the body of a module. -/
  name : Option String
  /-- Number of parameters. -/
  arity : Nat
  chunk : Chunk
  /-- The module whose variables the code refers to. -/
  home : Nat
deriving Inhabited

namespace Function

/-- The name in traces. -/
def traceName (function : Function) : String :=
  function.name.getD "script"

/-- The name above a listing. -/
def listingName (function : Function) : String :=
  function.name.getD "<script>"

end Function

end ScriptEngine
