import ScriptEngine.Machine.State

/-!
# Methods of arrays and maps

The methods of the classes `Array` and `Map` work directly on the native data
of their receiver.  A receiver that carries other data, or whose data is
locked, is refused.
-/

namespace ScriptEngine

/-- A count as a number of the language. -/
def countValue (count : Nat) : Value :=
  .number (UInt64.ofNat count).toFloat

namespace SequenceMethod

/-- The name of a method. -/
def name : SequenceMethod → String
  | push => "push"
  | pop => "pop"
  | len => "len"
  | insert => "insert"
  | removeAt => "removeAt"
  | clear => "clear"

/-- Number of arguments of a method. -/
def arity : SequenceMethod → Nat
  | push | removeAt => 1
  | insert => 2
  | pop | len | clear => 0

/-- All methods of arrays. -/
def all : List SequenceMethod :=
  [push, pop, len, insert, removeAt, clear]

/-- Applies a method to the elements of an array. -/
def apply (method : SequenceMethod) (receiver first second : Value) (elements : Array Value) :
    Except String Value × Array Value :=
  match method with
  | push => (.ok receiver, elements.push first)
  | pop =>
    let (removed, remaining) := Sequence.pop elements
    (.ok removed, remaining)
  | len =>
    let size := elements.size
    (.ok (countValue size), elements)
  | insert =>
    let (result, changed) := Sequence.insert elements first second
    ((result.mapError IndexProblem.message).map fun _ => .null, changed)
  | removeAt =>
    let (result, changed) := Sequence.removeAt elements first
    (result.mapError IndexProblem.message, changed)
  | clear => (.ok .null, #[])

end SequenceMethod

namespace DictionaryMethod

/-- The name of a method. -/
def name : DictionaryMethod → String
  | get => "get"
  | has => "has"
  | remove => "remove"
  | len => "len"
  | clear => "clear"

/-- Number of arguments of a method. -/
def arity : DictionaryMethod → Nat
  | get | has | remove => 1
  | len | clear => 0

/-- All methods of maps. -/
def all : List DictionaryMethod :=
  [get, has, remove, len, clear]

/-- Applies a method to the entries of a map. -/
def apply (method : DictionaryMethod) (key : Value) (entries : Dictionary) : Value × Dictionary :=
  match method with
  | get => (entries.get key, entries)
  | has => (.bool (entries.has key), entries)
  | remove => (entries.get key, entries.erase key)
  | len => (countValue entries.size, entries)
  | clear => (.null, {})

end DictionaryMethod

namespace Container

/-- The refusal of a receiver that is no array. -/
def sequenceMessage : String := "Expected an Array receiver."

/-- The refusal of a receiver that is no map. -/
def dictionaryMessage : String := "Expected a Map receiver."

/-- Runs a method of arrays on a receiver. -/
def runSequence (method : SequenceMethod) (receiver : Value) (arguments : List Value)
    (heap : Heap) : Except String Value × Heap :=
  match receiver with
  | .object id =>
    heap.updateData id (.error sequenceMessage) fun
      | .sequence elements =>
        let (result, changed) :=
          method.apply receiver (arguments.headD .null) (arguments.tail.headD .null) elements
        (result, .sequence changed)
      | other => (.error sequenceMessage, other)
  | _ => (.error sequenceMessage, heap)

/-- Runs a method of maps on a receiver. -/
def runDictionary (method : DictionaryMethod) (receiver : Value) (arguments : List Value)
    (heap : Heap) : Except String Value × Heap :=
  match receiver with
  | .object id =>
    heap.updateData id (.error dictionaryMessage) fun
      | .dictionary entries =>
        let (result, changed) := method.apply (arguments.headD .null) entries
        (.ok result, .dictionary changed)
      | other => (.error dictionaryMessage, other)
  | _ => (.error dictionaryMessage, heap)

end Container

end ScriptEngine
