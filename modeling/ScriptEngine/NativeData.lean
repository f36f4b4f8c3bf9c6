import ScriptEngine.Collection.Sequence
import ScriptEngine.Collection.Dictionary
import ScriptEngine.Number.Shortest

/-!
# Native data of instances

An instance of a class that the embedding program supplies can carry data that
scripts reach only through methods and subscripts.  Arrays and maps are such
data; so are the accounts, sealed boxes and grids of the sample classes.
-/

namespace ScriptEngine

/-- Data carried by an instance. -/
inductive NativeData where
  /-- The elements of an array. -/
  | sequence (elements : Array Value)
  /-- The entries of a map. -/
  | dictionary (entries : Dictionary)
  /-- An account with a balance. -/
  | account (balance : Float)
  /-- A box that shows nothing of its content. -/
  | sealedBox
  /-- A grid that remembers the number written last. -/
  | grid (last : Float)
deriving Inhabited

namespace NativeData

/-- The text of the data, if it has one of its own. -/
def text? (display : Value → String) : NativeData → Option String
  | sequence elements => some ("[" ++ String.intercalate ", " (elements.toList.map display) ++ "]")
  | dictionary entries =>
    let shown := entries.entries.map fun (key, value) => display key ++ ": " ++ display value
    some ("\x7b" ++ String.intercalate ", " shown ++ "\x7d")
  | account balance => some ("Account(" ++ Number.display balance ++ ")")
  | sealedBox => none
  | grid _ => none

/-- Whether the data can be subscripted. -/
def isIndexable : NativeData → Bool
  | sequence _ | dictionary _ | grid _ => true
  | account _ | sealedBox => false

/-- The refusal of a subscript of a grid that is not a number. -/
def gridIndexMessage : String := "Grid wants a number."

/-- The element at a subscript, or why there is none. -/
def readIndex (data : NativeData) (index : Value) : Except String Value :=
  match data with
  | sequence elements => (Sequence.read elements index).mapError IndexProblem.message
  | dictionary entries => .ok (entries.get index)
  | grid last =>
    match index with
    | .number number => .ok (.number (number + last))
    | _ => .error gridIndexMessage
  | account _ | sealedBox => .ok .null

/-- Replaces the element at a subscript, or says why there can be none. -/
def writeIndex (data : NativeData) (index value : Value) : Except String Unit × NativeData :=
  match data with
  | sequence elements =>
    let (result, changed) := Sequence.write elements index value
    (result.mapError IndexProblem.message, sequence changed)
  | dictionary entries =>
    let (result, changed) := entries.write index value
    (result, dictionary changed)
  | grid last =>
    match index, value with
    | .number _, .number number => (.ok (), grid number)
    | .number _, _ => (.error "Grid stores numbers.", grid last)
    | _, _ => (.error gridIndexMessage, grid last)
  | account balance => (.ok (), account balance)
  | sealedBox => (.ok (), sealedBox)

end NativeData

end ScriptEngine
