import ScriptEngine.Value
import ScriptEngine.Number.Dyadic

/-!
# Arrays of values

The data of an instance of the class `Array` is a list of values.  A value is
accepted as an index if it is a number with an integral value between zero and
the last position; insertion also accepts the position after the last.
-/

namespace ScriptEngine

/-- Why a value is no index of an array. -/
inductive IndexProblem where
  | notANumber
  | notAnInteger
  | outOfBounds
deriving Repr, DecidableEq

/-- The wording of the problem. -/
def IndexProblem.message : IndexProblem → String
  | notANumber => "Array index must be a number."
  | notAnInteger => "Array index must be an integer."
  | outOfBounds => "Array index out of bounds."

namespace Sequence

/-- The position below `bound` that a value denotes. -/
def positionBelow (bound : Nat) (index : Value) : Except IndexProblem Nat :=
  match index with
  | .number number =>
    match Number.integer? number with
    | none => .error .notAnInteger
    | some position =>
      if 0 ≤ position ∧ position < Int.ofNat bound then
        .ok position.toNat
      else
        .error .outOfBounds
  | _ => .error .notANumber

/-- The element at an index. -/
def read (elements : Array Value) (index : Value) : Except IndexProblem Value := do
  let position ← positionBelow elements.size index
  return elements.getD position .null

/-- Replaces the element at an index. -/
def write (elements : Array Value) (index value : Value) :
    Except IndexProblem Unit × Array Value :=
  match positionBelow elements.size index with
  | .ok position => (.ok (), elements.setIfInBounds position value)
  | .error problem => (.error problem, elements)

/-- Adds an element before an index, or at the end. -/
def insert (elements : Array Value) (index value : Value) :
    Except IndexProblem Unit × Array Value :=
  match positionBelow (elements.size + 1) index with
  | .ok position => (.ok (), elements.insertIdxIfInBounds position value)
  | .error problem => (.error problem, elements)

/-- Removes the element at an index and gives it. -/
def removeAt (elements : Array Value) (index : Value) :
    Except IndexProblem Value × Array Value :=
  match positionBelow elements.size index with
  | .ok position =>
    let removed := elements.getD position .null
    (.ok removed, elements.eraseIdxIfInBounds position)
  | .error problem => (.error problem, elements)

/-- Removes the last element and gives it, null if there is none. -/
def pop (elements : Array Value) : Value × Array Value :=
  let removed := elements.back?.getD .null
  (removed, elements.pop)

end Sequence

end ScriptEngine
