/-!
# Values

The values that scripts compute with.  Plain data is stored in the value;
everything with an identity is a reference into the heap.  A bound method
carries its two parts and an identity of its own, so that two methods read
from the same receiver are still different values.

`Value.equals` is the equality of the language.  It is not reflexive, because
not-a-number differs from itself.
-/

namespace ScriptEngine

/-- A value of the language. -/
inductive Value where
  /-- A module variable that was declared but never assigned. -/
  | undefined
  | null
  | bool (value : Bool)
  | number (value : Float)
  | string (content : String)
  /-- A compiled function. -/
  | function (id : Nat)
  /-- A function of the embedding program. -/
  | hostFunction (id : Nat)
  /-- A method of the embedding program, which expects a receiver. -/
  | hostMethod (id : Nat)
  | classObject (id : Nat)
  /-- A loaded module. -/
  | moduleHandle (id : Nat) (name : String)
  /-- An instance of a class. -/
  | object (id : Nat)
  /-- A method together with the receiver it was read from. -/
  | boundMethod (id : Nat) (receiver method : Value)
deriving Inhabited, DecidableEq

namespace Value

/-- Whether a condition with this value fails. -/
def isFalsey : Value → Bool
  | null => true
  | bool value => !value
  | _ => false

/-- Whether the value marks an unassigned module variable. -/
def isUndefined : Value → Bool
  | undefined => true
  | _ => false

/-- The number, if the value is one. -/
def number? : Value → Option Float
  | number value => some value
  | _ => none

/-- The text, if the value is a string. -/
def string? : Value → Option String
  | string content => some content
  | _ => none

/-- The heap reference, if the value is an instance. -/
def object? : Value → Option Nat
  | object id => some id
  | _ => none

/-- The kind of the value in one word. -/
def typeName : Value → String
  | undefined => "undefined"
  | null => "null"
  | bool _ => "bool"
  | number _ => "number"
  | string _ => "string"
  | function _ | hostFunction _ | hostMethod _ | boundMethod _ _ _ => "function"
  | classObject _ => "class"
  | moduleHandle _ _ => "module"
  | object _ => "instance"

/-- Equality as scripts see it: numbers by value, texts by content, the rest by identity. -/
def equals : Value → Value → Bool
  | undefined, undefined => true
  | null, null => true
  | bool left, bool right => left == right
  | number left, number right => left == right
  | string left, string right => left == right
  | function left, function right => left == right
  | hostFunction left, hostFunction right => left == right
  | hostMethod left, hostMethod right => left == right
  | classObject left, classObject right => left == right
  | moduleHandle left _, moduleHandle right _ => left == right
  | object left, object right => left == right
  | boundMethod left _ _, boundMethod right _ _ => left == right
  | _, _ => false

/-- The method that a chain of bound methods ends in. -/
def unbound : Value → Value
  | boundMethod _ _ method => method.unbound
  | other => other

/-- Null in place of the mark of an unassigned variable. -/
def undefinedToNull : Value → Value
  | undefined => null
  | other => other

end Value

end ScriptEngine
