import Std.Data.TreeMap
import ScriptEngine.Chunk
import ScriptEngine.NativeData

/-!
# The heap

Functions, classes, instances and callables of the embedding program live in
arenas and are referred to by their position.  Nothing is ever removed, so a
reference stays valid; reading a position that was never allocated gives an
empty object.
-/

namespace ScriptEngine

/-- Values by name. -/
abbrev Table := Std.TreeMap String Value

/-- How many arguments a callable of the embedding program accepts. -/
inductive Arity where
  | exactly (count : Nat)
  | any
deriving Repr, DecidableEq

/-- Whether a number of arguments is accepted. -/
def Arity.accepts : Arity → Nat → Bool
  | exactly expected, count => expected == count
  | any, _ => true

/-- Methods of the class `Array`. -/
inductive SequenceMethod where
  | push
  | pop
  | len
  | insert
  | removeAt
  | clear
deriving Repr, DecidableEq

/-- Methods of the class `Map`. -/
inductive DictionaryMethod where
  | get
  | has
  | remove
  | len
  | clear
deriving Repr, DecidableEq

/-- What a callable of the embedding program does. -/
inductive Routine where
  | sequence (method : SequenceMethod)
  | dictionary (method : DictionaryMethod)
  /-- A routine that the host knows under a key. -/
  | host (key : String)
deriving Repr, DecidableEq

/-- A callable of the embedding program. -/
structure Native where
  name : String
  arity : Arity
  routine : Routine

instance : Inhabited Native where
  default := { name := "", arity := .any, routine := .host "" }

/-- A class: a name and two tables of methods. -/
structure Class where
  name : String
  /-- Methods of the instances. -/
  methods : Table := ∅
  /-- Methods of the class itself. -/
  statics : Table := ∅
  /-- The native data of a new instance. -/
  template : Option NativeData := none
deriving Inhabited

/-- An instance of a class. -/
structure Object where
  /-- The class in the heap. -/
  classId : Nat
  /-- Fields, which come into being when they are first assigned. -/
  fields : Table := ∅
  data : Option NativeData := none
  /-- Whether the native data is in the hands of a host routine. -/
  locked : Bool := false
deriving Inhabited

/-- Everything that values refer to. -/
structure Heap where
  functions : Array Function := #[]
  natives : Array Native := #[]
  classes : Array Class := #[]
  objects : Array Object := #[]
  /-- Number of bound methods made so far. -/
  boundMethods : Nat := 0
deriving Inhabited

namespace Heap

/-- The function at a position. -/
def function (heap : Heap) (id : Nat) : Function :=
  heap.functions.getD id default

/-- The native callable at a position. -/
def native (heap : Heap) (id : Nat) : Native :=
  heap.natives.getD id default

/-- The class at a position. -/
def classAt (heap : Heap) (id : Nat) : Class :=
  heap.classes.getD id default

/-- The instance at a position. -/
def objectAt (heap : Heap) (id : Nat) : Object :=
  heap.objects.getD id default

/-- Adds a function. -/
def addFunction (heap : Heap) (function : Function) : Nat × Heap :=
  (heap.functions.size, { heap with functions := heap.functions.push function })

/-- Adds a native callable. -/
def addNative (heap : Heap) (native : Native) : Nat × Heap :=
  (heap.natives.size, { heap with natives := heap.natives.push native })

/-- Adds a class. -/
def addClass (heap : Heap) (newClass : Class) : Nat × Heap :=
  (heap.classes.size, { heap with classes := heap.classes.push newClass })

/-- Adds an instance of a class, with a copy of the native data the class prescribes. -/
def addObject (heap : Heap) (classId : Nat) : Nat × Heap :=
  let data := (heap.classAt classId).template
  (heap.objects.size, { heap with objects := heap.objects.push { classId, data } })

/-- Pairs a method with its receiver. -/
def bind (heap : Heap) (receiver method : Value) : Value × Heap :=
  (.boundMethod heap.boundMethods receiver method,
    { heap with boundMethods := heap.boundMethods + 1 })

/-- The class of an instance. -/
def classOf (heap : Heap) (objectId : Nat) : Class :=
  heap.classAt (heap.objectAt objectId).classId

/-- A field of an instance. -/
def field? (heap : Heap) (objectId : Nat) (name : String) : Option Value :=
  (heap.objectAt objectId).fields[name]?

/-- Assigns a field of an instance. -/
def setField (heap : Heap) (objectId : Nat) (name : String) (value : Value) : Heap :=
  { heap with
    objects := heap.objects.modify objectId fun object =>
      { object with fields := object.fields.insert name value } }

/-- Replaces the native data of an instance. -/
def setData (heap : Heap) (objectId : Nat) (data : NativeData) : Heap :=
  { heap with
    objects := heap.objects.modify objectId fun object => { object with data := some data } }

/-- Takes or gives back the native data of an instance. -/
def setLocked (heap : Heap) (objectId : Nat) (locked : Bool) : Heap :=
  { heap with
    objects := heap.objects.modify objectId fun object => { object with locked } }

/-- Enters a method of the instances of a class. -/
def setMethod (heap : Heap) (classId : Nat) (name : String) (method : Value) : Heap :=
  { heap with
    classes := heap.classes.modify classId fun owner =>
      { owner with methods := owner.methods.insert name method } }

/-- Enters a method of a class itself. -/
def setStatic (heap : Heap) (classId : Nat) (name : String) (method : Value) : Heap :=
  { heap with
    classes := heap.classes.modify classId fun owner =>
      { owner with statics := owner.statics.insert name method } }

/--
Changes the native data of an instance and gives a result.  Nothing changes and
the result is `refused` if there is no data or it is locked.  The data is taken
out of the heap while it is changed, so that it need not be copied.
-/
def updateData (heap : Heap) (objectId : Nat) (refused : α)
    (change : NativeData → α × NativeData) : α × Heap :=
  match heap.objectAt objectId with
  | { classId, fields, data := some data, locked := false } =>
    let vacated := heap.objects.setIfInBounds objectId default
    let (result, changed) := change data
    let object : Object := { classId, fields, data := some changed, locked := false }
    (result, { heap with objects := vacated.setIfInBounds objectId object })
  | _ => (refused, heap)

end Heap

end ScriptEngine
