import ScriptEngine.Machine.Container

/-!
# Classes of the embedding program

A blueprint describes a class that is not written in a script: its methods, the
methods of the class itself and the native data of a new instance.  Building it
adds the class and one callable per method to the heap.

The built-in classes are `Array` and `Map`.
-/

namespace ScriptEngine

/-- Description of a class of the embedding program. -/
structure Blueprint where
  name : String
  /-- Methods of the instances. -/
  methods : List Native := []
  /-- Methods of the class itself, whose receiver is the class. -/
  statics : List Native := []
  /-- The native data of a new instance. -/
  template : Option NativeData := none

/-- Adds callables to the heap and collects them by name. -/
def Heap.addMethods (heap : Heap) (methods : List Native) : Table × Heap :=
  methods.foldl
    (fun (table, heap) method =>
      let (id, extended) := heap.addNative method
      (table.insert method.name (.hostMethod id), extended))
    (∅, heap)

/-- Adds the class of a blueprint to the heap. -/
def Heap.build (heap : Heap) (blueprint : Blueprint) : Value × Heap :=
  let (methods, heap) := heap.addMethods blueprint.methods
  let (statics, heap) := heap.addMethods blueprint.statics
  let (id, heap) :=
    heap.addClass { name := blueprint.name, methods, statics, template := blueprint.template }
  (.classObject id, heap)

namespace Blueprint

/-- The class of arrays. -/
def array : Blueprint where
  name := "Array"
  methods := SequenceMethod.all.map fun method =>
    { name := method.name, arity := .exactly method.arity, routine := .sequence method }
  template := some (.sequence #[])

/-- The class of maps. -/
def map : Blueprint where
  name := "Map"
  methods := DictionaryMethod.all.map fun method =>
    { name := method.name, arity := .exactly method.arity, routine := .dictionary method }
  template := some (.dictionary {})

/-- The built-in classes in the order of their slots. -/
def builtins : List Blueprint :=
  [array, map]

end Blueprint

namespace State

/-- Adds a class to the heap. -/
def build (state : State) (blueprint : Blueprint) : Value × State :=
  let (value, heap) := state.heap.build blueprint
  (value, { state with heap })

/-- Defines a value in the seed of all modules. -/
def defineBuiltin (state : State) (name : String) (value : Value) : State :=
  { state with registry := state.registry.defineBuiltin name value }

/-- Defines a class in the seed of all modules. -/
def defineBuiltinClass (state : State) (blueprint : Blueprint) : State :=
  let (value, state) := state.build blueprint
  state.defineBuiltin blueprint.name value

/-- Defines the built-in classes. -/
def installBuiltins (state : State) : State :=
  Blueprint.builtins.foldl defineBuiltinClass state

end State

end ScriptEngine
