import Std.Data.TreeMap
import ScriptEngine.Value

/-!
# Modules

A module is a table of variables.  A variable gets its slot when its name is
first declared and keeps it, so compiled code can address variables by slot.
A variable that was declared but not assigned holds the mark `undefined`.

The registry holds all modules.  Module zero has the empty name; its variables
are copied into every module that is created later.
-/

namespace ScriptEngine

/-- A table of variables. -/
structure Module where
  name : String
  /-- Contents of the variables by slot. -/
  values : Array Value := #[]
  /-- Names of the variables by slot. -/
  names : Array String := #[]
  /-- Slots of the variables by name. -/
  index : Std.TreeMap String Nat := ∅
  /-- Whether the body has been started or the embedding program filled the module. -/
  loaded : Bool := false
deriving Inhabited

namespace Module

/-- Largest number of variables. -/
def maxVariables : Nat := 65536

/-- A module whose first variables are those of `seed`. -/
def seeded (name : String) (seed : Module) : Module :=
  { seed with name, loaded := false }

/-- The slot of a name. -/
def find? (table : Module) (name : String) : Option Nat :=
  table.index[name]?

/-- Appends an unassigned variable. -/
def append (table : Module) (name : String) : Module :=
  let slot := table.values.size
  { table with
    values := table.values.push .undefined
    names := table.names.push name
    index := table.index.insert name slot }

/-- The slot of a name, which is declared unless it exists or the table is full. -/
def declare (table : Module) (name : String) : Option Nat × Module :=
  match table.find? name with
  | some slot => (some slot, table)
  | none =>
    let slot := table.values.size
    if slot < maxVariables then (some slot, table.append name) else (none, table)

/-- The content of a slot. -/
def get? (table : Module) (slot : Nat) : Option Value :=
  table.values[slot]?

/-- The content of a slot, unless it is unassigned. -/
def assigned? (table : Module) (slot : Nat) : Option Value :=
  (table.get? slot).filter fun value => !value.isUndefined

/-- Changes the content of an existing slot. -/
def set (table : Module) (slot : Nat) (value : Value) : Module :=
  { table with values := table.values.setIfInBounds slot value }

/-- The content of a variable. -/
def getByName? (table : Module) (name : String) : Option Value :=
  (table.find? name).bind table.get?

/-- The content of a variable, unless it is unassigned. -/
def assignedByName? (table : Module) (name : String) : Option Value :=
  (table.find? name).bind table.assigned?

/-- The name of a slot. -/
def variableName? (table : Module) (slot : Nat) : Option String :=
  table.names[slot]?

/-- Notes that the module needs no further loading. -/
def markLoaded (table : Module) : Module :=
  { table with loaded := true }

/-- Number of variables. -/
def size (table : Module) : Nat :=
  table.values.size

end Module

/-- All modules, by position and by name. -/
structure Registry where
  modules : Array Module
  index : Std.TreeMap String Nat

namespace Registry

/-- The position of the module that seeds all others. -/
def builtin : Nat := 0

/-- A registry with nothing but an empty seed. -/
def initial : Registry where
  modules := #[{ name := "", loaded := true }]
  index := (∅ : Std.TreeMap String Nat).insert "" builtin

instance : Inhabited Registry where
  default := initial

/-- The position of the module with a given name. -/
def find? (registry : Registry) (name : String) : Option Nat :=
  registry.index[name]?

/-- The module at a position. -/
def moduleAt (registry : Registry) (id : Nat) : Module :=
  registry.modules.getD id default

/-- The module with a given name. -/
def module? (registry : Registry) (name : String) : Option Module :=
  (registry.find? name).bind fun id => registry.modules[id]?

/-- Changes the module at a position. -/
def modify (registry : Registry) (id : Nat) (change : Module → Module) : Registry :=
  { registry with modules := registry.modules.modify id change }

/-- Replaces the module at a position. -/
def replace (registry : Registry) (id : Nat) (table : Module) : Registry :=
  { registry with modules := registry.modules.setIfInBounds id table }

/-- The position of the module with a given name, which is created if it does not exist. -/
def ensure (registry : Registry) (name : String) : Nat × Registry :=
  match registry.find? name with
  | some id => (id, registry)
  | none =>
    let id := registry.modules.size
    let table := Module.seeded name (registry.moduleAt builtin)
    (id, { modules := registry.modules.push table, index := registry.index.insert name id })

/-- Assigns a variable of a module if it is absent or unassigned there. -/
def offer (table : Module) (name : String) (value : Value) : Module :=
  match table.declare name with
  | (none, same) => same
  | (some slot, declared) =>
    if (declared.assigned? slot).isNone then declared.set slot value else declared

/-- Declares and assigns a variable of a module, if there is room. -/
def define (table : Module) (name : String) (value : Value) : Bool × Module :=
  match table.declare name with
  | (none, same) => (false, same)
  | (some slot, declared) => (true, declared.set slot value)

/--
Defines a variable in the seed and offers it to every other module.  A module
that already holds a value under the name keeps it.
-/
def defineBuiltin (registry : Registry) (name : String) (value : Value) : Registry :=
  { registry with
    modules := registry.modules.mapIdx fun id table =>
      if id = builtin then (define table name value).2 else offer table name value }

/-- Declares and assigns a variable of a named module, which is created if needed. -/
def defineVariable (registry : Registry) (moduleName name : String) (value : Value) :
    Bool × Registry :=
  let (id, ensured) := registry.ensure moduleName
  let (defined, table) := define (ensured.moduleAt id) name value
  (defined, ensured.replace id table)

/-- Assigns an existing variable of a named module. -/
def assign? (registry : Registry) (moduleName name : String) (value : Value) :
    Option Registry := do
  let id ← registry.find? moduleName
  let slot ← (registry.moduleAt id).find? name
  return registry.modify id fun table => table.set slot value

/-- The content of a variable of a named module, unless it is unassigned. -/
def lookup? (registry : Registry) (moduleName name : String) : Option Value := do
  let table ← registry.module? moduleName
  table.assignedByName? name

end Registry

end ScriptEngine
