import ScriptEngine.Machine.Source

/-!
# Programs of the host

A routine of the embedding program is described by what it does with the
machine, one interaction after the other.  It can look at the state, ask for
one of a fixed set of changes and call values; it ends with a value or with a
failure.  A host assigns such a program to every key, receiver and list of
arguments.
-/

namespace ScriptEngine

/-- A change of the state that a host routine can ask for. -/
inductive HostRequest where
  | write (text : String)
  | bind (receiver method : Value)
  | setField (objectId : Nat) (name : String) (value : Value)
  | setMethod (classId : Nat) (name : String) (method : Value)
  | setData (objectId : Nat) (data : NativeData)
  | lock (objectId : Nat)
  | unlock (objectId : Nat)
  | defineBuiltin (name : String) (value : Value)
  | defineVariable (moduleName name : String) (value : Value)
  | addNative (native : Native)
  | addClass (newClass : Class)
  | addObject (classId : Nat)
  | ensureModule (moduleName : String)
  | compile (mode : CompileMode) (moduleName source : String)

namespace HostRequest

/-- Carries out a request and gives the answer to it. -/
def perform (request : HostRequest) (state : State) : Value × State :=
  match request with
  | write text => (.null, { state with journal := state.journal.write text })
  | bind receiver method =>
    let (bound, heap) := state.heap.bind receiver method
    (bound, { state with heap })
  | setField objectId name value =>
    (.null, { state with heap := state.heap.setField objectId name value })
  | setMethod classId name method =>
    (.null, { state with heap := state.heap.setMethod classId name method })
  | setData objectId data => (.null, { state with heap := state.heap.setData objectId data })
  | lock objectId => (.null, { state with heap := state.heap.setLocked objectId true })
  | unlock objectId => (.null, { state with heap := state.heap.setLocked objectId false })
  | defineBuiltin name value =>
    (.null, { state with registry := state.registry.defineBuiltin name value })
  | defineVariable moduleName name value =>
    let (defined, registry) := state.registry.defineVariable moduleName name value
    (.bool defined, { state with registry })
  | addNative native =>
    let (id, heap) := state.heap.addNative native
    (.hostFunction id, { state with heap })
  | addClass newClass =>
    let (id, heap) := state.heap.addClass newClass
    (.classObject id, { state with heap })
  | addObject classId =>
    let (id, heap) := state.heap.addObject classId
    (.object id, { state with heap })
  | ensureModule moduleName =>
    let (id, registry) := state.registry.ensure moduleName
    (.moduleHandle id moduleName, { state with registry })
  | compile mode moduleName source =>
    match state.addNamedSource mode moduleName source with
    | (.ok body, state) => (.function body, state)
    | (.error error, state) => (.string error.report, state)

end HostRequest

/-- What a host routine does, interaction by interaction. -/
inductive HostProgram where
  /-- Ends with a value. -/
  | finish (value : Value)
  /-- Ends with a failure. -/
  | fail (message : String)
  /-- Looks at the state. -/
  | inspect (next : State → HostProgram)
  /-- Asks for a change of the state. -/
  | perform (request : HostRequest) (next : Value → HostProgram)
  /-- Calls a value and waits for the outcome. -/
  | call (callee : Value) (arguments : List Value)
      (next : Except RuntimeError Value → HostProgram)

/-- The routines of the embedding program by key, receiver and arguments. -/
abbrev Host := String → Value → List Value → HostProgram

/-- A host without routines. -/
def Host.empty : Host :=
  fun _ _ _ => .finish .null

end ScriptEngine
