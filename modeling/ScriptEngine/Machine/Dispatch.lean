import ScriptEngine.Machine.Container
import ScriptEngine.Machine.HostProgram

/-!
# Calls, properties, subscripts and imports

A call finds callee and arguments on the stack.  A compiled function gets a
frame; a method of an array or a map is carried out at once; a host routine is
begun.  Constructing an instance puts it in the place of the callee, and the
result of the initialiser is always the instance.
-/

namespace ScriptEngine

/-- A host routine that has been called and has not ended. -/
structure HostCall where
  /-- Position of the callee on the stack. -/
  slot : Nat
  /-- The instance under construction, if the routine is its initialiser. -/
  constructed : Option Value

/-- What an action leads to. -/
inductive Transition where
  /-- The innermost function goes on. -/
  | proceed
  /-- A host routine begins. -/
  | enterHost (call : HostCall) (program : HostProgram)
  /-- The function that a call from outside had started returns a value. -/
  | finished (value : Value)

/-- Everything outside the state that a run depends on. -/
structure Environment where
  settings : Settings
  host : Host

namespace Action

variable (environment : Environment)

/-- Replaces the value on top of the stack. -/
def setTop (value : Value) : Action Unit :=
  change fun state =>
    { state with stack := state.stack.setIfInBounds (state.stack.size - 1) value }

/-- Replaces callee and arguments of a host routine by its result. -/
def completeHostCall (call : HostCall) (value : Value) : Action Unit := do
  cutStack call.slot
  push environment.settings.limits value
  match call.constructed with
  | some instanceValue => setTop instanceValue
  | none => pure ()

/-- Ends a routine that was carried out at once. -/
def completeAtOnce (call : HostCall) (result : Except String Value) : Action Transition := do
  match result with
  | .ok value =>
    completeHostCall environment call value
    return .proceed
  | .error message => raise (.host message)

/-- Calls a native callable. -/
def callNative (native : Native) (argumentCount : Nat) (constructed : Option Value) :
    Action Transition := do
  match native.arity with
  | .exactly expected =>
    if expected ≠ argumentCount then
      raise (.argumentCount expected argumentCount)
  | .any => pure ()
  let slot ← calleeSlot argumentCount
  let receiver ← look (·.stack.getD slot .null)
  let arguments ← look fun state => (state.stack.extract (slot + 1) state.stack.size).toList
  let call : HostCall := { slot, constructed }
  match native.routine with
  | .sequence method =>
    completeAtOnce environment call
      (← updateHeap (Container.runSequence method receiver arguments))
  | .dictionary method =>
    completeAtOnce environment call
      (← updateHeap (Container.runDictionary method receiver arguments))
  | .host key => return .enterHost call (environment.host key receiver arguments)

/-- Makes an instance of a class and runs its initialiser. -/
def construct (classId argumentCount : Nat) : Action Transition := do
  let slot ← calleeSlot argumentCount
  let created : Value := .object (← updateHeap fun heap => heap.addObject classId)
  setSlot slot created
  match ← look fun state => (state.heap.classAt classId).methods["init"]? with
  | some (.function id) =>
    let function ← look (·.heap.function id)
    pushFrame environment.settings.limits function argumentCount true
    return .proceed
  | some (.hostMethod id) =>
    callNative environment (← look (·.heap.native id)) argumentCount (some created)
  | some _ => raise .notCallable
  | none =>
    if argumentCount ≠ 0 then
      raise (.argumentCount 0 argumentCount)
    return .proceed

/-- Calls a value whose callee and arguments are on the stack. -/
def callValue (callee : Value) (argumentCount : Nat) : Action Transition := do
  match callee with
  | .function id =>
    let function ← look (·.heap.function id)
    pushFrame environment.settings.limits function argumentCount false
    return .proceed
  | .boundMethod _ receiver method =>
    setSlot (← calleeSlot argumentCount) receiver
    callValue method argumentCount
  | .classObject id => construct environment id argumentCount
  | .hostFunction id | .hostMethod id =>
    callNative environment (← look (·.heap.native id)) argumentCount none
  | _ => raise .notCallable

/-! ## Properties -/

/-- The content of a variable of a module. -/
def moduleVariable (moduleId : Nat) (name : String) : Action Value := do
  match ← look fun state => (state.registry.moduleAt moduleId).assignedByName? name with
  | some value => return value
  | none => raise (.undefinedVariable name)

/-- Reads a property; a method is bound to its receiver. -/
def property (receiver : Value) (name : String) : Action Value := do
  match receiver with
  | .object id =>
    match ← look (·.heap.field? id name) with
    | some value => return value
    | none =>
      match ← look fun state => (state.heap.classOf id).methods[name]? with
      | some method => updateHeap fun heap => heap.bind receiver method
      | none => raise (.undefinedProperty name)
  | .classObject id =>
    match ← look fun state => (state.heap.classAt id).statics[name]? with
    | some method => updateHeap fun heap => heap.bind receiver method
    | none => raise (.undefinedProperty name)
  | .moduleHandle id _ => moduleVariable id name
  | _ => raise .noProperties

/-- Reads a property of the receiver below the arguments and calls it. -/
def invoke (name : String) (argumentCount : Nat) : Action Transition := do
  let receiver ← peek argumentCount
  let slot ← calleeSlot argumentCount
  match receiver with
  | .object id =>
    match ← look (·.heap.field? id name) with
    | some value =>
      setSlot slot value
      callValue environment value argumentCount
    | none =>
      match ← look fun state => (state.heap.classOf id).methods[name]? with
      | some method => callValue environment method argumentCount
      | none => raise (.undefinedProperty name)
  | .classObject id =>
    match ← look fun state => (state.heap.classAt id).statics[name]? with
    | some method => callValue environment method argumentCount
    | none => raise (.undefinedProperty name)
  | .moduleHandle id _ =>
    let value ← moduleVariable id name
    setSlot slot value
    callValue environment value argumentCount
  | _ => raise .noProperties

/-! ## Subscripts -/

/-- The instance that a value refers to and its native data, if it can be subscripted now. -/
def indexable (receiver : Value) : Action (Nat × NativeData) := do
  match receiver with
  | .object id =>
    match ← look fun state => (state.heap.objectAt id).data with
    | none => raise .notIndexable
    | some data =>
      if ← look fun state => (state.heap.objectAt id).locked then
        raise .containerInUse
      else if data.isIndexable then
        return (id, data)
      else
        raise .notIndexable
  | _ => raise .notIndexable

/-- Reads an element. -/
def getIndex (receiver index : Value) : Action Value := do
  let (_, data) ← indexable receiver
  match data.readIndex index with
  | .ok value => return value
  | .error message => raise (.badIndex message)

/-- Writes an element. -/
def setIndex (receiver index value : Value) : Action Unit := do
  let id := (← indexable receiver).1
  let result ← updateHeap fun heap =>
    heap.updateData id (.ok ()) fun data => data.writeIndex index value
  match result with
  | .ok _ => return ()
  | .error message => raise (.badIndex message)

/-! ## Imports -/

/-- Compiles a text as the body of a module and adds its functions to the heap. -/
def compileModule (mode : CompileMode) (moduleId : Nat) (source : String) :
    Action (Except CompileError Nat) :=
  update fun state => state.addSource mode moduleId source

/-- Asks the embedding program for the source of a module. -/
def requestSource (name : String) : Action (Option String) := do
  match environment.settings.load with
  | none => return none
  | some load =>
    change fun state =>
      { state with journal := { state.journal with loads := state.journal.loads.push name } }
    return load name

/-- Notes that a module needs no further loading. -/
def markLoaded (moduleId : Nat) : Action Unit :=
  changeRegistry fun registry => registry.modify moduleId Module.markLoaded

/--
Imports a module.  The body of a module is started at most once; later imports
give the module.  A module that the embedding program filled and that has no
source counts as loaded from its first import on.
-/
def importModule (name : String) : Action Transition := do
  let limits := environment.settings.limits
  let existing? ← look (·.registry.find? name)
  let loaded? ← look fun state =>
    existing?.filter fun id => (state.registry.moduleAt id).loaded
  match loaded? with
  | some id =>
    push limits (.moduleHandle id name)
    return .proceed
  | none =>
    match ← requestSource environment name with
    | none =>
      match existing? with
      | some id =>
        markLoaded id
        push limits .null
        return .proceed
      | none => raise (.moduleNotFound name)
    | some source =>
      let id ← update fun state =>
        let (id, registry) := state.registry.ensure name
        (id, { state with registry })
      match ← compileModule .run id source with
      | .error error => raise (.moduleRefused name error)
      | .ok body =>
        markLoaded id
        push limits (.function body)
        callValue environment (.function body) 0

end Action

end ScriptEngine
