import ScriptEngine.Machine.HostProgram
import ScriptEngine.Machine.Container

/-!
# Functions of the toolkit

The toolkit is a small host for scripts.  Its functions show what a host
routine can do: compute with its arguments, write, look at the machine, call
values, take hold of the data of an instance and define variables.

`Tool.program` says what a function does with its arguments.
-/

namespace ScriptEngine

namespace HostProgram

/-- Ends with the outcome of a call; of an error only the wording is kept. -/
def passOn : Except RuntimeError Value → HostProgram
  | .ok value => finish value
  | .error error => fail error.message

/-- Writes a text and goes on. -/
def writing (text : String) (next : HostProgram) : HostProgram :=
  perform (.write text) fun _ => next

/-- Calls a function with each of the values in turn and goes on with the results. -/
def callEach (callee : Value) (next : Array Value → HostProgram) :
    List Value → Array Value → HostProgram
  | [], results => next results
  | value :: rest, results =>
    call callee [value] fun
      | .ok result => callEach callee next rest (results.push result)
      | .error error => fail error.message

end HostProgram

/-- The functions of the toolkit. -/
inductive Tool where
  | identity
  | argc
  | sum
  | fail
  | apply
  | tryCall
  | typeOf
  | str
  | echo
  | undef
  | depth
  | callN
  | methodOf
  | bind
  | setMethod
  | locked
  | defineBuiltin
  | defineVar
  | mapArray
deriving Repr, DecidableEq

namespace Tool

open HostProgram

/-- The name of a function. -/
def name : Tool → String
  | identity => "identity"
  | argc => "argc"
  | sum => "sum"
  | fail => "fail"
  | apply => "apply"
  | tryCall => "tryCall"
  | typeOf => "typeOf"
  | str => "str"
  | echo => "echo"
  | undef => "undef"
  | depth => "depth"
  | callN => "callN"
  | methodOf => "methodOf"
  | bind => "bind"
  | setMethod => "setMethod"
  | locked => "locked"
  | defineBuiltin => "defineBuiltin"
  | defineVar => "defineVar"
  | mapArray => "mapArray"

/-- All functions of the toolkit. -/
def all : List Tool :=
  [identity, argc, sum, fail, apply, tryCall, typeOf, str, echo, undef, depth, callN, methodOf,
    bind, setMethod, locked, defineBuiltin, defineVar, mapArray]

/-- The function with a name. -/
def ofName? (name : String) : Option Tool :=
  all.find? fun tool => tool.name == name

/-- How many arguments a function accepts. -/
def arity : Tool → Arity
  | argc | sum | fail | apply | tryCall | echo => .any
  | undef | depth => .exactly 0
  | identity | typeOf | str => .exactly 1
  | callN | methodOf | bind | locked | defineBuiltin | mapArray => .exactly 2
  | setMethod | defineVar => .exactly 3

/-- The refusal of a value that is not a name. -/
def nameMessage : String := "Expected a name."

/-- The sum of numbers from left to right; there is none if a value is not a number. -/
def sumOf? : List Value → Float → Option Float
  | [], total => some total
  | .number number :: rest, total => sumOf? rest (total + number)
  | _ :: _, _ => none

/-- The numbers from zero up to a bound. -/
def numbersBelow (bound : Float) : List Value :=
  (List.range bound.toUInt64.toNat).map countValue

/-- The text of a failure that was caught. -/
def caught (error : RuntimeError) : String :=
  let origin :=
    match error.fault.origin with
    | .script => "Script"
    | .foreign => "Foreign"
  "caught " ++ origin ++ " " ++ error.report

/-- The method that a class or the class of an instance has under a name. -/
def findMethod? (heap : Heap) (name : String) : Value → Option Value
  | .classObject id =>
    let owner := heap.classAt id
    owner.methods[name]? <|> owner.statics[name]?
  | .object id => (heap.classOf id).methods[name]?
  | _ => none

/-- Writes each value in angle brackets. -/
def echoAll (heap : Heap) : List Value → HostProgram
  | [] => finish .null
  | value :: rest => writing ("<" ++ heap.display value ++ ">") (echoAll heap rest)

/-- Calls a function while the data of an instance is locked. -/
def callLocked (objectId : Nat) (callee : Value) : HostProgram :=
  perform (.lock objectId) fun _ =>
    call callee [] fun outcome =>
      perform (.unlock objectId) fun _ => passOn outcome

/-- Locks the data of an instance, unless there is none or it is locked already. -/
def lockedCall (heap : Heap) (container callee : Value) : HostProgram :=
  match container with
  | .object id =>
    match heap.objectAt id with
    | { data := none, .. } => .fail "Not a container."
    | { locked := true, .. } => .fail "Already locked."
    | _ => callLocked id callee
  | _ => .fail "Not a container."

/-- Replaces the elements of an array by what a function makes of them. -/
def mapElements (heap : Heap) (array callee : Value) : HostProgram :=
  let refused : HostProgram := .fail "map expects an array."
  match array with
  | .object id =>
    match heap.objectAt id with
    | { data := some (.sequence elements), locked := false, .. } =>
      callEach callee
        (fun results => perform (.setData id (.sequence results)) fun _ => finish array)
        elements.toList #[]
    | _ => refused
  | _ => refused

/-- What a function does with its arguments. -/
def program (tool : Tool) (arguments : List Value) : HostProgram :=
  let first := arguments.headD .null
  let second := (arguments.drop 1).headD .null
  let third := (arguments.drop 2).headD .null
  match tool with
  | identity => finish first
  | argc => finish (countValue arguments.length)
  | sum =>
    match sumOf? arguments 0 with
    | some total => finish (.number total)
    | none => .fail "sum expects numbers."
  | fail =>
    match arguments with
    | [] => .fail "host said no"
    | value :: _ => inspect fun state => .fail (state.heap.display value)
  | apply =>
    match arguments with
    | [] => .fail "apply needs a callee."
    | callee :: rest => call callee rest passOn
  | tryCall =>
    match arguments with
    | [] => .fail "tryCall needs a callee."
    | callee :: rest =>
      call callee rest fun
        | .ok value => finish value
        | .error error => finish (.string (caught error))
  | typeOf => finish (.string first.typeName)
  | str => inspect fun state => finish (.string (state.heap.display first))
  | echo => inspect fun state => echoAll state.heap arguments
  | undef => finish .undefined
  | depth =>
    inspect fun state =>
      finish (.string
        (Text.decimal state.stack.size ++ " " ++ Text.decimal state.frames.size))
  | callN =>
    match second with
    | .number bound => call first (numbersBelow bound) passOn
    | _ => .fail "Expected a number."
  | methodOf =>
    match second with
    | .string name =>
      inspect fun state =>
        match findMethod? state.heap name first with
        | some method => finish method
        | none => .fail "No such method."
    | _ => .fail nameMessage
  | bind => perform (.bind first second) finish
  | setMethod =>
    match first, second with
    | .classObject id, .string name => perform (.setMethod id name third) fun _ => finish first
    | .classObject _, _ => .fail nameMessage
    | _, _ => .fail "Expected a class."
  | locked => inspect fun state => lockedCall state.heap first second
  | defineBuiltin =>
    match first with
    | .string name => perform (.defineBuiltin name second) finish
    | _ => .fail nameMessage
  | defineVar =>
    match first, second with
    | .string moduleName, .string name => perform (.defineVariable moduleName name third) finish
    | _, _ => .fail nameMessage
  | mapArray => inspect fun state => mapElements state.heap first second

/-- The function under a name of its own, with its usual arity unless told otherwise. -/
def native (tool : Tool) (name : String) (arity : Arity) : Native where
  name
  arity
  routine := .host tool.name

end Tool

end ScriptEngine
