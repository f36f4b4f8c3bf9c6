import ScriptEngine.Blueprint
import ScriptEngine.Toolkit.Tool

/-!
# Classes of the toolkit

Four classes that show what a class of the embedding program can be: `Account`
keeps a balance behind its methods, `Opaque` carries data that nobody sees,
`Grid` answers subscripts, and `Tools` has no data but methods that receive the
instance or the class.
-/

namespace ScriptEngine

/-- The classes of the toolkit. -/
inductive SampleClass where
  | account
  | sealedBox
  | grid
  | tools
deriving Repr, DecidableEq

/-- Methods of the classes of the toolkit. -/
inductive SampleMethod where
  | openAccount
  | deposit
  | kind
  | countArguments
  | me
  | callWithMe
  | owner
  | boom
deriving Repr, DecidableEq

namespace SampleMethod

open HostProgram

/-- All methods of the classes of the toolkit. -/
def all : List SampleMethod :=
  [openAccount, deposit, kind, countArguments, me, callWithMe, owner, boom]

/-- The name under which scripts call a method. -/
def name : SampleMethod → String
  | openAccount | countArguments => "init"
  | deposit => "deposit"
  | kind => "kind"
  | me => "me"
  | callWithMe => "call"
  | owner => "owner"
  | boom => "boom"

/-- How many arguments a method accepts. -/
def arity : SampleMethod → Arity
  | openAccount | deposit => .exactly 1
  | kind | me | owner => .exactly 0
  | countArguments | callWithMe | boom => .any

/-- The class that has the method. -/
def home : SampleMethod → String
  | openAccount | deposit | kind => "Account"
  | countArguments | me | callWithMe | owner | boom => "Tools"

/-- The key under which the host knows a method. -/
def key (method : SampleMethod) : String :=
  method.home ++ "." ++ method.name

/-- The method with a key. -/
def ofKey? (key : String) : Option SampleMethod :=
  all.find? fun method => method.key == key

/-- The method as a callable. -/
def native (method : SampleMethod) : Native where
  name := method.name
  arity := method.arity
  routine := .host method.key

/-- The instance and its balance, if the receiver is an account that is not locked. -/
def account? (heap : Heap) (receiver : Value) : Option (Nat × Float) := do
  let id ← receiver.object?
  match heap.objectAt id with
  | { data := some (.account balance), locked := false, .. } => return (id, balance)
  | _ => none

/-- Changes the balance of an account and ends with a value made from the new balance. -/
def changeBalance (receiver : Value) (change : Float → Float) (result : Float → Value) :
    HostProgram :=
  inspect fun state =>
    match account? state.heap receiver with
    | some (id, balance) =>
      let changed := change balance
      perform (.setData id (.account changed)) fun _ => finish (result changed)
    | none => fail "Expected an Account."

/-- What a method does with its receiver and arguments. -/
def program (method : SampleMethod) (receiver : Value) (arguments : List Value) : HostProgram :=
  match method with
  | openAccount =>
    match arguments with
    | .number amount :: _ => changeBalance receiver (fun _ => amount) fun _ => .null
    | _ => fail "Opening balance must be a number."
  | deposit =>
    match arguments with
    | .number amount :: _ => changeBalance receiver (· + amount) .number
    | _ => fail "Amount must be a number."
  | kind => finish (.string "checking")
  | countArguments =>
    match receiver with
    | .object id =>
      perform (.setField id "argc" (countValue arguments.length)) fun _ =>
        finish (.string "ignored")
    | _ => fail "Expected an instance."
  | me | owner => finish receiver
  | callWithMe =>
    match arguments with
    | [] => fail "call needs a callee."
    | callee :: rest => call callee (receiver :: rest) passOn
  | boom => fail "boom"

end SampleMethod

namespace SampleClass

/-- All classes of the toolkit. -/
def all : List SampleClass :=
  [account, sealedBox, grid, tools]

/-- The name of a class. -/
def name : SampleClass → String
  | account => "Account"
  | sealedBox => "Opaque"
  | grid => "Grid"
  | tools => "Tools"

/-- The class with a name. -/
def ofName? (name : String) : Option SampleClass :=
  all.find? fun sample => sample.name == name

/-- The description of a class under a name of its own. -/
def blueprint (sample : SampleClass) (name : String) : Blueprint :=
  match sample with
  | account =>
    { name
      methods := [SampleMethod.openAccount.native, SampleMethod.deposit.native]
      statics := [SampleMethod.kind.native]
      template := some (.account 0) }
  | sealedBox => { name, template := some .sealedBox }
  | grid => { name, template := some (.grid 0) }
  | tools =>
    { name
      methods :=
        [SampleMethod.countArguments.native, SampleMethod.me.native,
          SampleMethod.callWithMe.native]
      statics := [SampleMethod.owner.native, SampleMethod.boom.native] }

end SampleClass

/-- The host that knows the functions and classes of the toolkit. -/
def Host.toolkit : Host :=
  fun key receiver arguments =>
    match Tool.ofName? key with
    | some tool => tool.program arguments
    | none =>
      match SampleMethod.ofKey? key with
      | some method => method.program receiver arguments
      | none => .fail ("Unknown routine " ++ key)

end ScriptEngine
