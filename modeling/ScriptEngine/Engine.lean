import ScriptEngine.Assembly
import ScriptEngine.Blueprint
import ScriptEngine.Machine.Run

/-!
# The engine

An engine is a machine between two calls, together with what the embedding
program has decided and the failures that were reported to it.  Source texts
are compiled into modules and run there; module variables can be read, assigned
and called from outside.

Failures of `runModule`, `call` and `callValue` are reported; failures of
`evaluate` and `compile` are only returned.
-/

namespace ScriptEngine

/-- The module in which texts are run unless another is named. -/
def mainModule : String := "main"

/-- The wording of a name that is no variable of a module. -/
def undefinedInModule (moduleName name : String) : String :=
  "Undefined variable " ++ name ++ " in module '" ++ moduleName ++ "'."

/-- Why the engine could not do what it was asked. -/
inductive EngineError where
  | compile (error : CompileError)
  | runtime (error : RuntimeError)
  | undefinedVariable (moduleName name : String)
  | tooManyVariables (moduleName : String)
  /-- Hand-written code had no next instruction. -/
  | stuck
  /-- The bound on the number of steps was reached. -/
  | unfinished
deriving Repr, DecidableEq

/-- What a report is about. -/
inductive ReportKind where
  | compile
  | runtime
  | other
deriving Repr, DecidableEq

/-- A failure as it is told to the embedding program. -/
structure Report where
  kind : ReportKind
  moduleName : String
  line : Nat
  message : String
deriving Repr, DecidableEq

namespace EngineError

/-- The full text of an error, with the trace of a runtime error. -/
def describe : EngineError → String
  | compile error => error.report
  | runtime error => error.report
  | undefinedVariable moduleName name => undefinedInModule moduleName name
  | tooManyVariables _ => CompileProblem.tooManyModuleVariables.message
  | stuck => "The code has no next instruction."
  | unfinished => "The bound on the number of steps was reached."

/-- What the report of an error is about. -/
def kind : EngineError → ReportKind
  | compile _ => .compile
  | runtime _ => .runtime
  | undefinedVariable _ _ | tooManyVariables _ | stuck | unfinished => .other

/-- Source line of an error, zero where there is none. -/
def line : EngineError → Nat
  | compile error => error.line
  | runtime error => error.line
  | undefinedVariable _ _ | tooManyVariables _ | stuck | unfinished => 0

/-- The module of an error, where the error does not tell it `asked`. -/
def moduleName (asked : String) : EngineError → String
  | compile error => error.moduleName
  | runtime error => (error.trace.head?.map TraceEntry.moduleName).getD asked
  | undefinedVariable moduleName _ | tooManyVariables moduleName => moduleName
  | stuck | unfinished => asked

/-- The report of an error that arose in the module `asked`. -/
def toReport (error : EngineError) (asked : String) : Report where
  kind := error.kind
  moduleName := error.moduleName asked
  line := error.line
  message := error.describe

end EngineError

/-- The limits with at least one of each. -/
def Limits.raised (limits : Limits) : Limits where
  stackCapacity := max limits.stackCapacity 1
  maxFrames := max limits.maxFrames 1
  maxNestedCalls := max limits.maxNestedCalls 1

/-- The settings in one line. -/
def Settings.text (settings : Settings) : String :=
  let flag (value : Bool) : String := if value then "true" else "false"
  "Config \x7b load_module: " ++ flag settings.load.isSome
    ++ ", stack_capacity: " ++ Text.decimal settings.limits.stackCapacity
    ++ ", max_frames: " ++ Text.decimal settings.limits.maxFrames
    ++ ", max_nested_calls: " ++ Text.decimal settings.limits.maxNestedCalls
    ++ ", trace_execution: " ++ flag settings.trace ++ ", .. \x7d"

/-- A machine between two calls, with its surroundings and the reports so far. -/
structure Engine where
  environment : Environment
  state : State := {}
  reports : Array Report := #[]

namespace Engine

/-- An engine without the built-in classes. -/
def bare (environment : Environment) : Engine where
  environment :=
    { environment with
      settings :=
        { environment.settings with limits := environment.settings.limits.raised } }

/-- An engine with the built-in classes. -/
def create (environment : Environment) : Engine :=
  let engine := bare environment
  { engine with state := engine.state.installBuiltins }

/-- Changes the state of an engine. -/
def changeState (engine : Engine) (change : State → State) : Engine :=
  match engine with
  | { environment, state, reports } => { environment, state := change state, reports }

/-- Adds a report. -/
def report (engine : Engine) (error : EngineError) (moduleName : String) : Engine :=
  { engine with reports := engine.reports.push (error.toReport moduleName) }

/-- Adds a report if a result is an error. -/
def reportFailure (moduleName : String) (result : Except EngineError α × Engine) :
    Except EngineError α × Engine :=
  match result with
  | (.ok value, engine) => (.ok value, engine)
  | (.error error, engine) => (.error error, engine.report error moduleName)

/-- The journal and the reports since they were last taken, and the engine without them. -/
def takeRecords (engine : Engine) : Journal × Array Report × Engine :=
  (engine.state.journal, engine.reports,
    { engine with state := { engine.state with journal := {} }, reports := #[] })

/-! ## Modules and variables -/

/-- The position of a module, which is created if needed. -/
def ensureModule (engine : Engine) (moduleName : String) : Nat × Engine :=
  let (id, registry) := engine.state.registry.ensure moduleName
  (id, { engine with state := { engine.state with registry } })

/-- The names of the variables of a module. -/
def variableNames (engine : Engine) (moduleName : String) : Array String :=
  ((engine.state.registry.module? moduleName).map Module.names).getD #[]

/-- The content of a module variable, unless it is unassigned. -/
def lookup? (engine : Engine) (moduleName name : String) : Option Value :=
  engine.state.registry.lookup? moduleName name

/-- Assigns an existing module variable. -/
def assign (engine : Engine) (moduleName name : String) (value : Value) :
    Except EngineError Unit × Engine :=
  match engine.state.registry.assign? moduleName name value with
  | some registry => (.ok (), { engine with state := { engine.state with registry } })
  | none =>
    reportFailure moduleName (.error (.undefinedVariable moduleName name), engine)

/-- Defines a value in the seed of all modules. -/
def defineBuiltin (engine : Engine) (name : String) (value : Value) : Engine :=
  engine.changeState fun state => state.defineBuiltin name value

/-- Declares and assigns a variable of a module, which is created if needed. -/
def defineVariable (engine : Engine) (moduleName name : String) (value : Value) :
    Bool × Engine :=
  let (defined, registry) := engine.state.registry.defineVariable moduleName name value
  (defined, { engine with state := { engine.state with registry } })

/-- Defines a value in a module, or in the seed of all modules if the name is empty. -/
def define (engine : Engine) (moduleName name : String) (value : Value) : Engine :=
  if moduleName.isEmpty then
    engine.defineBuiltin name value
  else
    match engine.defineVariable moduleName name value with
    | (true, defined) => defined
    | (false, same) => same.report (.tooManyVariables moduleName) moduleName

/-- Defines a function of the host. -/
def registerFunction (engine : Engine) (moduleName : String) (native : Native) : Engine :=
  let (id, heap) := engine.state.heap.addNative native
  define { engine with state := { engine.state with heap } } moduleName native.name
    (.hostFunction id)

/-- Defines a class of the host. -/
def registerClass (engine : Engine) (moduleName : String) (blueprint : Blueprint) : Engine :=
  let (value, state) := engine.state.build blueprint
  define { engine with state } moduleName blueprint.name value

/-- Defines the built-in classes. -/
def installBuiltins (engine : Engine) : Engine :=
  engine.changeState State.installBuiltins

/-! ## Calls -/

/-- Calls a value; a failure is only returned. -/
def callMachine (engine : Engine) (callee : Value) (arguments : List Value) :
    Except EngineError Value × Engine :=
  match engine with
  | { environment, state, reports } =>
    match state.call environment callee arguments with
    | (.returned value, state) => (.ok value, { environment, state, reports })
    | (.failed error, state) => (.error (.runtime error), { environment, state, reports })
    | (.stuck, state) => (.error .stuck, { environment, state, reports })
    | (.unfinished, state) => (.error .unfinished, { environment, state, reports })

/-- Turns an unassigned result into null. -/
def withoutUndefined (result : Except EngineError Value × Engine) :
    Except EngineError Value × Engine :=
  (result.1.map Value.undefinedToNull, result.2)

/-- Calls a value; a failure is reported. -/
def callValue (engine : Engine) (callee : Value) (arguments : List Value) :
    Except EngineError Value × Engine :=
  reportFailure mainModule (withoutUndefined (engine.callMachine callee arguments))

/-- Calls the content of a module variable; a failure is reported. -/
def call (engine : Engine) (moduleName name : String) (arguments : List Value) :
    Except EngineError Value × Engine :=
  match engine.lookup? moduleName name with
  | some callee => engine.callValue callee arguments
  | none =>
    reportFailure moduleName (.error (.undefinedVariable moduleName name), engine)

/-! ## Source texts -/

/--
Compiles a text as the body of a module, which is created if needed and counts
as loaded from then on, and gives the position of the body.
-/
def compileIn (engine : Engine) (mode : CompileMode) (moduleName source : String) :
    Except EngineError Nat × Engine :=
  match engine with
  | { environment, state, reports } =>
    match state.addNamedSource mode moduleName source with
    | (.ok body, state) => (.ok body, { environment, state, reports })
    | (.error error, state) => (.error (.compile error), { environment, state, reports })

/-- Compiles a text without running it. -/
def compile (engine : Engine) (moduleName source : String) :
    Except EngineError Nat × Engine :=
  engine.compileIn .run moduleName source

/-- Compiles a text and calls the body; a failure is only returned. -/
def interpret (engine : Engine) (mode : CompileMode) (moduleName source : String) :
    Except EngineError Value × Engine :=
  match engine.compileIn mode moduleName source with
  | (.ok body, engine) => engine.callMachine (.function body) []
  | (.error error, engine) => (.error error, engine)

/-- Runs a text in a module; a failure is reported. -/
def runModule (engine : Engine) (moduleName source : String) :
    Except EngineError Value × Engine :=
  reportFailure moduleName (withoutUndefined (engine.interpret .run moduleName source))

/-- Runs a text in the main module; a failure is reported. -/
def run (engine : Engine) (source : String) : Except EngineError Value × Engine :=
  engine.runModule mainModule source

/-- The value of the expression statement that ends a text, null if there is none. -/
def evaluate (engine : Engine) (source : String) : Except EngineError Value × Engine :=
  withoutUndefined (engine.interpret .eval mainModule source)

/-! ## Hand-written code -/

/-- Adds a hand-written function of a module, which is created if needed. -/
def assemble (engine : Engine) (moduleName : String) (assembly : Assembly) : Nat × Engine :=
  let (home, engine) := engine.ensureModule moduleName
  let (id, heap) := assembly.assemble home engine.state.heap
  (id, { engine with state := { engine.state with heap } })

/-- The listing of a function of a module. -/
def listing (engine : Engine) (moduleName : String) (id : Nat) : String :=
  Listing.ofFunction engine.state.heap id (engine.variableNames moduleName)

end Engine

end ScriptEngine
