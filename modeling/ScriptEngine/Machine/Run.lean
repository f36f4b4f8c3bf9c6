import ScriptEngine.Machine.Execute

/-!
# Runs

A call from outside starts a run.  While it lasts, compiled functions and host
routines take turns, and a host routine can start further runs inside it.  The
machine keeps them in a list, innermost first; a fault ends the innermost run,
whose stack and frames are cut back, and the host routine that started it is
told about the error.

`Machine.step` makes one small step and never recurses.  `Machine.run` repeats
it up to a bound.
-/

namespace ScriptEngine

/-- A call from outside that has not ended. -/
structure SubRun where
  /-- Size of the stack when the call began. -/
  stackMark : Nat
  /-- Number of frames when the call began. -/
  entryDepth : Nat
  /-- The host routine that waits for the outcome and how it goes on; none for the outermost. -/
  awaiting : Option (HostCall × (Except RuntimeError Value → HostProgram))

/-- What the machine does next. -/
inductive Control where
  /-- The innermost function executes an instruction. -/
  | script
  /-- A host routine goes on. -/
  | host (call : HostCall) (program : HostProgram)
  /-- Nothing, the outermost call has ended. -/
  | ended (outcome : Except RuntimeError Value)
  /-- Nothing, the code has no next instruction. -/
  | stuck

/-- A run in progress. -/
structure Machine where
  state : State
  control : Control
  /-- Calls from outside that have not ended, innermost first. -/
  subRuns : List SubRun

namespace Machine

variable (environment : Environment)

/-- Ends the innermost call and passes the outcome on. -/
def conclude (machine : Machine) (outcome : Except RuntimeError Value) : Machine :=
  match machine.subRuns with
  | [] => { machine with control := .ended outcome }
  | { awaiting := none, .. } :: rest =>
    { machine with control := .ended outcome, subRuns := rest }
  | { awaiting := some (call, next), .. } :: rest =>
    { machine with control := .host call (next outcome), subRuns := rest }

/-- The trace of the frames above a depth, innermost first. -/
def traceFrom (state : State) (depth : Nat) : List TraceEntry :=
  (state.frames.toList.drop depth).reverse.map fun frame =>
    { line := frame.line
      function := frame.function.traceName
      moduleName := (state.registry.moduleAt frame.function.home).name }

/-- Ends the innermost call with a fault and cuts stack and frames back. -/
def raise (machine : Machine) (fault : Fault) : Machine :=
  match machine.subRuns with
  | [] => machine.conclude (.error { fault, trace := traceFrom machine.state 0 })
  | { stackMark, entryDepth, .. } :: _ =>
    let error : RuntimeError := { fault, trace := traceFrom machine.state entryDepth }
    let state :=
      { machine.state with
        stack := machine.state.stack.shrink stackMark
        frames := machine.state.frames.shrink entryDepth }
    { machine with state }.conclude (.error error)

/-- Number of frames below those of the innermost call. -/
def entryDepth (machine : Machine) : Nat :=
  match machine.subRuns with
  | [] => 0
  | innermost :: _ => innermost.entryDepth

/-- Goes on with the innermost function; a call without functions left ends. -/
def resume (machine : Machine) : Machine :=
  if machine.entryDepth < machine.state.frames.size then
    { machine with control := .script }
  else
    match Action.pop machine.state with
    | (.ok value, state) => { machine with state }.conclude (.ok value)
    | (.error _, state) => { machine with state }.raise .stackUnderflow

/-- Goes on after an action. -/
def settle (control : Control) (subRuns : List SubRun)
    (result : Except Interruption Transition × State) : Machine :=
  match result with
  | (.ok .proceed, state) => { state, control, subRuns : Machine }.resume
  | (.ok (.enterHost call program), state) =>
    { state, control := .host call program, subRuns }
  | (.ok (.finished value), state) => { state, control, subRuns : Machine }.conclude (.ok value)
  | (.error (.fault fault), state) => { state, control, subRuns : Machine }.raise fault
  | (.error .stuck, state) => { state, control := .stuck, subRuns }

/-- Pushes values in order. -/
def pushAll : List Value → Action Unit
  | [] => return ()
  | value :: rest => do
    Action.push environment.settings.limits value
    pushAll rest

/-- Checks the bounds of a call from outside, pushes callee and arguments and calls. -/
def enter (depth : Nat) (callee : Value) (arguments : List Value) : Action Transition := do
  if environment.settings.limits.maxNestedCalls < depth then
    Action.raise .stackOverflow
  if Compiler.maxArguments < arguments.length then
    Action.raise .tooManyArguments
  Action.push environment.settings.limits callee
  pushAll environment arguments
  Action.callValue environment callee arguments.length

/-- Starts a call from outside inside the calls that have not ended. -/
def start (state : State) (subRuns : List SubRun) (callee : Value) (arguments : List Value)
    (awaiting : Option (HostCall × (Except RuntimeError Value → HostProgram))) : Machine :=
  let subRun : SubRun :=
    { stackMark := state.stack.size, entryDepth := state.frames.size, awaiting }
  settle .script (subRun :: subRuns)
    (enter environment (subRuns.length + 1) callee arguments state)

/-- Makes one step. -/
def step (machine : Machine) : Machine :=
  match machine with
  | { state, control := .script, subRuns } =>
    let entryDepth :=
      match subRuns with
      | [] => 0
      | innermost :: _ => innermost.entryDepth
    settle .script subRuns (Action.step environment entryDepth state)
  | { state, control := .host call (.finish value), subRuns } =>
    settle .script subRuns
      ((do Action.completeHostCall environment call value; return .proceed :
        Action Transition) state)
  | { state, control := .host _ (.fail message), subRuns } =>
    { state, control := .script, subRuns : Machine }.raise (.host message)
  | { state, control := .host call (.inspect next), subRuns } =>
    let program := next state
    { state, control := .host call program, subRuns }
  | { state, control := .host call (.perform request next), subRuns } =>
    let (answer, state) := request.perform state
    { state, control := .host call (next answer), subRuns }
  | { state, control := .host call (.call callee arguments next), subRuns } =>
    start environment state subRuns callee arguments (some (call, next))
  | { state, control := .ended outcome, subRuns } => { state, control := .ended outcome, subRuns }
  | { state, control := .stuck, subRuns } => { state, control := .stuck, subRuns }

/-- Whether there is nothing left to do. -/
def isOver (machine : Machine) : Bool :=
  match machine.control with
  | .ended _ | .stuck => true
  | .script | .host _ _ => false

/-- Makes steps until there is nothing left to do, but at most `bound`. -/
def run : Nat → Machine → Machine
  | 0, machine => machine
  | bound + 1, machine =>
    if machine.isOver then machine else run bound (machine.step environment)

end Machine

/-- How a call from outside ended. -/
inductive Outcome where
  | returned (value : Value)
  | failed (error : RuntimeError)
  /-- The code had no next instruction. -/
  | stuck
  /-- The bound on the number of steps was reached. -/
  | unfinished

/-- The outcome of a machine that has stopped. -/
def Machine.outcome (machine : Machine) : Outcome :=
  match machine.control with
  | .ended (.ok value) => .returned value
  | .ended (.error error) => .failed error
  | .stuck => .stuck
  | .script | .host _ _ => .unfinished

/-- Calls a value with arguments and runs it to its end. -/
def State.call (environment : Environment) (state : State) (callee : Value)
    (arguments : List Value) : Outcome × State :=
  let machine := Machine.start environment state [] callee arguments none
  let final := Machine.run environment environment.settings.patience machine
  (final.outcome, final.state)

end ScriptEngine
