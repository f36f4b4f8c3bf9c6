import ScriptEngine.Compilation.Problem

/-!
# Faults and runtime errors

A fault stops the code that is running.  When it leaves the call in which it
arose it becomes a runtime error with a trace: one entry for every function
that the call had entered and not left, innermost first.
-/

namespace ScriptEngine

/-- Which side of the boundary to the embedding program raised a fault. -/
inductive Origin where
  | script
  | foreign
deriving Repr, DecidableEq

/-- Why a run cannot go on. -/
inductive Fault where
  | stackOverflow
  | stackUnderflow
  | tooManyArguments
  | invalidConstant
  | invalidName
  | invalidLocal
  | unknownOpcode (byte : UInt8)
  | undefinedVariable (name : String)
  | operandNotNumber
  | operandsNotNumbers
  | notCallable
  | argumentCount (expected actual : Nat)
  | methodWithoutClass
  | undefinedProperty (name : String)
  | noProperties
  | noFields
  | notIndexable
  | containerInUse
  /-- A subscript that native data refuses, in the words of the data. -/
  | badIndex (message : String)
  | moduleNotFound (name : String)
  | moduleRefused (name : String) (error : CompileError)
  /-- A failure of a host routine, in its own words. -/
  | host (message : String)
deriving Repr, DecidableEq

namespace Fault

/-- The wording of a fault. -/
def message : Fault → String
  | stackOverflow => "Stack overflow."
  | stackUnderflow => "Stack underflow."
  | tooManyArguments => "Can't have more than 255 arguments."
  | invalidConstant => "Invalid constant operand."
  | invalidName => "Invalid name operand."
  | invalidLocal => "Invalid local slot."
  | unknownOpcode byte => "Unknown opcode " ++ Text.decimal byte.toNat ++ "."
  | undefinedVariable name => "Undefined variable " ++ name
  | operandNotNumber => "Operand must be a number."
  | operandsNotNumbers => "Operands must be numbers."
  | notCallable => "Can only call functions and classes."
  | argumentCount expected actual =>
    "Expected " ++ Text.decimal expected ++ " arguments but got " ++ Text.decimal actual ++ "."
  | methodWithoutClass => "Methods can only be attached to classes."
  | undefinedProperty name => "Undefined property " ++ name
  | noProperties => "Only instances have properties."
  | noFields => "Only instances have fields."
  | notIndexable => "Only arrays and maps can be indexed."
  | containerInUse => "Container is already in use."
  | badIndex message => message
  | moduleNotFound name => "Could not load module '" ++ name ++ "'."
  | moduleRefused name error =>
    "Could not compile module '" ++ name ++ "': " ++ error.report
  | host message => message

/-- Host failures come from outside, all other faults from the script. -/
def origin : Fault → Origin
  | host _ => .foreign
  | _ => .script

end Fault

/-- An active function in a trace. -/
structure TraceEntry where
  /-- Source line of the instruction that was being executed. -/
  line : Nat
  /-- Name of the function, `script` for the body of a module. -/
  function : String
  /-- Name of the module in which it was compiled. -/
  moduleName : String
deriving Repr, DecidableEq

/-- The line of a report for an entry. -/
def TraceEntry.text (entry : TraceEntry) : String :=
  let place := "[line " ++ Text.decimal entry.line ++ "] in " ++ entry.function
  if entry.function = "script" then place else place ++ "()"

/-- A fault with the trace of the call that it ended. -/
structure RuntimeError where
  fault : Fault
  /-- Functions that were active in the call, innermost first. -/
  trace : List TraceEntry
deriving Repr, DecidableEq

namespace RuntimeError

/-- The wording of the error. -/
def message (error : RuntimeError) : String :=
  error.fault.message

/-- The error with its trace, one line per entry. -/
def report (error : RuntimeError) : String :=
  error.trace.foldl (fun text entry => text ++ "\n" ++ entry.text) error.message

/-- Line of the innermost active function, zero if there is none. -/
def line (error : RuntimeError) : Nat :=
  match error.trace with
  | [] => 0
  | innermost :: _ => innermost.line

end RuntimeError

end ScriptEngine
