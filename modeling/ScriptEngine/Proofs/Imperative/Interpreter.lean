import ScriptEngine.Machine.Fault
import ScriptEngine.Number.Dyadic
import ScriptEngine.Display
import ScriptEngine.Proofs.Imperative.Program

/-!
# Interpreting imperative programs

The meaning of a program, computed from its tree.  Variables of a block live as
long as the block does and hide those of the blocks around it; outside all blocks
a declaration defines a variable of the module.  A variable of the module that has
not been defined can be neither read nor assigned, and the value of an assignment
is computed before its variable is looked up.  The right operand of `and` and `or`
is evaluated only if it decides; null and false fail a condition, everything else
passes.

A program need not come to an end.  `Stmt.run` takes a bound on the rounds of
every single loop, and has no result where a loop reaches it.
-/

namespace ScriptEngine.Imperative

/-! ## Operators -/

/-- Whether a condition with this value holds. -/
def holds : Value → Bool
  | .null | .bool false => false
  | _ => true

/-- The value of a word. -/
def wordValue : Syntax.Literal → Value
  | .trueWord => .bool true
  | .falseWord => .bool false
  | .nullWord => .null

/-- The sum of two numbers; with a text on either side, the concatenation. -/
def sum : Value → Value → Except Fault Value
  | .number left, .number right => .ok (.number (left + right))
  | .string left, .string right => .ok (.string (left ++ right))
  | .string left, .number right => .ok (.string (left ++ Number.display right))
  | .number left, .string right => .ok (.string (Number.display left ++ right))
  | _, _ => .error .operandsNotNumbers

/-- An operation on two numbers. -/
def numeric (operation : Float → Float → Value) : Value → Value → Except Fault Value
  | .number left, .number right => .ok (operation left right)
  | _, _ => .error .operandsNotNumbers

/-- The value of an operator with one operand. -/
def unaryValue : UnaryOperator → Value → Except Fault Value
  | .negative, .number value => .ok (.number (-value))
  | .negative, _ => .error .operandNotNumber
  | .complement, value => .ok (.bool !(holds value))

/-- The value of an operator with two operands.  At most means not greater, at least not less. -/
def binaryValue : BinaryOperator → Value → Value → Except Fault Value
  | .plus, left, right => sum left right
  | .minus, left, right => numeric (fun left right => .number (left - right)) left right
  | .times, left, right => numeric (fun left right => .number (left * right)) left right
  | .dividedBy, left, right => numeric (fun left right => .number (left / right)) left right
  | .remainder, left, right =>
    numeric (fun left right => .number (Number.remainder left right)) left right
  | .equal, left, right => .ok (.bool (left.equals right))
  | .notEqual, left, right => .ok (.bool !(left.equals right))
  | .greater, left, right => numeric (fun left right => .bool (left > right)) left right
  | .lessEqual, left, right => numeric (fun left right => .bool !(left > right)) left right
  | .less, left, right => numeric (fun left right => .bool (left < right)) left right
  | .greaterEqual, left, right => numeric (fun left right => .bool !(left < right)) left right

/-! ## Variables -/

/-- The variables of a block, latest first. -/
abbrev Block := List (String × Value)

/-- What a program works on. -/
structure Store where
  /-- The blocks around the present place, innermost first. -/
  blocks : List Block
  /-- The variables of the module that have been defined. -/
  globals : String → Option Value
  /-- The texts written, in order. -/
  texts : List String

/-- The value of the latest variable of a block with a name. -/
def Block.find? (name : String) : Block → Option Value
  | [] => none
  | (other, value) :: earlier => if other = name then some value else find? name earlier

/-- Assigns the latest variable of a block with a name. -/
def Block.assign? (name : String) (new : Value) : Block → Option Block
  | [] => none
  | (other, value) :: earlier =>
    if other = name then
      some ((other, new) :: earlier)
    else
      (assign? name new earlier).map ((other, value) :: ·)

/-- The value of the innermost variable with a name. -/
def findLocal? (name : String) : List Block → Option Value
  | [] => none
  | block :: outer => (block.find? name).or (findLocal? name outer)

/-- Assigns the innermost variable with a name. -/
def assignLocal? (name : String) (new : Value) : List Block → Option (List Block)
  | [] => none
  | block :: outer =>
    match block.assign? name new with
    | some changed => some (changed :: outer)
    | none => (assignLocal? name new outer).map (block :: ·)

namespace Store

/-- The value of a variable. -/
def lookup? (store : Store) (name : String) : Option Value :=
  (findLocal? name store.blocks).or (store.globals name)

/-- The store with another value of a variable of the module. -/
def define (store : Store) (name : String) (value : Value) : Store :=
  { store with globals := fun other => if other = name then some value else store.globals other }

/-- Assigns a variable that exists. -/
def assign? (store : Store) (name : String) (value : Value) : Option Store :=
  match assignLocal? name value store.blocks with
  | some blocks => some { store with blocks }
  | none => if (store.globals name).isSome then some (store.define name value) else none

/-- Declares a variable in the innermost block, or in the module outside all blocks. -/
def declare (store : Store) (name : String) (value : Value) : Store :=
  match store.blocks with
  | [] => store.define name value
  | block :: outer => { store with blocks := ((name, value) :: block) :: outer }

/-- Enters a block. -/
def enter (store : Store) : Store :=
  { store with blocks := [] :: store.blocks }

/-- Leaves a block. -/
def leave (store : Store) : Store :=
  { store with blocks := store.blocks.tail }

/-- Writes a text. -/
def write (store : Store) (text : String) : Store :=
  { store with texts := store.texts ++ [text] }

end Store

/-! ## Evaluation -/

/-- A computation on a store, which ends with a result or a fault, or does not end in time. -/
abbrev Interpreter := ExceptT Fault (StateT Store Option)

namespace Interpreter

/-- Does not end in time. -/
def giveUp : Interpreter α :=
  fun _ => none

/-- Changes the store. -/
def change (step : Store → Store) : Interpreter Unit :=
  fun store => some (.ok (), step store)

/-- Ends with a result or a fault. -/
def result (outcome : Except Fault α) : Interpreter α :=
  fun store => some (outcome, store)

/-- Reads a variable. -/
def readVariable (name : String) : Interpreter Value :=
  fun store =>
    match store.lookup? name with
    | some value => some (.ok value, store)
    | none => some (.error (.undefinedVariable name), store)

/-- Assigns a variable. -/
def assignVariable (name : String) (value : Value) : Interpreter Unit :=
  fun store =>
    match store.assign? name value with
    | some assigned => some (.ok (), assigned)
    | none => some (.error (.undefinedVariable name), store)

/-- Makes rounds while a test succeeds, but fewer than a bound. -/
def rounds (test : Interpreter Bool) (round : Interpreter Unit) : Nat → Interpreter Unit
  | 0 => giveUp
  | bound + 1 => do
    if ← test then
      round
      rounds test round bound

end Interpreter

open Interpreter

/-- The value of an expression. -/
def Expr.eval : Expr → Interpreter Value
  | number value => return .number value
  | string content => return .string content
  | literal word => return wordValue word
  | named name => readVariable name.spelling
  | grouping inner => inner.eval
  | unary operator operand => do
    let value ← operand.eval
    result (unaryValue operator value)
  | binary operator left right => do
    let leftValue ← left.eval
    let rightValue ← right.eval
    result (binaryValue operator leftValue rightValue)
  | conjunction left right => do
    let value ← left.eval
    if holds value then right.eval else return value
  | disjunction left right => do
    let value ← left.eval
    if holds value then return value else right.eval
  | assign name value => do
    let new ← value.eval
    assignVariable name.spelling new
    return new

/-- Whether a condition holds; one that is left out does. -/
def test : Option Expr → Interpreter Bool
  | none => return true
  | some condition => do
    let value ← condition.eval
    return holds value

/-- Evaluates an expression for its effect, if there is one. -/
def perform : Option Expr → Interpreter Unit
  | none => return ()
  | some value => do
    let _ ← value.eval

/-- The first value of a variable. -/
def initialValue : Option Expr → Interpreter Value
  | none => return .null
  | some value => value.eval

/-- Runs a statement with a way to display values and a bound on the rounds of every loop. -/
def Stmt.run (display : Value → String) (bound : Nat) : Stmt → Interpreter Unit
  | nothing => return ()
  | followed first rest => do
    first.run display bound
    rest.run display bound
  | declare name initializer => do
    let value ← initialValue initializer
    change fun store => store.declare name.spelling value
  | expression value => perform (some value)
  | print value => do
    let value ← value.eval
    change fun store => store.write (display value ++ "\n")
  | block body => do
    change Store.enter
    body.run display bound
    change Store.leave
  | conditional condition consequence alternative => do
    if ← test (some condition) then
      consequence.run display bound
    else
      alternative.run display bound
  | loop condition body => rounds (test (some condition)) (body.run display bound) bound
  | counted initializer condition increment body => do
    change Store.enter
    initializer.run display bound
    rounds (test condition) (do body.run display bound; perform increment) bound
    change Store.leave

end ScriptEngine.Imperative
