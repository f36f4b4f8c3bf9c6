import ScriptEngine.Compilation.Precedence

/-!
# Syntax trees of expressions

The compiler never builds a tree.  The trees here are what its input means:
they serve to say which sequences of tokens are expressions and which code
belongs to them.  Parentheses are kept as a node of their own, so that a tree
determines its tokens.
-/

namespace ScriptEngine.Syntax

/-- The words that denote a value. -/
inductive Literal where
  | trueWord
  | falseWord
  | nullWord
deriving Repr, DecidableEq

namespace Literal

/-- The reserved word of a literal. -/
def keyword : Literal → Keyword
  | trueWord => .trueWord
  | falseWord => .falseWord
  | nullWord => .nullWord

/-- The instruction that pushes a literal. -/
def instruction : Literal → Instruction
  | trueWord => .pushTrue
  | falseWord => .pushFalse
  | nullWord => .pushNull

/-- The literal that an instruction pushes. -/
def ofInstruction? : Instruction → Option Literal
  | .pushTrue => some trueWord
  | .pushFalse => some falseWord
  | .pushNull => some nullWord
  | _ => none

end Literal

/-- An expression. -/
inductive Expr where
  | number (value : Float)
  | string (content : String)
  | literal (word : Literal)
  | named (name : String)
  /-- The receiver of a method. -/
  | receiver
  /-- An expression in parentheses. -/
  | grouping (inner : Expr)
  | array (elements : List Expr)
  | unary (operator : UnaryOperator) (operand : Expr)
  | binary (operator : BinaryOperator) (left right : Expr)
  | conjunction (left right : Expr)
  | disjunction (left right : Expr)
  | call (callee : Expr) (arguments : List Expr)
  | property (owner : Expr) (name : String)
  /-- A property that is called at once. -/
  | invocation (owner : Expr) (name : String) (arguments : List Expr)
  | subscript (owner index : Expr)
  | assignName (name : String) (value : Expr)
  | assignProperty (owner : Expr) (name : String) (value : Expr)
  | assignSubscript (owner index value : Expr)
deriving Inhabited

namespace Expr

/-- Whether an expression is the bare reading of a property. -/
def isProperty : Expr → Bool
  | property _ _ => true
  | _ => false

end Expr

mutual

/-- Every name that is assigned satisfies a condition. -/
def Expr.Assigns (allowed : String → Prop) : Expr → Prop
  | .number _ | .string _ | .literal _ | .named _ | .receiver => True
  | .grouping inner => inner.Assigns allowed
  | .array elements => AllAssign allowed elements
  | .unary _ operand => operand.Assigns allowed
  | .binary _ left right | .conjunction left right | .disjunction left right =>
    left.Assigns allowed ∧ right.Assigns allowed
  | .call callee arguments => callee.Assigns allowed ∧ AllAssign allowed arguments
  | .property owner _ => owner.Assigns allowed
  | .invocation owner _ arguments => owner.Assigns allowed ∧ AllAssign allowed arguments
  | .subscript owner index => owner.Assigns allowed ∧ index.Assigns allowed
  | .assignName name value => allowed name ∧ value.Assigns allowed
  | .assignProperty owner _ value => owner.Assigns allowed ∧ value.Assigns allowed
  | .assignSubscript owner index value =>
    owner.Assigns allowed ∧ index.Assigns allowed ∧ value.Assigns allowed

/-- Every name that one of several expressions assigns satisfies a condition. -/
def AllAssign (allowed : String → Prop) : List Expr → Prop
  | [] => True
  | first :: rest => first.Assigns allowed ∧ AllAssign allowed rest

end

end ScriptEngine.Syntax
