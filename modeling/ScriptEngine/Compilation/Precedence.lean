import ScriptEngine.Instruction
import ScriptEngine.Token

/-!
# Operators and their binding power

Every token is looked up in two tables: what it does at the beginning of an
expression (`TokenKind.leading?`) and what it does after an operand
(`TokenKind.trailing?`).  A form after an operand has a binding power; a binary
operator takes a right operand that binds tighter than the operator itself, so
that it groups to the left.
-/

namespace ScriptEngine

/-- Binding powers, loosest first. -/
inductive Precedence where
  | assignment
  | disjunction
  | conjunction
  | equality
  | comparison
  | term
  | factor
  | unary
  | call
  | primary
deriving Repr, DecidableEq

namespace Precedence

/-- The place of a binding power among all of them. -/
def rank : Precedence → Nat
  | assignment => 1
  | disjunction => 2
  | conjunction => 3
  | equality => 4
  | comparison => 5
  | term => 6
  | factor => 7
  | unary => 8
  | call => 9
  | primary => 10

/-- The next tighter binding power. -/
def tighter : Precedence → Precedence
  | assignment => disjunction
  | disjunction => conjunction
  | conjunction => equality
  | equality => comparison
  | comparison => term
  | term => factor
  | factor => unary
  | unary => call
  | call | primary => primary

end Precedence

/-- Operators with one operand. -/
inductive UnaryOperator where
  | negative
  | complement
deriving Repr, DecidableEq

/-- The instruction of an operator. -/
def UnaryOperator.instruction : UnaryOperator → Instruction
  | negative => .negate
  | complement => .negateTruth

/-- Operators with two operands that are both evaluated. -/
inductive BinaryOperator where
  | plus
  | minus
  | times
  | dividedBy
  | remainder
  | equal
  | notEqual
  | greater
  | greaterEqual
  | less
  | lessEqual
deriving Repr, DecidableEq

namespace BinaryOperator

/-- The binding power of an operator. -/
def precedence : BinaryOperator → Precedence
  | plus | minus => .term
  | times | dividedBy | remainder => .factor
  | equal | notEqual => .equality
  | greater | greaterEqual | less | lessEqual => .comparison

/-- The instructions of an operator. -/
def instructions : BinaryOperator → List Instruction
  | plus => [.add]
  | minus => [.subtract]
  | times => [.multiply]
  | dividedBy => [.divide]
  | remainder => [.modulo]
  | equal => [.equal]
  | notEqual => [.equal, .negateTruth]
  | greater => [.greater]
  | greaterEqual => [.less, .negateTruth]
  | less => [.less]
  | lessEqual => [.greater, .negateTruth]

end BinaryOperator

/-- What a token does at the beginning of an expression. -/
inductive LeadingForm where
  | grouping
  | arrayLiteral
  | unary (operator : UnaryOperator)
  | number (value : Float)
  | string (content : String)
  /-- One of the words `true`, `false` and `null`. -/
  | literal (instruction : Instruction)
  | named (name : String)
  | receiver

/-- What a token does after an operand. -/
inductive TrailingForm where
  | binary (operator : BinaryOperator)
  | conjunction
  | disjunction
  | call
  | property
  | subscript
deriving Repr, DecidableEq

/-- The binding power of a form after an operand. -/
def TrailingForm.precedence : TrailingForm → Precedence
  | binary operator => operator.precedence
  | conjunction => .conjunction
  | disjunction => .disjunction
  | call | property | subscript => .call

namespace TokenKind

/-- What the token does at the beginning of an expression, if it can stand there. -/
def leading? : TokenKind → Option LeadingForm
  | number value => some (.number value)
  | string content => some (.string content)
  | identifier name => some (.named name)
  | keyword .trueWord => some (.literal .pushTrue)
  | keyword .falseWord => some (.literal .pushFalse)
  | keyword .nullWord => some (.literal .pushNull)
  | keyword .thisWord => some .receiver
  | punctuation .leftParen => some .grouping
  | punctuation .leftBracket => some .arrayLiteral
  | punctuation .minus => some (.unary .negative)
  | punctuation .bang => some (.unary .complement)
  | _ => none

/-- What the token does after an operand, if it can stand there. -/
def trailing? : TokenKind → Option TrailingForm
  | keyword .andWord => some .conjunction
  | keyword .orWord => some .disjunction
  | punctuation .leftParen => some .call
  | punctuation .leftBracket => some .subscript
  | punctuation .dot => some .property
  | punctuation .minus => some (.binary .minus)
  | punctuation .plus => some (.binary .plus)
  | punctuation .slash => some (.binary .dividedBy)
  | punctuation .star => some (.binary .times)
  | punctuation .percent => some (.binary .remainder)
  | punctuation .bangEqual => some (.binary .notEqual)
  | punctuation .equalEqual => some (.binary .equal)
  | punctuation .greater => some (.binary .greater)
  | punctuation .greaterEqual => some (.binary .greaterEqual)
  | punctuation .less => some (.binary .less)
  | punctuation .lessEqual => some (.binary .lessEqual)
  | _ => none

end TokenKind

end ScriptEngine
