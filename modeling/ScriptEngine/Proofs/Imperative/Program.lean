import ScriptEngine.Proofs.Compiler.ExpressionFlow
import ScriptEngine.Proofs.Syntax.Grammar

/-!
# Imperative programs

The part of the language without functions, classes, containers and imports:
variables, operators, `print`, blocks, conditions and loops.  Programs are
written as trees, and `Reads` is their grammar:

    declaration  → "var" NAME ";" | "var" NAME "=" expression ";" | statement
    statement    → "print" expression ";" | expression ";"
                 | "{" declaration* "}"
                 | "if" "(" expression ")" statement ("else" statement)?
                 | "while" "(" expression ")" statement
                 | "for" "(" initializer expression? ";" expression? ")" statement
    initializer  → ";" | "var" NAME ";" | "var" NAME "=" expression ";" | expression ";"

An `else` belongs to the innermost condition that can have it.
-/

namespace ScriptEngine.Imperative

open Syntax (Literal Derives)

/-- The name of a variable. -/
structure Name where
  spelling : String
  isName : IsVariableName spelling

/-- The token of a name. -/
abbrev Name.token (name : Name) : TokenKind :=
  .identifier name.spelling

/-- An expression without calls, properties, subscripts and array literals. -/
inductive Expr where
  | number (value : Float)
  | string (content : String)
  | literal (word : Literal)
  | named (name : Name)
  /-- An expression in parentheses. -/
  | grouping (inner : Expr)
  | unary (operator : UnaryOperator) (operand : Expr)
  | binary (operator : BinaryOperator) (left right : Expr)
  | conjunction (left right : Expr)
  | disjunction (left right : Expr)
  | assign (name : Name) (value : Expr)

/-- The expression as one of the whole language. -/
def Expr.tree : Expr → Syntax.Expr
  | number value => .number value
  | string content => .string content
  | literal word => .literal word
  | named name => .named name.spelling
  | grouping inner => .grouping inner.tree
  | unary operator operand => .unary operator operand.tree
  | binary operator left right => .binary operator left.tree right.tree
  | conjunction left right => .conjunction left.tree right.tree
  | disjunction left right => .disjunction left.tree right.tree
  | assign name value => .assignName name.spelling value.tree

/-- A statement or declaration, or several of them in a row. -/
inductive Stmt where
  | nothing
  | followed (first rest : Stmt)
  /-- The declaration of a variable, which is null unless it has an initialiser. -/
  | declare (name : Name) (initializer : Option Expr)
  | expression (value : Expr)
  | print (value : Expr)
  | block (body : Stmt)
  | conditional (condition : Expr) (consequence alternative : Stmt)
  /-- A loop with a condition. -/
  | loop (condition : Expr) (body : Stmt)
  /-- A counting loop; without a condition it has no end of its own. -/
  | counted (initializer : Stmt) (condition increment : Option Expr) (body : Stmt)

/-! ## Grammar -/

/-- The tokens are an expression with the given tree. -/
def Expr.Spelled (value : Expr) (tokens : List TokenKind) : Prop :=
  Derives .assignment tokens value.tree

/-- `Clause mark tokens value? rest`: an expression or nothing, a mark, and then `rest`. -/
inductive Clause (mark : Punctuation) :
    List TokenKind → Option Expr → List TokenKind → Prop where
  | absent {rest : List TokenKind} : Clause mark (.punctuation mark :: rest) none rest
  | present
      {value : Expr} {tokens rest : List TokenKind}
      (spelled : value.Spelled tokens) :
      Clause mark (tokens ++ .punctuation mark :: rest) (some value) rest

/-- What can be read. -/
inductive Form where
  | declarations
  | declaration
  | statement
  | initializer
deriving Repr, DecidableEq

/-- `Reads form tokens statement rest`: code of a form, and then `rest`. -/
inductive Reads : Form → List TokenKind → Stmt → List TokenKind → Prop where
  | nothing {rest : List TokenKind} : Reads .declarations rest .nothing rest
  | followed
      {first others : Stmt} {tokens between rest : List TokenKind}
      (firstRead : Reads .declaration tokens first between)
      (othersRead : Reads .declarations between others rest) :
      Reads .declarations tokens (.followed first others) rest
  | declare
      {name : Name} {rest : List TokenKind} :
      Reads .declaration
        (.keyword .varWord :: name.token :: .punctuation .semicolon :: rest)
        (.declare name none) rest
  | initialized
      {name : Name} {value : Expr} {tokens rest : List TokenKind}
      (spelled : value.Spelled tokens) :
      Reads .declaration
        (.keyword .varWord :: name.token :: .punctuation .equal ::
          (tokens ++ .punctuation .semicolon :: rest))
        (.declare name (some value)) rest
  | statement
      {code : Stmt} {tokens rest : List TokenKind}
      (read : Reads .statement tokens code rest) :
      Reads .declaration tokens code rest
  | print
      {value : Expr} {tokens rest : List TokenKind}
      (spelled : value.Spelled tokens) :
      Reads .statement
        (.keyword .printWord :: (tokens ++ .punctuation .semicolon :: rest))
        (.print value) rest
  | expression
      {value : Expr} {tokens rest : List TokenKind}
      (spelled : value.Spelled tokens) :
      Reads .statement (tokens ++ .punctuation .semicolon :: rest) (.expression value) rest
  | block
      {body : Stmt} {tokens rest : List TokenKind}
      (read : Reads .declarations tokens body (.punctuation .rightBrace :: rest)) :
      Reads .statement (.punctuation .leftBrace :: tokens) (.block body) rest
  | conditional
      {condition : Expr} {consequence : Stmt} {tokens between rest : List TokenKind}
      (spelled : condition.Spelled tokens)
      (read : Reads .statement between consequence rest)
      (unfollowed : rest.head? ≠ some (.keyword .elseWord)) :
      Reads .statement
        (.keyword .ifWord :: .punctuation .leftParen ::
          (tokens ++ .punctuation .rightParen :: between))
        (.conditional condition consequence .nothing) rest
  | alternative
      {condition : Expr} {consequence alternative : Stmt}
      {tokens between otherwise rest : List TokenKind}
      (spelled : condition.Spelled tokens)
      (read : Reads .statement between consequence (.keyword .elseWord :: otherwise))
      (otherwiseRead : Reads .statement otherwise alternative rest) :
      Reads .statement
        (.keyword .ifWord :: .punctuation .leftParen ::
          (tokens ++ .punctuation .rightParen :: between))
        (.conditional condition consequence alternative) rest
  | loop
      {condition : Expr} {body : Stmt} {tokens between rest : List TokenKind}
      (spelled : condition.Spelled tokens)
      (read : Reads .statement between body rest) :
      Reads .statement
        (.keyword .whileWord :: .punctuation .leftParen ::
          (tokens ++ .punctuation .rightParen :: between))
        (.loop condition body) rest
  | counted
      {initializer body : Stmt} {condition increment : Option Expr}
      {first second third fourth rest : List TokenKind}
      (initializerRead : Reads .initializer first initializer second)
      (conditionRead : Clause .semicolon second condition third)
      (incrementRead : Clause .rightParen third increment fourth)
      (bodyRead : Reads .statement fourth body rest) :
      Reads .statement
        (.keyword .forWord :: .punctuation .leftParen :: first)
        (.counted initializer condition increment body) rest
  | uninitialized {rest : List TokenKind} :
      Reads .initializer (.punctuation .semicolon :: rest) .nothing rest
  | declared
      {code : Stmt} {tokens rest : List TokenKind}
      (read : Reads .declaration (.keyword .varWord :: tokens) code rest) :
      Reads .initializer (.keyword .varWord :: tokens) code rest
  | evaluated
      {value : Expr} {tokens rest : List TokenKind}
      (spelled : value.Spelled tokens) :
      Reads .initializer (tokens ++ .punctuation .semicolon :: rest) (.expression value) rest

/-- A text is that of a program. -/
def Stmt.IsWrittenAs (program : Stmt) (source : String) : Prop :=
  ∃ tokens,
    Token.scan source = .ok tokens ∧
      Reads .declarations (tokens.toList.map Token.kind) program [.endOfInput]

end ScriptEngine.Imperative
