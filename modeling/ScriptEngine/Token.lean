/-!
# Tokens

The words of the language: literals, identifiers, keywords and punctuation
marks.  A token also records its text, where the text stands in the source
(in bytes) and the line on which it begins.
-/

namespace ScriptEngine

/-- Reserved words. -/
inductive Keyword where
  | andWord
  | asWord
  | classWord
  | elseWord
  | falseWord
  | forWord
  | funWord
  | ifWord
  | importWord
  | nullWord
  | orWord
  | printWord
  | returnWord
  | staticWord
  | thisWord
  | trueWord
  | varWord
  | whileWord
deriving Repr, DecidableEq

namespace Keyword

/-- The spelling of a reserved word. -/
def spelling : Keyword → String
  | andWord => "and"
  | asWord => "as"
  | classWord => "class"
  | elseWord => "else"
  | falseWord => "false"
  | forWord => "for"
  | funWord => "fun"
  | ifWord => "if"
  | importWord => "import"
  | nullWord => "null"
  | orWord => "or"
  | printWord => "print"
  | returnWord => "return"
  | staticWord => "static"
  | thisWord => "this"
  | trueWord => "true"
  | varWord => "var"
  | whileWord => "while"

/-- All reserved words. -/
def all : List Keyword :=
  [andWord, asWord, classWord, elseWord, falseWord, forWord, funWord, ifWord, importWord,
    nullWord, orWord, printWord, returnWord, staticWord, thisWord, trueWord, varWord, whileWord]

/-- The reserved word with the given spelling. -/
def ofSpelling? (name : String) : Option Keyword :=
  all.find? fun word => word.spelling == name

/-- Whether a statement or declaration can begin with the word. -/
def startsStatement : Keyword → Bool
  | classWord | funWord | varWord | forWord | ifWord | whileWord | printWord | returnWord
  | importWord => true
  | _ => false

theorem ofSpelling?_spelling (word : Keyword) : ofSpelling? word.spelling = some word := by
  cases word <;> decide

end Keyword

/-- Punctuation marks and operators. -/
inductive Punctuation where
  | leftParen
  | rightParen
  | leftBrace
  | rightBrace
  | leftBracket
  | rightBracket
  | comma
  | dot
  | semicolon
  | colon
  | minus
  | plus
  | slash
  | star
  | percent
  | bang
  | bangEqual
  | equal
  | equalEqual
  | greater
  | greaterEqual
  | less
  | lessEqual
deriving Repr, DecidableEq

/-- What a token says. -/
inductive TokenKind where
  | number (value : Float)
  | string (content : String)
  | identifier (name : String)
  | keyword (word : Keyword)
  | punctuation (mark : Punctuation)
  | endOfInput

namespace TokenKind

instance : Inhabited TokenKind where
  default := endOfInput

/-- Whether the token is the given punctuation mark. -/
def isMark (expected : Punctuation) : TokenKind → Bool
  | punctuation mark => mark == expected
  | _ => false

/-- Whether the token is the given reserved word. -/
def isWord (expected : Keyword) : TokenKind → Bool
  | keyword word => word == expected
  | _ => false

/-- Whether the token is a reserved word. -/
def isKeyword : TokenKind → Bool
  | keyword _ => true
  | _ => false

/-- Whether the token ends the input. -/
def isEnd : TokenKind → Bool
  | endOfInput => true
  | _ => false

/-- Whether the token can begin a statement that is not an expression. -/
def startsStatement : TokenKind → Bool
  | keyword word => word.startsStatement
  | _ => false

end TokenKind

/-- A token of a source text. -/
structure Token where
  kind : TokenKind
  /-- Byte position of the first character. -/
  start : Nat
  /-- Byte position after the last character. -/
  stop : Nat
  /-- Line of the first character, counted from one. -/
  line : Nat
  /-- The characters of the token. -/
  lexeme : String
deriving Inhabited

namespace Token

/-- Number of bytes of the token. -/
def length (token : Token) : Nat :=
  token.stop - token.start

/-- Whether the token has no characters. -/
def isEmpty (token : Token) : Bool :=
  token.start == token.stop

end Token

end ScriptEngine
