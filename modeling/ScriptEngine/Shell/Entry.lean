import ScriptEngine.Text.Blank

/-!
# Complete entries

An entry may extend over several lines.  It goes on as long as a bracket or a
text is open, or while it ends in an operator.  A closing bracket without a
partner ends the entry; the compiler will complain about it.
-/

namespace ScriptEngine.Shell

/-- Where in a text the bracket check is. -/
inductive BracketContext where
  | code
  | quoted
  | comment
deriving Repr, DecidableEq

/-- The closing partner of an opening bracket. -/
def closingOf? : Char → Option Char
  | '(' => some ')'
  | '[' => some ']'
  | '\x7b' => some '\x7d'
  | _ => none

/-- Whether a character is a closing bracket. -/
def isClosing (character : Char) : Bool :=
  character == ')' || character == ']' || character == '\x7d'

/--
Whether no bracket or text is left open at the end; `awaited` are the closing
brackets still to come, innermost first, and `previous` is the character before.
-/
def balancedFrom : BracketContext → List Char → Char → List Char → Bool
  | context, awaited, _, [] => awaited.isEmpty && context != .quoted
  | .comment, awaited, _, character :: rest =>
    balancedFrom (if character = '\n' then .code else .comment) awaited character rest
  | .quoted, awaited, _, character :: rest =>
    balancedFrom (if character = '"' then .code else .quoted) awaited character rest
  | .code, awaited, previous, character :: rest =>
    if character = '"' then
      balancedFrom .quoted awaited character rest
    else if character = '/' ∧ previous = '/' then
      balancedFrom .comment awaited character rest
    else
      match closingOf? character with
      | some closing => balancedFrom .code (closing :: awaited) character rest
      | none =>
        if isClosing character then
          match awaited with
          | [] => true
          | expected :: outer =>
            if expected = character then balancedFrom .code outer character rest else true
        else
          balancedFrom .code awaited character rest

/-- Whether no bracket or text is left open, or a closing bracket has no partner. -/
def isBalanced (entry : String) : Bool :=
  balancedFrom .code [] '\x00' entry.toList

/-- Characters after which an entry goes on. -/
def continuationMarks : List Char :=
  "+-*/%=,.".toList

/-- Whether a text ends in a character after which it goes on and is no command. -/
def endsInOperator (entry : String) : Bool :=
  let trimmed := Text.trimEnd entry.toList
  (trimmed.getLast?.any continuationMarks.contains) && trimmed.head? != some '.'

/-- Whether an entry is complete. -/
def isComplete (entry : String) : Bool :=
  isBalanced entry && !endsInOperator entry

end ScriptEngine.Shell
