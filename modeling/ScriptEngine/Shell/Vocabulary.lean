import ScriptEngine.Shell.Command

/-!
# The vocabulary of the shell

The words that the shell can complete and colour.
-/

namespace ScriptEngine.Shell.Vocabulary

/-- Reserved words. -/
def keywords : List String :=
  ["and", "as", "class", "else", "for", "fun", "if", "import", "or", "print", "return",
    "static", "var", "while"]

/-- Reserved words that stand for a value. -/
def literals : List String :=
  ["true", "false", "null", "this"]

/-- Names of the built-in classes. -/
def builtins : List String :=
  ["Array", "Map"]

/-- All words that can be completed, in the order in which they are offered. -/
def words : List String :=
  keywords ++ literals ++ builtins ++ Command.all.map Command.completion

end ScriptEngine.Shell.Vocabulary
