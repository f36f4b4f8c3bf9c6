import ScriptEngine.Shell.Vocabulary
import ScriptEngine.Text.Alphanumeric
import ScriptEngine.Text.Colour

/-!
# Highlighting

The edited line is cut into pieces, each with a style.  The texts of the pieces
are the line; only colours are added.
-/

namespace ScriptEngine.Shell

open Text (Colour Piece Style)

/-- The style of a word. -/
def wordStyle (word : List Char) : Style :=
  let text := String.ofList word
  if Vocabulary.keywords.contains text then .strong .magenta
  else if Vocabulary.literals.contains text then .coloured .blue
  else if Vocabulary.builtins.contains text then .coloured .cyan
  else if word.all Char.isDigit then .coloured .yellow
  else .plain

/-- The piece for a word. -/
def wordPiece (word : List Char) : Piece where
  style := wordStyle word
  text := word

/-- A word in colour. -/
def highlightWord (word : String) : String :=
  (wordPiece word.toList).render

/-- The pieces for a word that may be empty. -/
def wordPieces : List Char → List Piece
  | [] => []
  | word => [wordPiece word]

/-- The style of a character outside words and texts. -/
def markStyle (isCommand : Bool) (character : Char) : Style :=
  if character == '"' then .coloured .green
  else if "()[]\x7b\x7d".toList.contains character then .coloured .yellow
  else if "+-*/%=<>!".toList.contains character then .coloured .cyan
  else if character == '.' && isCommand then .coloured .magenta
  else .plain

/-- A piece of one character. -/
def single (style : Style) (character : Char) : Piece where
  style
  text := [character]

/--
The pieces of characters; `word` holds the characters of the word before them
and `inText` says whether they stand inside quotation marks.
-/
def piecesFrom (isCommand : Bool) :
    (inText : Bool) → (word : List Char) → List Char → List Piece
  | _, word, [] => wordPieces word
  | true, word, character :: rest =>
    single (.coloured .green) character :: piecesFrom isCommand (character != '"') word rest
  | false, word, character :: rest =>
    if Text.isAlphanumeric character || character == '_' then
      piecesFrom isCommand false (word ++ [character]) rest
    else
      wordPieces word ++ single (markStyle isCommand character) character ::
        piecesFrom isCommand (character == '"') [] rest

/-- The pieces of a line. -/
def pieces (line : List Char) : List Piece :=
  piecesFrom (line.head? == some '.') false [] line

/-- A line in colour. -/
def highlight (line : String) : String :=
  Text.renderPieces (pieces line.toList)

end ScriptEngine.Shell
