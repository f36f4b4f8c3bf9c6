import ScriptEngine.Shell.Vocabulary
import ScriptEngine.Text.Alphanumeric
import ScriptEngine.Text.Bytes
import ScriptEngine.Text.Colour

/-!
# Completion

The word before a position of the edited line is extended to the words of the
vocabulary that begin with it.  Positions are counted in bytes.  The word is
taken to begin one byte after the start of the last character that cannot be
part of a word; where that character is longer than a byte the position lies
inside it and there is no answer.
-/

namespace ScriptEngine.Shell

/-- Whether a character can be part of a word that is completed. -/
def isWordCharacter (character : Char) : Bool :=
  Text.isAlphanumeric character || character == '_' || character == '.'

/--
The position after the first byte of the last separator; `offset` is the
position of the characters and `found` the answer for those before them.
-/
def wordStartFrom : List Char → Nat → Nat → Nat
  | [], _, found => found
  | character :: rest, offset, found =>
    wordStartFrom rest (offset + character.utf8Size)
      (if isWordCharacter character then found else offset + 1)

/-- The position at which the last word of a line begins. -/
def wordStart (line : List Char) : Nat :=
  wordStartFrom line 0 0

/-- The last word of a line, if its beginning does not lie inside a character. -/
def lastWord? (line : List Char) : Option (List Char) :=
  (Text.splitAtByte? line (wordStart line)).map Prod.snd

/-- A word of the vocabulary that extends a word. -/
structure Completion where
  /-- The whole word. -/
  display : String
  /-- What is missing. -/
  replacement : String
deriving Repr, DecidableEq

/-- What is left of a text after the characters it begins with. -/
def stripStart? : List Char → List Char → Option (List Char)
  | [], rest => some rest
  | _ :: _, [] => none
  | expected :: more, character :: rest =>
    if expected = character then stripStart? more rest else none

/-- The completion of a word to a word of the vocabulary. -/
def completeTo? (word : List Char) (candidate : String) : Option Completion :=
  (stripStart? word candidate.toList).map fun rest =>
    { display := candidate, replacement := String.ofList rest }

/-- All completions of a word. -/
def completionsOf (word : List Char) : List Completion :=
  Vocabulary.words.filterMap (completeTo? word)

/--
The completions of the word before a position.  There is no answer when the
position or the beginning of the word lies inside a character.
-/
def complete? (line : String) (position : Nat) : Option (List Completion) := do
  let (before, _) ← Text.splitAtByte? line.toList position
  match ← lastWord? before with
  | [] => return []
  | word => return completionsOf word

/-- Whether a word of the vocabulary goes on where a word ends. -/
def goesOn (word : List Char) (candidate : String) : Bool :=
  word.isPrefixOf candidate.toList && Text.byteLength word < candidate.utf8ByteSize

/-- What the first word of the vocabulary that goes on after a word adds to it. -/
def hintFor (word : List Char) : Option String :=
  if Text.byteLength word < 2 then
    none
  else
    (Vocabulary.words.find? (goesOn word)).map fun candidate =>
      Text.dimmed (String.ofList (candidate.toList.drop word.length))

/--
What is shown in faint letters behind the end of a line.  There is no answer
when the beginning of the last word lies inside a character.
-/
def hint? (line : String) (position : Nat) : Option (Option String) :=
  if position < line.utf8ByteSize then
    some none
  else
    (lastWord? line.toList).map hintFor

end ScriptEngine.Shell
