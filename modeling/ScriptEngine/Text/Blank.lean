import ScriptEngine.Text.Ranges

/-!
# White space

The characters with the Unicode property `White_Space`, and trimming of texts
by that property.
-/

namespace ScriptEngine.Text

/-- Code points with the property `White_Space`. -/
def blankRanges : Ranges :=
  [(9, 13), (32, 32), (133, 133), (160, 160), (5760, 5760), (8192, 8202), (8232, 8233),
    (8239, 8239), (8287, 8287), (12288, 12288)]

/-- Whether the character is white space. -/
def isBlank (character : Char) : Bool :=
  blankRanges.covers character.toNat

/-- The characters without the white space before them. -/
def trimStart (characters : List Char) : List Char :=
  characters.dropWhile isBlank

/-- The characters without the white space after them. -/
def trimEnd (characters : List Char) : List Char :=
  (characters.reverse.dropWhile isBlank).reverse

/-- The characters without the white space at both ends. -/
def trim (characters : List Char) : List Char :=
  trimEnd (trimStart characters)

@[simp]
theorem trim_nil : trim [] = [] := rfl

end ScriptEngine.Text
