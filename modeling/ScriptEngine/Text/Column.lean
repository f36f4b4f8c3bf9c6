/-!
# Columns of a listing

Padding of texts and numbers to a least width, counted in characters.  A text
that is already wider stays as it is.
-/

namespace ScriptEngine.Text

/-- A run of one character. -/
def run (character : Char) (count : Nat) : String :=
  String.ofList (List.replicate count character)

/-- The text followed by blanks up to the width. -/
def padRight (width : Nat) (text : String) : String :=
  text ++ run ' ' (width - text.length)

/-- The text preceded by blanks up to the width. -/
def padLeft (width : Nat) (text : String) : String :=
  run ' ' (width - text.length) ++ text

/-- A number in decimal digits. -/
def decimal (number : Nat) : String :=
  String.ofList (Nat.toDigits 10 number)

/-- A number in decimal digits, preceded by zeros up to the width. -/
def zeroPadded (width number : Nat) : String :=
  run '0' (width - (decimal number).length) ++ decimal number

/-- A number in decimal digits, preceded by blanks up to the width. -/
def rightAligned (width number : Nat) : String :=
  padLeft width (decimal number)

end ScriptEngine.Text
