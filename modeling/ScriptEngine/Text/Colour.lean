import ScriptEngine.Text.Column

/-!
# Coloured text

Texts for a terminal.  A colour or an emphasis is switched on by a control
sequence before the text and off by one after it; the text between them is
unchanged.
-/

namespace ScriptEngine.Text

/-- Foreground colours of a terminal. -/
inductive Colour where
  | red
  | green
  | yellow
  | blue
  | magenta
  | cyan
  | white
  | brightGreen
  | brightYellow
  | brightCyan
deriving Repr, DecidableEq

/-- The number that selects a colour. -/
def Colour.code : Colour → Nat
  | red => 31
  | green => 32
  | yellow => 33
  | blue => 34
  | magenta => 35
  | cyan => 36
  | white => 37
  | brightGreen => 92
  | brightYellow => 93
  | brightCyan => 96

/-- The character that begins a control sequence. -/
def escape : Char := '\x1b'

/-- The control sequence with a number. -/
def controlSequence (code : Nat) : String :=
  String.singleton escape ++ "[" ++ decimal code ++ "m"

/-- A text between two control sequences. -/
def between (first last : Nat) (text : String) : String :=
  controlSequence first ++ text ++ controlSequence last

/-- A text in a colour. -/
def paint (colour : Colour) (text : String) : String :=
  between colour.code 39 text

/-- A text in bold. -/
def bold (text : String) : String :=
  between 1 0 text

/-- A text in faint letters. -/
def dimmed (text : String) : String :=
  between 2 0 text

/-- How a piece of text is shown. -/
inductive Style where
  | plain
  | coloured (colour : Colour)
  /-- Bold and coloured. -/
  | strong (colour : Colour)
deriving Repr, DecidableEq

/-- A text in a style. -/
def Style.apply : Style → String → String
  | plain, text => text
  | coloured colour, text => paint colour text
  | strong colour, text => bold (paint colour text)

/-- A piece of text with its style. -/
structure Piece where
  style : Style
  text : List Char
deriving Repr, DecidableEq

/-- A piece with its control sequences. -/
def Piece.render (piece : Piece) : String :=
  piece.style.apply (String.ofList piece.text)

/-- Pieces with their control sequences, in order. -/
def renderPieces (pieces : List Piece) : String :=
  String.join (pieces.map Piece.render)

end ScriptEngine.Text
