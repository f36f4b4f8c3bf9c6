import ScriptEngine.Token
import ScriptEngine.Text.Bytes
import ScriptEngine.Text.Column
import ScriptEngine.Text.Identifier
import ScriptEngine.Number.Decimal

/-!
# From source text to tokens

A cursor walks over the characters of a source text.  `Cursor.next` skips white
space and comments and then reads one token; after an error the cursor stands
behind the characters that caused it, so that scanning can go on.
`Token.scan` stops at the first error, `Token.scanAll` never stops before the
end of the input.

Every token other than the end of the input takes at least one character
(`Cursor.next_shorter`), so both loops end.
-/

namespace ScriptEngine

/-- Why no token could be read. -/
inductive ScanProblem where
  | unexpectedCharacter (character : Char)
  | unterminatedString
deriving Repr, DecidableEq

namespace ScanProblem

/-- The wording of the problem. -/
def message : ScanProblem → String
  | unexpectedCharacter character => "Unexpected character '" ++ character.toString ++ "'."
  | unterminatedString => "Unterminated string."

end ScanProblem

/-- A problem and the line it was found on. -/
structure ScanError where
  line : Nat
  problem : ScanProblem
deriving Repr, DecidableEq

namespace ScanError

/-- The problem with its line. -/
def report (error : ScanError) : String :=
  "[line " ++ Text.decimal error.line ++ "] Error: " ++ error.problem.message

end ScanError

/-- A place in a source text. -/
structure Cursor where
  /-- The characters still to be read. -/
  rest : List Char
  /-- Number of bytes read. -/
  offset : Nat
  /-- Line of the next character, counted from one. -/
  line : Nat

namespace Cursor

/-- The cursor before the first character. -/
def ofSource (source : String) : Cursor :=
  { rest := source.toList, offset := 0, line := 1 }

/-- The cursor after the characters `read`, which `rest` follows. -/
def after (cursor : Cursor) (read rest : List Char) : Cursor :=
  { rest
    offset := cursor.offset + Text.byteLength read
    line := cursor.line + read.count '\n' }

/-- White space between tokens. -/
def isLayout (character : Char) : Bool :=
  character == ' ' || character == '\t' || character == '\n' || character == '\r'

/--
Skips white space and comments.  A comment begins with two slashes and ends
with its line; the flag tells whether the next character belongs to one.
-/
def skipLayout (inComment : Bool) : List Char → Nat → Nat → Cursor
  | [], offset, line => { rest := [], offset, line }
  | character :: rest, offset, line =>
    if character == '\n' then
      skipLayout false rest (offset + 1) (line + 1)
    else if inComment || isLayout character then
      skipLayout inComment rest (offset + character.utf8Size) line
    else if character == '/' && rest.head? == some '/' then
      skipLayout true rest (offset + 1) line
    else
      { rest := character :: rest, offset, line }

/-- The outcome of reading one token that begins with a given character. -/
inductive Recognition where
  /-- The token takes the first character and those of `tail`. -/
  | token (kind : TokenKind) (tail rest : List Char)
  /-- The input ends inside a string. -/
  | unterminated (tail : List Char)
  /-- No token begins with the character. -/
  | unexpected

/-- Reads a mark that is longer when an equals sign follows. -/
def orEqual (short long : Punctuation) (rest : List Char) : Recognition :=
  match rest with
  | '=' :: after => .token (.punctuation long) ['='] after
  | _ => .token (.punctuation short) [] rest

/-- Reads the rest of a string after its opening quote. -/
def recognizeString (rest : List Char) : Recognition :=
  let content := rest.takeWhile (· != '"')
  match rest.dropWhile (· != '"') with
  | [] => .unterminated content
  | quote :: after => .token (.string (String.ofList content)) (content ++ [quote]) after

/--
Reads the rest of a number after its first digit.  A point belongs to the
number only if a digit follows it.
-/
def recognizeNumber (first : Char) (rest : List Char) : Recognition :=
  let whole := rest.takeWhile Char.isDigit
  match rest.dropWhile Char.isDigit with
  | '.' :: digit :: after =>
    if digit.isDigit then
      let fraction := digit :: after.takeWhile Char.isDigit
      .token (.number (Number.ofDecimal (first :: whole) fraction 0))
        (whole ++ '.' :: fraction) (after.dropWhile Char.isDigit)
    else
      .token (.number (Number.ofDecimal (first :: whole) [] 0)) whole ('.' :: digit :: after)
  | after => .token (.number (Number.ofDecimal (first :: whole) [] 0)) whole after

/-- An identifier, unless the name is reserved. -/
def nameKind (name : String) : TokenKind :=
  match Keyword.ofSpelling? name with
  | some word => .keyword word
  | none => .identifier name

/-- Reads the rest of a name after its first character. -/
def recognizeName (first : Char) (rest : List Char) : Recognition :=
  let tail := rest.takeWhile Text.isIdentifierContinue
  .token (nameKind (String.ofList (first :: tail))) tail
    (rest.dropWhile Text.isIdentifierContinue)

/-- Reads the token that begins with the character `first`. -/
def recognize (first : Char) (rest : List Char) : Recognition :=
  match first with
  | '(' => .token (.punctuation .leftParen) [] rest
  | ')' => .token (.punctuation .rightParen) [] rest
  | '{' => .token (.punctuation .leftBrace) [] rest
  | '}' => .token (.punctuation .rightBrace) [] rest
  | '[' => .token (.punctuation .leftBracket) [] rest
  | ']' => .token (.punctuation .rightBracket) [] rest
  | ',' => .token (.punctuation .comma) [] rest
  | '.' => .token (.punctuation .dot) [] rest
  | '-' => .token (.punctuation .minus) [] rest
  | '+' => .token (.punctuation .plus) [] rest
  | ';' => .token (.punctuation .semicolon) [] rest
  | '/' => .token (.punctuation .slash) [] rest
  | '*' => .token (.punctuation .star) [] rest
  | '%' => .token (.punctuation .percent) [] rest
  | ':' => .token (.punctuation .colon) [] rest
  | '!' => orEqual .bang .bangEqual rest
  | '=' => orEqual .equal .equalEqual rest
  | '<' => orEqual .less .lessEqual rest
  | '>' => orEqual .greater .greaterEqual rest
  | '"' => recognizeString rest
  | _ =>
    if first.isDigit then recognizeNumber first rest
    else if Text.isIdentifierStart first then recognizeName first rest
    else .unexpected

/-- Reads the next token, or says why there is none, and moves on. -/
def next (cursor : Cursor) : Except ScanError Token × Cursor :=
  let start := skipLayout false cursor.rest cursor.offset cursor.line
  match start.rest with
  | [] =>
    (.ok { kind := .endOfInput, start := start.offset, stop := start.offset,
           line := start.line, lexeme := "" }, start)
  | first :: rest =>
    match recognize first rest with
    | .token kind tail remaining =>
      let stop := start.after (first :: tail) remaining
      (.ok { kind, start := start.offset, stop := stop.offset, line := start.line,
             lexeme := String.ofList (first :: tail) }, stop)
    | .unterminated tail =>
      let stop := start.after (first :: tail) []
      (.error { line := stop.line, problem := .unterminatedString }, stop)
    | .unexpected =>
      (.error { line := start.line, problem := .unexpectedCharacter first },
        start.after [first] rest)

theorem skipLayout_length
    (inComment : Bool)
    (characters : List Char)
    (offset line : Nat) :
    (skipLayout inComment characters offset line).rest.length ≤ characters.length := by
  induction characters generalizing inComment offset line with
  | nil => simp [skipLayout]
  | cons character rest hypothesis =>
      rw [skipLayout]
      split
      · exact Nat.le_succ_of_le (hypothesis _ _ _)
      · split
        · exact Nat.le_succ_of_le (hypothesis _ _ _)
        · split
          · exact Nat.le_succ_of_le (hypothesis _ _ _)
          · exact Nat.le_refl _

/-- The characters of a recognised token and those after it make up the input. -/
theorem recognize_token
    {first : Char}
    {rest tail remaining : List Char}
    {kind : TokenKind}
    (recognised : recognize first rest = .token kind tail remaining) :
    rest = tail ++ remaining := by
  have ofOrEqual :
      ∀ {short long : Punctuation},
        orEqual short long rest = .token kind tail remaining →
          rest = tail ++ remaining := by
    intro short long equality
    unfold orEqual at equality
    split at equality <;> cases equality <;> rfl
  unfold recognize at recognised
  split at recognised
  case h_16 => exact ofOrEqual recognised
  case h_17 => exact ofOrEqual recognised
  case h_18 => exact ofOrEqual recognised
  case h_19 => exact ofOrEqual recognised
  case h_20 =>
    unfold recognizeString at recognised
    simp only at recognised
    split at recognised
    · cases recognised
    · rename_i quote after equality
      cases recognised
      have decomposition := List.takeWhile_append_dropWhile (p := (· != '"')) (l := rest)
      rw [equality] at decomposition
      simpa using decomposition.symm
  case h_21 =>
    split at recognised
    · unfold recognizeNumber at recognised
      simp only at recognised
      have decomposition := List.takeWhile_append_dropWhile (p := Char.isDigit) (l := rest)
      split at recognised
      · rename_i digit after equality
        rw [equality] at decomposition
        split at recognised
        · cases recognised
          have inner := List.takeWhile_append_dropWhile (p := Char.isDigit) (l := after)
          rw [List.append_assoc, List.cons_append, List.cons_append, inner]
          exact decomposition.symm
        · cases recognised
          exact decomposition.symm
      · cases recognised
        exact decomposition.symm
    · split at recognised
      · unfold recognizeName at recognised
        simp only at recognised
        cases recognised
        exact (List.takeWhile_append_dropWhile).symm
      · cases recognised
  all_goals
    cases recognised
    rfl

/-- Reading leaves fewer characters unless the input has ended. -/
theorem next_shorter
    (cursor : Cursor)
    (unfinished :
      ∀ token, cursor.next.1 = .ok token → token.kind.isEnd = false) :
    cursor.next.2.rest.length < cursor.rest.length := by
  have skipped := skipLayout_length false cursor.rest cursor.offset cursor.line
  revert unfinished
  unfold next
  simp only
  split
  · intro unfinished
    have ended := unfinished _ rfl
    simp [TokenKind.isEnd] at ended
  · rename_i first rest equality
    rw [equality] at skipped
    intro _
    split
    · rename_i kind tail remaining recognised
      have decomposition := recognize_token recognised
      simp only [after]
      simp only [decomposition, List.length_cons, List.length_append] at skipped
      omega
    · simp only [after, List.length_nil]
      simp only [List.length_cons] at skipped
      omega
    · simp only [after]
      simp only [List.length_cons] at skipped
      omega

theorem next_shorter_of_error
    {cursor after : Cursor}
    {error : ScanError}
    (read : cursor.next = (.error error, after)) :
    after.rest.length < cursor.rest.length := by
  have shorter := next_shorter cursor (by simp [read])
  rwa [read] at shorter

theorem next_shorter_of_ok
    {cursor after : Cursor}
    {token : Token}
    (read : cursor.next = (.ok token, after))
    (unfinished : ¬ token.kind.isEnd) :
    after.rest.length < cursor.rest.length := by
  have shorter := next_shorter cursor (by
    intro other equality
    rw [read] at equality
    cases equality
    simpa using unfinished)
  rwa [read] at shorter

end Cursor

namespace Token

/-- Reads tokens up to the end of the input and stops at the first error. -/
def scanFrom (cursor : Cursor) (tokens : Array Token) : Except ScanError (Array Token) :=
  match read : cursor.next with
  | (.error error, _) => .error error
  | (.ok token, after) =>
    if ended : token.kind.isEnd then
      .ok (tokens.push token)
    else
      have := Cursor.next_shorter_of_ok read ended
      scanFrom after (tokens.push token)
termination_by cursor.rest.length

/-- The tokens of a source text, the last of which is the end of the input. -/
def scan (source : String) : Except ScanError (Array Token) :=
  scanFrom (Cursor.ofSource source) #[]

/-- Reads tokens and errors up to the end of the input. -/
def scanAllFrom
    (cursor : Cursor)
    (items : Array (Except ScanError Token)) :
    Array (Except ScanError Token) :=
  match read : cursor.next with
  | (.error error, after) =>
    have := Cursor.next_shorter_of_error read
    scanAllFrom after (items.push (.error error))
  | (.ok token, after) =>
    if ended : token.kind.isEnd then
      items.push (.ok token)
    else
      have := Cursor.next_shorter_of_ok read ended
      scanAllFrom after (items.push (.ok token))
termination_by cursor.rest.length

/-- The tokens and errors of a source text in order. -/
def scanAll (source : String) : Array (Except ScanError Token) :=
  scanAllFrom (Cursor.ofSource source) #[]

end Token

end ScriptEngine
