import Mathlib
import ScriptEngine.Token.Scan

/-!
# How tokens are spelled

`TokenKind.Spells` says which characters make up a token of which kind, without
reference to the scanner.  A token that is recognised is spelled by the characters it
takes (`Cursor.spells_of_recognize`).  Conversely the scanner recognises every spelling
that is set apart from what follows (`TokenKind.Spells.recognize`): white space cannot go
on with any token.
-/

namespace ScriptEngine

/-- The characters of a punctuation mark. -/
def Punctuation.spelling : Punctuation → List Char
  | leftParen => ['(']
  | rightParen => [')']
  | leftBrace => ['\x7b']
  | rightBrace => ['\x7d']
  | leftBracket => ['[']
  | rightBracket => [']']
  | comma => [',']
  | dot => ['.']
  | semicolon => [';']
  | colon => [':']
  | minus => ['-']
  | plus => ['+']
  | slash => ['/']
  | star => ['*']
  | percent => ['%']
  | bang => ['!']
  | bangEqual => ['!', '=']
  | equal => ['=']
  | equalEqual => ['=', '=']
  | greater => ['>']
  | greaterEqual => ['>', '=']
  | less => ['<']
  | lessEqual => ['<', '=']

/-- Digits, with at most one point among them and not at an end. -/
inductive IsNumeral : List Char → Prop
  | whole
      {first : Char}
      {digits : List Char}
      (firstDigit : first.isDigit = true)
      (allDigits : ∀ digit ∈ digits, digit.isDigit = true) :
      IsNumeral (first :: digits)
  | fractional
      {first tenths : Char}
      {digits fraction : List Char}
      (firstDigit : first.isDigit = true)
      (allDigits : ∀ digit ∈ digits, digit.isDigit = true)
      (tenthsDigit : tenths.isDigit = true)
      (fractionDigits : ∀ digit ∈ fraction, digit.isDigit = true) :
      IsNumeral (first :: digits ++ '.' :: tenths :: fraction)

/-- The characters that make up a token of a kind. -/
inductive TokenKind.Spells : TokenKind → List Char → Prop
  | number
      {text : List Char}
      {value : Float}
      (numeral : IsNumeral text)
      (read : Number.read? (String.ofList text) = some value) :
      Spells (.number value) text
  | string
      {content : List Char}
      (inside : '"' ∉ content) :
      Spells (.string (String.ofList content)) ('"' :: content ++ ['"'])
  | identifier
      {first : Char}
      {tail : List Char}
      (starts : Text.isIdentifierStart first = true)
      (continues : ∀ character ∈ tail, Text.isIdentifierContinue character = true)
      (free : ∀ word : Keyword, word.spelling ≠ String.ofList (first :: tail)) :
      Spells (.identifier (String.ofList (first :: tail))) (first :: tail)
  | keyword
      {word : Keyword}
      {first : Char}
      {tail : List Char}
      (starts : Text.isIdentifierStart first = true)
      (continues : ∀ character ∈ tail, Text.isIdentifierContinue character = true)
      (spelled : word.spelling = String.ofList (first :: tail)) :
      Spells (.keyword word) (first :: tail)
  | punctuation (mark : Punctuation) :
      Spells (.punctuation mark) mark.spelling

theorem TokenKind.Spells.goesOn
    {kind : TokenKind}
    {text : List Char}
    (spells : kind.Spells text) :
    kind.isEnd = false := by
  cases spells <;> rfl

/-! ## Runs of characters -/

namespace Text

variable {property : Char → Bool} {run rest : List Char}

/-- A run ends before the first character without the property. -/
theorem takeWhile_run
    (all : ∀ character ∈ run, property character = true)
    (ends : ∀ next ∈ rest.head?, property next = false) :
    (run ++ rest).takeWhile property = run := by
  rw [List.takeWhile_append_of_pos all]
  cases rest with
  | nil => simp
  | cons next rest => simp [ends next rfl]

theorem dropWhile_run
    (all : ∀ character ∈ run, property character = true)
    (ends : ∀ next ∈ rest.head?, property next = false) :
    (run ++ rest).dropWhile property = rest := by
  rw [List.dropWhile_append_of_pos all]
  cases rest with
  | nil => simp
  | cons next rest => simp [ends next rfl]

end Text

/-! ## Numerals -/

namespace Number

variable {first : Char} {digits rest : List Char}

/-- A text that begins with a digit has no sign and is no word. -/
theorem read?_of_digit (firstDigit : first.isDigit = true) :
    read? (String.ofList (first :: rest)) = readUnsigned? (first :: rest) := by
  have noMinus : first ≠ '-' := by
    rintro rfl
    exact absurd firstDigit (by decide)
  have noPlus : first ≠ '+' := by
    rintro rfl
    exact absurd firstDigit (by decide)
  have noNan : first :: rest ≠ ['n', 'a', 'n'] := by
    rintro ⟨⟩
    exact absurd firstDigit (by decide)
  have noInfinity : first :: rest ≠ ['i', 'n', 'f'] := by
    rintro ⟨⟩
    exact absurd firstDigit (by decide)
  unfold read?
  simp [noMinus, noPlus, noNan, noInfinity]

theorem read?_whole
    (firstDigit : first.isDigit = true)
    (allDigits : ∀ digit ∈ digits, digit.isDigit = true) :
    read? (String.ofList (first :: digits)) = some (ofDecimal (first :: digits) [] 0) := by
  have all : ∀ digit ∈ first :: digits, digit.isDigit = true :=
    List.forall_mem_cons.mpr ⟨firstDigit, allDigits⟩
  rw [read?_of_digit firstDigit]
  unfold readUnsigned?
  simp only [List.takeWhile_eq_self_iff.mpr all, List.dropWhile_eq_nil_iff.mpr all]
  rfl

theorem read?_fractional
    {tenths : Char}
    {fraction : List Char}
    (firstDigit : first.isDigit = true)
    (allDigits : ∀ digit ∈ digits, digit.isDigit = true)
    (tenthsDigit : tenths.isDigit = true)
    (fractionDigits : ∀ digit ∈ fraction, digit.isDigit = true) :
    read? (String.ofList (first :: digits ++ '.' :: tenths :: fraction)) =
      some (ofDecimal (first :: digits) (tenths :: fraction) 0) := by
  have all : ∀ digit ∈ first :: digits, digit.isDigit = true :=
    List.forall_mem_cons.mpr ⟨firstDigit, allDigits⟩
  have also : ∀ digit ∈ tenths :: fraction, digit.isDigit = true :=
    List.forall_mem_cons.mpr ⟨tenthsDigit, fractionDigits⟩
  have point : ∀ next ∈ ('.' :: tenths :: fraction).head?, next.isDigit = false := by
    rintro _ ⟨⟩
    decide
  have takes := Text.takeWhile_run all point
  have drops := Text.dropWhile_run all point
  rw [List.cons_append, read?_of_digit firstDigit, ← List.cons_append]
  unfold readUnsigned?
  simp only [takes, drops, List.takeWhile_eq_self_iff.mpr also, List.dropWhile_eq_nil_iff.mpr also]
  rfl

end Number

namespace Cursor

/-! ## What is recognised is spelled -/

theorem nameKind_spells
    {first : Char}
    {tail : List Char}
    (starts : Text.isIdentifierStart first = true)
    (continues : ∀ character ∈ tail, Text.isIdentifierContinue character = true) :
    (nameKind (String.ofList (first :: tail))).Spells (first :: tail) := by
  unfold nameKind
  split
  · rename_i word found
    have spelled := List.find?_some found
    exact .keyword starts continues (beq_iff_eq.mp spelled)
  · rename_i missing
    refine .identifier starts continues ?_
    intro word spelled
    have found := word.ofSpelling?_spelling
    rw [spelled, missing] at found
    cases found

theorem recognizeNumber_spells
    {first : Char}
    {rest tail remaining : List Char}
    {kind : TokenKind}
    (firstDigit : first.isDigit = true)
    (recognised : recognizeNumber first rest = .token kind tail remaining) :
    kind.Spells (first :: tail) := by
  have allDigits : ∀ digit ∈ rest.takeWhile Char.isDigit, digit.isDigit = true :=
    fun _ member => List.mem_takeWhile_imp member
  unfold recognizeNumber at recognised
  simp only at recognised
  split at recognised
  · rename_i tenths after _
    split at recognised
    · rename_i tenthsDigit
      cases recognised
      have fractionDigits : ∀ digit ∈ after.takeWhile Char.isDigit, digit.isDigit = true :=
        fun _ member => List.mem_takeWhile_imp member
      exact .number (.fractional firstDigit allDigits tenthsDigit fractionDigits)
        (Number.read?_fractional firstDigit allDigits tenthsDigit fractionDigits)
    · cases recognised
      exact .number (.whole firstDigit allDigits) (Number.read?_whole firstDigit allDigits)
  · cases recognised
    exact .number (.whole firstDigit allDigits) (Number.read?_whole firstDigit allDigits)

/-- The characters that a recognised token takes spell it. -/
theorem spells_of_recognize
    {first : Char}
    {rest tail remaining : List Char}
    {kind : TokenKind}
    (recognised : recognize first rest = .token kind tail remaining) :
    kind.Spells (first :: tail) := by
  have ofOrEqual :
      ∀ {short long : Punctuation},
        short.spelling = [first] →
          long.spelling = [first, '='] →
            orEqual short long rest = .token kind tail remaining → kind.Spells (first :: tail) := by
    intro short long shortSpelling longSpelling equality
    unfold orEqual at equality
    split at equality
    · cases equality
      exact longSpelling ▸ .punctuation long
    · cases equality
      exact shortSpelling ▸ .punctuation short
  unfold recognize at recognised
  split at recognised
  case h_16 => exact ofOrEqual rfl rfl recognised
  case h_17 => exact ofOrEqual rfl rfl recognised
  case h_18 => exact ofOrEqual rfl rfl recognised
  case h_19 => exact ofOrEqual rfl rfl recognised
  case h_20 =>
    unfold recognizeString at recognised
    simp only at recognised
    split at recognised
    · cases recognised
    · rename_i quote after found
      cases recognised
      have closes : quote = '"' := by
        have stops := List.head?_dropWhile_not (· != '"') rest
        rw [found] at stops
        simpa using stops
      subst closes
      refine .string fun member => ?_
      have other := List.mem_takeWhile_imp member
      exact absurd other (by decide)
  case h_21 =>
    split at recognised
    · rename_i firstDigit
      exact recognizeNumber_spells firstDigit recognised
    · split at recognised
      · rename_i starts
        cases recognised
        exact nameKind_spells starts fun _ member => List.mem_takeWhile_imp member
      · cases recognised
  all_goals
    cases recognised
    exact .punctuation _

/-- A string that is not closed goes on to the end of the text. -/
theorem unterminated_of_recognize
    {first : Char}
    {rest tail : List Char}
    (recognised : recognize first rest = .unterminated tail) :
    first = '"' ∧ '"' ∉ tail ∧ rest = tail := by
  have notOrEqual :
      ∀ {short long : Punctuation}, orEqual short long rest ≠ .unterminated tail := by
    intro short long
    unfold orEqual
    split <;> nofun
  unfold recognize at recognised
  split at recognised
  case h_16 => exact absurd recognised notOrEqual
  case h_17 => exact absurd recognised notOrEqual
  case h_18 => exact absurd recognised notOrEqual
  case h_19 => exact absurd recognised notOrEqual
  case h_20 =>
    unfold recognizeString at recognised
    simp only at recognised
    split at recognised
    · rename_i exhausted
      cases recognised
      have all := List.takeWhile_append_dropWhile (p := (· != '"')) (l := rest)
      rw [exhausted, List.append_nil] at all
      refine ⟨rfl, fun member => ?_, all.symm⟩
      have other := List.mem_takeWhile_imp member
      exact absurd other (by decide)
    · cases recognised
  case h_21 =>
    split at recognised
    · unfold recognizeNumber at recognised
      simp only at recognised
      split at recognised
      · split at recognised <;> cases recognised
      · cases recognised
    · split at recognised <;> cases recognised
  all_goals cases recognised

/-! ## What is spelled and set apart is recognised -/

/-- What follows a token begins with white space, if anything follows. -/
def SetApart (rest : List Char) : Prop :=
  ∀ next ∈ rest.head?, isLayout next = true

theorem eq_of_isLayout {character : Char} (layout : isLayout character = true) :
    character = ' ' ∨ character = '\t' ∨ character = '\n' ∨ character = '\r' := by
  simpa [isLayout, or_assoc] using layout

namespace SetApart

variable {rest : List Char}

/-- White space lacks a property that its four characters lack. -/
theorem lacks
    (apart : SetApart rest)
    {property : Char → Bool}
    (blank : property ' ' = false)
    (tab : property '\t' = false)
    (feed : property '\n' = false)
    (carriageReturn : property '\r' = false) :
    ∀ next ∈ rest.head?, property next = false := by
  intro next isNext
  rcases eq_of_isLayout (apart next isNext) with rfl | rfl | rfl | rfl
  · exact blank
  · exact tab
  · exact feed
  · exact carriageReturn

theorem not_digit (apart : SetApart rest) : ∀ next ∈ rest.head?, next.isDigit = false :=
  apart.lacks rfl rfl rfl rfl

theorem not_continue (apart : SetApart rest) :
    ∀ next ∈ rest.head?, Text.isIdentifierContinue next = false :=
  apart.lacks rfl rfl rfl rfl

theorem head?_ne
    (apart : SetApart rest)
    (character : Char)
    (visible : isLayout character = false) :
    rest.head? ≠ some character := by
  intro isHead
  exact absurd (apart character isHead) (by simp [visible])

end SetApart

theorem orEqual_short
    {rest : List Char}
    (apart : SetApart rest)
    (short long : Punctuation) :
    orEqual short long rest = .token (.punctuation short) [] rest := by
  unfold orEqual
  split
  · exact absurd rfl (apart.head?_ne '=' rfl)
  · rfl

theorem recognizeNumber_of_numeral
    {first : Char}
    {tail rest : List Char}
    {value : Float}
    (numeral : IsNumeral (first :: tail))
    (read : Number.read? (String.ofList (first :: tail)) = some value)
    (apart : SetApart rest) :
    first.isDigit = true ∧ recognizeNumber first (tail ++ rest) =
      .token (.number value) tail rest := by
  generalize text : first :: tail = characters at numeral read
  cases numeral with
  | whole firstDigit allDigits =>
      cases text
      rw [Number.read?_whole firstDigit allDigits] at read
      cases read
      refine ⟨firstDigit, ?_⟩
      unfold recognizeNumber
      simp only [Text.takeWhile_run allDigits apart.not_digit,
        Text.dropWhile_run allDigits apart.not_digit]
      split
      · exact absurd rfl (apart.head?_ne '.' rfl)
      · rfl
  | @fractional first tenths digits fraction firstDigit allDigits tenthsDigit fractionDigits =>
      cases text
      rw [Number.read?_fractional firstDigit allDigits tenthsDigit fractionDigits] at read
      cases read
      refine ⟨firstDigit, ?_⟩
      have point :
          ∀ next ∈ ('.' :: tenths :: (fraction ++ rest)).head?, next.isDigit = false := by
        rintro _ ⟨⟩
        decide
      show recognizeNumber first ((digits ++ '.' :: tenths :: fraction) ++ rest) = _
      rw [List.append_assoc]
      unfold recognizeNumber
      simp only [List.cons_append, Text.takeWhile_run allDigits point,
        Text.dropWhile_run allDigits point, tenthsDigit, if_true,
        Text.takeWhile_run fractionDigits apart.not_digit,
        Text.dropWhile_run fractionDigits apart.not_digit]
      rfl

theorem recognizeName_of_continues
    {first : Char}
    {tail rest : List Char}
    (continues : ∀ character ∈ tail, Text.isIdentifierContinue character = true)
    (apart : SetApart rest) :
    recognizeName first (tail ++ rest) =
      .token (nameKind (String.ofList (first :: tail))) tail rest := by
  unfold recognizeName
  simp only [Text.takeWhile_run continues apart.not_continue,
    Text.dropWhile_run continues apart.not_continue]

/-- A letter is none of the characters with which other tokens begin. -/
theorem recognize_of_isIdentifierStart
    {first : Char}
    (starts : Text.isIdentifierStart first = true)
    (rest : List Char) :
    recognize first rest = recognizeName first rest := by
  have other : ∀ character, Text.isIdentifierStart character = false → first ≠ character := by
    rintro character noStart rfl
    cases starts.symm.trans noStart
  have noDigit : first.isDigit = false := by
    by_contra isDigit
    have digits : ∀ code < 58, 48 ≤ code → Text.isIdentifierStart (Char.ofNat code) = false := by
      decide
    rw [Bool.not_eq_false] at isDigit
    simp only [Char.isDigit, Bool.and_eq_true, decide_eq_true_eq] at isDigit
    have isStart := digits first.toNat (by
      have upper : first.val.toNat ≤ 57 := isDigit.2
      exact Nat.lt_succ_of_le upper) isDigit.1
    rw [Char.ofNat_toNat] at isStart
    cases starts.symm.trans isStart
  unfold recognize
  split
  case h_21 => simp [noDigit, starts]
  all_goals exact absurd rfl (other _ rfl)

end Cursor

open Cursor in
/-- The scanner recognises a spelling that white space or the end of the text follows. -/
theorem TokenKind.Spells.recognize
    {kind : TokenKind}
    {first : Char}
    {tail rest : List Char}
    (spells : kind.Spells (first :: tail))
    (apart : SetApart rest) :
    recognize first (tail ++ rest) = .token kind tail rest := by
  generalize text : first :: tail = characters at spells
  cases spells with
  | number numeral read =>
      subst text
      rcases recognizeNumber_of_numeral numeral read apart with ⟨isDigit, recognised⟩
      have other : ∀ character : Char, character.isDigit = false → first ≠ character := by
        rintro character noDigit rfl
        cases isDigit.symm.trans noDigit
      unfold Cursor.recognize
      split
      case h_21 => simpa [isDigit] using recognised
      all_goals exact absurd rfl (other _ (by decide))
  | @string content inside =>
      cases text
      have other : ∀ character ∈ content, (character != '"') = true := by
        intro character member
        rw [bne_iff_ne]
        rintro rfl
        exact inside member
      have quote : ∀ next ∈ ('"' :: rest).head?, (next != '"') = false := by
        rintro _ ⟨⟩
        rfl
      show recognizeString ((content ++ ['"']) ++ rest) = .token _ (content ++ ['"']) rest
      rw [List.append_assoc]
      unfold recognizeString
      simp only [List.cons_append, List.nil_append, Text.takeWhile_run other quote,
        Text.dropWhile_run other quote]
  | identifier starts continues free =>
      cases text
      rw [recognize_of_isIdentifierStart starts, recognizeName_of_continues continues apart]
      have missing : Keyword.ofSpelling? (String.ofList (first :: tail)) = none := by
        apply List.find?_eq_none.mpr
        intro word _ spelled
        exact free word (beq_iff_eq.mp spelled)
      unfold nameKind
      rw [missing]
  | keyword starts continues spelled =>
      cases text
      rw [recognize_of_isIdentifierStart starts, recognizeName_of_continues continues apart]
      unfold nameKind
      rw [← spelled, Keyword.ofSpelling?_spelling]
  | punctuation mark =>
      have short := orEqual_short apart
      cases mark <;> cases text <;> first | rfl | exact short _ _

end ScriptEngine
