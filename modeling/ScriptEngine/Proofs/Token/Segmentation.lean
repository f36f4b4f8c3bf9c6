import ScriptEngine.Proofs.Token.Spelling

/-!
# Scanning loses nothing

A source text is cut into blanks, which are white space and comments, and the characters
that the scanner takes for its answers (`Segmented`).  The place of every answer follows
from the characters before it: positions are lengths in bytes, and lines are counted by
the line ends.  So every character of the text is either blank or belongs to exactly one
token or error (`scanning_is_lossless`).
-/

namespace ScriptEngine

/-- White space and comments that end with their lines. -/
inductive Blank : List Char → Prop
  | nil : Blank []
  | space
      {character : Char}
      {rest : List Char}
      (layout : Cursor.isLayout character = true)
      (blank : Blank rest) :
      Blank (character :: rest)
  | comment
      {text rest : List Char}
      (oneLine : '\n' ∉ text)
      (blank : Blank rest) :
      Blank ('/' :: '/' :: (text ++ '\n' :: rest))

/-- White space and comments at the end of a text, which may also end the last comment. -/
inductive BlankEnd : List Char → Prop
  | blank
      {gap : List Char}
      (blank : Blank gap) :
      BlankEnd gap
  | comment
      {gap text : List Char}
      (blank : Blank gap)
      (oneLine : '\n' ∉ text) :
      BlankEnd (gap ++ '/' :: '/' :: text)

/-- The line on which a text goes on after the given characters. -/
def lineAfter (before : List Char) : Nat :=
  1 + before.count '\n'

/-- The token at the end of a text. -/
def endOf (text : List Char) : Token :=
  { kind := .endOfInput
    start := Text.byteLength text
    stop := Text.byteLength text
    line := lineAfter text
    lexeme := "" }

/-- What the scanner may answer for the characters `taken` between two parts of a text. -/
inductive Answers (before taken after : List Char) : Except ScanError Token → Prop
  | token
      {kind : TokenKind}
      (spells : kind.Spells taken) :
      Answers before taken after
        (.ok
          { kind
            start := Text.byteLength before
            stop := Text.byteLength (before ++ taken)
            line := lineAfter before
            lexeme := String.ofList taken })
  | unexpected
      {character : Char}
      (single : taken = [character])
      (begins : ∀ kind tail, ¬ TokenKind.Spells kind (character :: tail)) :
      Answers before taken after
        (.error { line := lineAfter before, problem := .unexpectedCharacter character })
  | unterminated
      {content : List Char}
      (opened : taken = '"' :: content)
      (inside : '"' ∉ content)
      (isLast : after = []) :
      Answers before taken after
        (.error { line := lineAfter (before ++ taken), problem := .unterminatedString })

/-- Answers for the characters after `before`, up to the end of the text. -/
inductive Segmented : List Char → List Char → List (Except ScanError Token) → Prop
  | ended
      {before gap : List Char}
      (blank : BlankEnd gap) :
      Segmented before gap [.ok (endOf (before ++ gap))]
  | piece
      {before gap taken rest : List Char}
      {answer : Except ScanError Token}
      {answers : List (Except ScanError Token)}
      (blank : Blank gap)
      (nonempty : taken ≠ [])
      (answered : Answers (before ++ gap) taken rest answer)
      (others : Segmented (before ++ gap ++ taken) rest answers) :
      Segmented before (gap ++ taken ++ rest) (answer :: answers)

namespace Text

theorem size_utf8Encode (text : List Char) : text.utf8Encode.size = byteLength text := by
  induction text with
  | nil => rfl
  | cons character text induction =>
      rw [List.utf8Encode_cons, ByteArray.size_append, induction, byteLength_cons,
        List.utf8Encode_singleton, List.size_toByteArray, String.length_utf8EncodeChar]

/-- The bytes between two places of a text. -/
theorem extract_utf8Encode (front middle back : List Char) :
    (front ++ middle ++ back).utf8Encode.extract (byteLength front)
        (byteLength (front ++ middle)) =
      middle.utf8Encode := by
  rw [byteLength_append, ← size_utf8Encode, ← size_utf8Encode, List.append_assoc,
    List.utf8Encode_append, List.utf8Encode_append]
  have start : front.utf8Encode.size = front.utf8Encode.size + 0 := rfl
  conv_lhs =>
    arg 2
    rw [start]
  rw [ByteArray.extract_append_size_add]
  exact ByteArray.extract_append_eq_left rfl

end Text

/-! ## Blanks -/

/-- A token may begin here: what follows is neither white space nor a comment. -/
def BeginsToken : List Char → Prop
  | [] => False
  | first :: rest =>
    Cursor.isLayout first = false ∧ ¬ (first = '/' ∧ rest.head? = some '/')

/-- A blank that the scanner skips as a whole. -/
def Skipped (gap rest : List Char) : Prop :=
  Blank gap ∧ BeginsToken rest ∨ BlankEnd gap ∧ rest = []

namespace Skipped

variable {gap rest : List Char}

theorem space
    {character : Char}
    (skipped : Skipped gap rest)
    (layout : Cursor.isLayout character = true) :
    Skipped (character :: gap) rest := by
  rcases skipped with ⟨blank, begins⟩ | ⟨blank, ended⟩
  · exact .inl ⟨.space layout blank, begins⟩
  · refine .inr ⟨?_, ended⟩
    cases blank with
    | blank blank => exact .blank (.space layout blank)
    | comment blank oneLine => exact .comment (.space layout blank) oneLine

theorem comment
    {text : List Char}
    (skipped : Skipped gap rest)
    (oneLine : '\n' ∉ text) :
    Skipped ('/' :: '/' :: (text ++ '\n' :: gap)) rest := by
  rcases skipped with ⟨blank, begins⟩ | ⟨blank, ended⟩
  · exact .inl ⟨.comment oneLine blank, begins⟩
  · refine .inr ⟨?_, ended⟩
    cases blank with
    | blank blank => exact .blank (.comment oneLine blank)
    | @comment front text blank alsoOneLine =>
        have whole := BlankEnd.comment (.comment oneLine blank) alsoOneLine
        simpa using whole

end Skipped

/-- The rest of a comment and the blank after it. -/
def FinishesComment (gap rest : List Char) : Prop :=
  (∃ text more, '\n' ∉ text ∧ gap = text ++ '\n' :: more ∧ Skipped more rest) ∨
    '\n' ∉ gap ∧ rest = []

namespace FinishesComment

variable {gap rest : List Char} {character : Char}

theorem skipped (finishes : FinishesComment gap rest) : Skipped ('/' :: '/' :: gap) rest := by
  rcases finishes with ⟨text, more, oneLine, rfl, skipped⟩ | ⟨oneLine, ended⟩
  · exact skipped.comment oneLine
  · exact .inr ⟨.comment .nil oneLine, ended⟩

theorem cons
    (finishes : FinishesComment gap rest)
    (other : character ≠ '\n') :
    FinishesComment (character :: gap) rest := by
  rcases finishes with ⟨text, more, oneLine, rfl, skipped⟩ | ⟨oneLine, ended⟩
  · exact .inl ⟨character :: text, more, by simp [oneLine, other.symm], rfl, skipped⟩
  · exact .inr ⟨by simp [oneLine, other.symm], ended⟩

theorem tail
    (finishes : FinishesComment (character :: gap) rest)
    (other : character ≠ '\n') :
    FinishesComment gap rest := by
  rcases finishes with ⟨text, more, oneLine, split, skipped⟩ | ⟨oneLine, ended⟩
  · cases text with
    | nil => exact absurd (List.cons.inj split).1 other
    | cons first text =>
        rcases List.cons.inj split with ⟨-, rfl⟩
        exact .inl ⟨text, more, fun member => oneLine (List.mem_cons_of_mem _ member), rfl, skipped⟩
  · exact .inr ⟨fun member => oneLine (List.mem_cons_of_mem _ member), ended⟩

/-- The second slash of a comment is the first character after the first. -/
theorem skipped_of_slash
    {characters : List Char}
    (finishes : FinishesComment gap rest)
    (split : characters = gap ++ rest)
    (slash : characters.head? = some '/') :
    Skipped ('/' :: gap) rest := by
  cases gap with
  | nil =>
      rcases finishes with ⟨text, more, -, split, -⟩ | ⟨-, rfl⟩
      · simp at split
      · simp [split] at slash
  | cons first gap =>
      have isSlash : first = '/' := by simpa [split] using slash
      subst isSlash
      exact (finishes.tail (by decide)).skipped

end FinishesComment

namespace Cursor

/-- Skipping stops where a token may begin, or at the end of the text. -/
theorem skipLayout_skips (inComment : Bool) (characters : List Char) (offset line : Nat) :
    ∃ gap rest,
      characters = gap ++ rest ∧
        skipLayout inComment characters offset line =
          { rest, offset := offset + Text.byteLength gap, line := line + gap.count '\n' } ∧
        if inComment then FinishesComment gap rest else Skipped gap rest := by
  induction characters generalizing inComment offset line with
  | nil =>
      refine ⟨[], [], rfl, rfl, ?_⟩
      cases inComment
      · exact .inr ⟨.blank .nil, rfl⟩
      · exact .inr ⟨List.not_mem_nil, rfl⟩
  | cons character characters induction =>
      have counts (gap : List Char) (other : character ≠ '\n') :
          (character :: gap).count '\n' = gap.count '\n' :=
        List.count_cons_of_ne other
      rw [skipLayout]
      split
      · rename_i isFeed
        cases beq_iff_eq.mp isFeed
        rcases induction false (offset + 1) (line + 1) with ⟨gap, rest, rfl, skips, skipped⟩
        refine ⟨'\n' :: gap, rest, rfl, ?_, ?_⟩
        · have size : '\n'.utf8Size = 1 := rfl
          rw [skips, Text.byteLength_cons, List.count_cons_self, size]
          congr 1 <;> omega
        · cases inComment
          · exact Skipped.space skipped rfl
          · exact .inl ⟨[], gap, List.not_mem_nil, rfl, skipped⟩
      · rename_i noFeed
        have other : character ≠ '\n' := fun isFeed => noFeed (beq_iff_eq.mpr isFeed)
        split
        · rename_i passes
          rcases induction inComment (offset + character.utf8Size) line with
            ⟨gap, rest, rfl, skips, skipped⟩
          refine ⟨character :: gap, rest, rfl, ?_, ?_⟩
          · rw [skips, Text.byteLength_cons, counts gap other, Nat.add_assoc]
          · cases inComment
            · exact Skipped.space skipped passes
            · exact FinishesComment.cons skipped other
        · rename_i noBlank
          rcases Bool.or_eq_false_iff.mp (Bool.eq_false_of_not_eq_true noBlank) with
            ⟨rfl, visible⟩
          split
          · rename_i slashes
            rcases Bool.and_eq_true_iff.mp slashes with ⟨isSlash, follows⟩
            cases beq_iff_eq.mp isSlash
            rcases induction true (offset + 1) line with ⟨gap, rest, split, skips, finishes⟩
            refine ⟨'/' :: gap, rest, by rw [split]; rfl, ?_, ?_⟩
            · have size : '/'.utf8Size = 1 := rfl
              rw [skips, Text.byteLength_cons, counts gap other, size, Nat.add_assoc]
            · exact FinishesComment.skipped_of_slash finishes split (beq_iff_eq.mp follows)
          · rename_i noSlashes
            refine ⟨[], character :: characters, rfl, rfl, .inl ⟨.nil, visible, ?_⟩⟩
            rintro ⟨isSlash, follows⟩
            exact noSlashes (by simp [isSlash, follows])

/-! ## One answer -/

/-- The place between two parts of a text. -/
def between (before rest : List Char) : Cursor :=
  { rest, offset := Text.byteLength before, line := lineAfter before }

@[simp]
theorem rest_between (before rest : List Char) : (between before rest).rest = rest := rfl

theorem after_between (before skipped read rest : List Char) :
    (between before skipped).after read rest = between (before ++ read) rest := by
  simp [after, between, lineAfter, Nat.add_assoc]

theorem skipLayout_between (before characters : List Char) :
    ∃ gap rest,
      characters = gap ++ rest ∧
        skipLayout false characters (between before characters).offset
            (between before characters).line =
          between (before ++ gap) rest ∧
        Skipped gap rest := by
  rcases skipLayout_skips false characters (between before characters).offset
    (between before characters).line with ⟨gap, rest, split, skips, skipped⟩
  refine ⟨gap, rest, split, ?_, skipped⟩
  rw [skips]
  simp [between, lineAfter, Nat.add_assoc]

/-- No token begins with a character that is not expected. -/
theorem not_spells_of_unexpected
    {first : Char}
    {rest : List Char}
    (recognised : recognize first rest = .unexpected)
    (kind : TokenKind)
    (tail : List Char) :
    ¬ kind.Spells (first :: tail) := by
  -- With nothing after it a spelling is recognised, and what follows does not matter here.
  intro spells
  have alone : recognize first (tail ++ []) = .token kind tail [] := spells.recognize nofun
  have same : ∀ characters, recognize first characters = .unexpected := by
    intro characters
    have notOrEqual :
        ∀ {short long : Punctuation}, orEqual short long rest ≠ .unexpected := by
      intro short long
      unfold orEqual
      split <;> nofun
    unfold recognize at recognised
    split at recognised
    case h_16 => exact absurd recognised notOrEqual
    case h_17 => exact absurd recognised notOrEqual
    case h_18 => exact absurd recognised notOrEqual
    case h_19 => exact absurd recognised notOrEqual
    case h_20 =>
      unfold recognizeString at recognised
      simp only at recognised
      split at recognised <;> cases recognised
    case h_21 =>
      split at recognised
      · unfold recognizeNumber at recognised
        simp only at recognised
        split at recognised
        · split at recognised <;> cases recognised
        · cases recognised
      · split at recognised
        · cases recognised
        · rename_i noDigit noStart
          unfold recognize
          split
          case h_21 => rw [if_neg noDigit, if_neg noStart]
          all_goals simp_all
    all_goals cases recognised
  rw [same] at alone
  cases alone

/-- The scanner answers for the first characters that are not blank. -/
theorem next_between (before characters : List Char) :
    (BlankEnd characters ∧
        (between before characters).next =
          (.ok (endOf (before ++ characters)), between (before ++ characters) [])) ∨
      ∃ gap taken rest answer,
        characters = gap ++ taken ++ rest ∧
          Blank gap ∧
          BeginsToken (taken ++ rest) ∧
          taken ≠ [] ∧
          Answers (before ++ gap) taken rest answer ∧
          (between before characters).next = (answer, between (before ++ gap ++ taken) rest) := by
  rcases skipLayout_between before characters with ⟨gap, rest, rfl, skips, skipped⟩
  unfold next
  simp only [rest_between, skips]
  cases rest with
  | nil =>
      left
      rcases skipped with ⟨-, begins⟩ | ⟨blank, -⟩
      · exact begins.elim
      · rw [List.append_nil]
        exact ⟨blank, rfl⟩
  | cons first rest =>
      right
      rcases skipped with ⟨blank, begins⟩ | ⟨-, ended⟩
      · simp only [after_between]
        rcases recognised : recognize first rest with ⟨kind, tail, remaining⟩ | tail | _
        · have split := recognize_token recognised
          refine ⟨gap, first :: tail, remaining, _, ?_, blank, ?_,
            List.cons_ne_nil _ _, .token (spells_of_recognize recognised), rfl⟩
          · rw [split, List.append_assoc, List.cons_append]
          · rwa [List.cons_append, ← split]
        · rcases unterminated_of_recognize recognised with ⟨rfl, inside, rfl⟩
          refine ⟨gap, '"' :: rest, [], _, by simp, blank, ?_,
            List.cons_ne_nil _ _, .unterminated rfl inside rfl, rfl⟩
          rwa [List.append_nil]
        · exact ⟨gap, [first], rest, _, by simp, blank, begins,
            List.cons_ne_nil _ _, .unexpected rfl (not_spells_of_unexpected recognised), rfl⟩
      · cases ended

/-! ## All answers -/

/-- The place after a number of answers. -/
def afterCalls (cursor : Cursor) (calls : Nat) : Cursor :=
  (fun cursor => cursor.next.2)^[calls] cursor

theorem afterCalls_succ (cursor : Cursor) (calls : Nat) :
    cursor.afterCalls (calls + 1) = cursor.next.2.afterCalls calls :=
  Function.iterate_succ_apply _ calls cursor

/-- The answers from a place on, the last of which is the end of the input. -/
inductive Reads : Cursor → List (Except ScanError Token) → Prop
  | ended
      {cursor after : Cursor}
      {token : Token}
      (read : cursor.next = (.ok token, after))
      (isEnd : token.kind.isEnd = true) :
      Reads cursor [.ok token]
  | more
      {cursor after : Cursor}
      {answer : Except ScanError Token}
      {answers : List (Except ScanError Token)}
      (read : cursor.next = (answer, after))
      (goesOn : ∀ token, answer = .ok token → token.kind.isEnd = false)
      (others : Reads after answers) :
      Reads cursor (answer :: answers)

end Cursor

open Cursor

theorem Answers.goesOn
    {before taken after : List Char}
    {answer : Except ScanError Token}
    (answered : Answers before taken after answer) :
    ∀ token, answer = .ok token → token.kind.isEnd = false := by
  rintro token rfl
  cases answered with
  | token spells => exact spells.goesOn

/-- From every place of a text the scanner reaches the end. -/
theorem Segmented.exists_of_between (before characters : List Char) :
    ∃ answers, Segmented before characters answers ∧ Reads (between before characters) answers := by
  induction length : characters.length using Nat.strong_induction_on
    generalizing before characters with
  | _ bound induction =>
      rcases next_between before characters with
        ⟨blank, read⟩ | ⟨gap, taken, rest, answer, rfl, blank, -, nonempty, answered, read⟩
      · exact ⟨_, .ended blank, .ended read rfl⟩
      · have shorter : rest.length < bound := by
          have positive := List.length_pos_of_ne_nil nonempty
          simp only [← length, List.length_append]
          omega
        rcases induction rest.length shorter (before ++ gap ++ taken) rest rfl with
          ⟨answers, segmented, reads⟩
        exact ⟨answer :: answers, .piece blank nonempty answered segmented,
          .more read answered.goesOn reads⟩

namespace Segmented

variable
  {before characters : List Char}
  {answers : List (Except ScanError Token)}

theorem length_le (segmented : Segmented before characters answers) :
    answers.length ≤ characters.length + 1 := by
  induction segmented with
  | ended => simp
  | piece blank nonempty answered others induction =>
      have positive := List.length_pos_of_ne_nil nonempty
      simp only [List.length_cons, List.length_append]
      omega

/-- The bytes of a text at the place of a token are those of its characters. -/
theorem slice
    (segmented : Segmented before characters answers)
    {token : Token}
    (member : .ok token ∈ answers) :
    (before ++ characters).utf8Encode.extract token.start token.stop =
      token.lexeme.toByteArray := by
  induction segmented with
  | ended blank =>
      cases List.mem_singleton.mp member
      exact ByteArray.extract_eq_empty_iff.mpr (Nat.min_le_left _ _)
  | @piece before gap taken rest answer answers blank nonempty answered others induction =>
      have same : before ++ (gap ++ taken ++ rest) = before ++ gap ++ taken ++ rest := by
        simp only [List.append_assoc]
      rw [same]
      rcases List.mem_cons.mp member with isFirst | isLater
      · subst isFirst
        cases answered with
        | token spells =>
            rw [String.toByteArray_ofList]
            exact Text.extract_utf8Encode (before ++ gap) taken rest
      · exact induction isLater

end Segmented

/-! ## Scanning on and stopping at an error -/

namespace Token

variable {cursor after : Cursor} {token : Token}

theorem scanAllFrom_of_isEnd
    (read : cursor.next = (.ok token, after))
    (isEnd : token.kind.isEnd = true)
    (items : Array (Except ScanError Token)) :
    scanAllFrom cursor items = items.push (.ok token) := by
  rw [scanAllFrom]
  split
  next _ _ other => cases read.symm.trans other
  next _ _ other =>
    cases read.symm.trans other
    rw [dif_pos isEnd]

theorem scanAllFrom_of_goesOn
    {answer : Except ScanError Token}
    (read : cursor.next = (answer, after))
    (goesOn : ∀ token, answer = .ok token → token.kind.isEnd = false)
    (items : Array (Except ScanError Token)) :
    scanAllFrom cursor items = scanAllFrom after (items.push answer) := by
  rw [scanAllFrom]
  split
  next _ _ other => cases read.symm.trans other; rfl
  next _ _ other =>
    cases read.symm.trans other
    rw [dif_neg (by simp [goesOn _ rfl])]

theorem scanFrom_of_isEnd
    (read : cursor.next = (.ok token, after))
    (isEnd : token.kind.isEnd = true)
    (tokens : Array Token) :
    scanFrom cursor tokens = .ok (tokens.push token) := by
  rw [scanFrom]
  split
  next _ _ other => cases read.symm.trans other
  next _ _ other =>
    cases read.symm.trans other
    rw [dif_pos isEnd]

theorem scanFrom_of_error
    {error : ScanError}
    (read : cursor.next = (.error error, after))
    (tokens : Array Token) :
    scanFrom cursor tokens = .error error := by
  rw [scanFrom]
  split
  next _ _ other => cases read.symm.trans other; rfl
  next _ _ other => cases read.symm.trans other

theorem scanFrom_of_goesOn
    (read : cursor.next = (.ok token, after))
    (goesOn : token.kind.isEnd = false)
    (tokens : Array Token) :
    scanFrom cursor tokens = scanFrom after (tokens.push token) := by
  rw [scanFrom]
  split
  next _ _ other => cases read.symm.trans other
  next _ _ other =>
    cases read.symm.trans other
    rw [dif_neg (by simp [goesOn])]

end Token

namespace Cursor

/-- After the end of the input there is nothing but the end of the input. -/
theorem next_of_isEnd
    {cursor after : Cursor}
    {token : Token}
    (read : cursor.next = (.ok token, after))
    (isEnd : token.kind.isEnd = true) :
    after.next = (.ok token, after) := by
  unfold next at read
  simp only at read
  split at read
  · rename_i ended
    cases read
    generalize skipLayout false cursor.rest cursor.offset cursor.line = stopped at ended ⊢
    cases stopped
    cases ended
    rfl
  · split at read
    · rename_i recognised
      cases read
      cases (spells_of_recognize recognised).goesOn.symm.trans isEnd
    · cases read
    · cases read

namespace Reads

variable {cursor : Cursor} {answers : List (Except ScanError Token)}

theorem scanAllFrom
    (reads : Reads cursor answers)
    (items : Array (Except ScanError Token)) :
    (Token.scanAllFrom cursor items).toList = items.toList ++ answers := by
  induction reads generalizing items with
  | ended read isEnd => rw [Token.scanAllFrom_of_isEnd read isEnd, Array.toList_push]
  | more read goesOn others induction =>
      rw [Token.scanAllFrom_of_goesOn read goesOn, induction, Array.toList_push, List.append_assoc]
      rfl

/-- Scanning that stops at the first error gives the tokens if there is none. -/
theorem scanFrom
    (reads : Reads cursor answers)
    (tokens : Array Token) :
    Token.scanFrom cursor tokens =
      (answers.mapM id).map fun rest => (tokens.toList ++ rest).toArray := by
  induction reads generalizing tokens with
  | ended read isEnd =>
      rw [Token.scanFrom_of_isEnd read isEnd]
      apply congrArg Except.ok
      apply Array.toList_inj.mp
      exact Array.toList_push
  | @more cursor after answer answers read goesOn others induction =>
      rw [List.mapM_cons]
      cases answer with
      | error error =>
          rw [Token.scanFrom_of_error read]
          rfl
      | ok token =>
          rw [Token.scanFrom_of_goesOn read (goesOn token rfl), induction]
          rcases answers.mapM id with error | rest
          · rfl
          · simp [Except.map, pure, Except.pure, bind, Except.bind]

/-- Every call gives the next answer, and the last answer again once it has been given. -/
theorem next_afterCalls
    (reads : Reads cursor answers)
    {last : Token}
    (isLast : answers.getLast? = some (.ok last))
    (calls : Nat) :
    (cursor.afterCalls calls).next.1 = answers.getD calls (.ok last) := by
  induction reads generalizing calls with
  | @ended cursor after token read isEnd =>
      cases isLast
      have stays (calls : Nat) : after.afterCalls calls = after := by
        induction calls with
        | zero => rfl
        | succ calls induction =>
            rw [afterCalls_succ, next_of_isEnd read isEnd]
            exact induction
      cases calls with
      | zero => exact congrArg Prod.fst read
      | succ calls =>
          rw [afterCalls_succ, read, stays, next_of_isEnd read isEnd]
          rfl
  | @more cursor after answer answers read goesOn others induction =>
      cases calls with
      | zero => exact congrArg Prod.fst read
      | succ calls =>
          rw [afterCalls_succ, read, List.getD_cons_succ]
          refine induction ?_ calls
          cases others <;> exact isLast

end Reads

end Cursor

/-- The end of the input is the last answer. -/
theorem Segmented.getLast?
    {before characters : List Char}
    {answers : List (Except ScanError Token)}
    (segmented : Segmented before characters answers) :
    answers.getLast? = some (.ok (endOf (before ++ characters))) := by
  induction segmented with
  | ended blank => rfl
  | @piece before gap taken rest answer answers blank nonempty answered others induction =>
      have same : before ++ (gap ++ taken ++ rest) = before ++ gap ++ taken ++ rest := by
        simp only [List.append_assoc]
      rw [same, ← induction]
      cases others <;> rfl

/--
The answers of the scanner cut a text into blanks, tokens and refused characters.  They
are as many as the characters and one more at most, each call gives one of them, and
after the last there is only the end of the input.  A token has the characters at its
place.  The scan that stops at an error gives the same tokens if there is no error.
-/
theorem scanning_is_lossless (source : String) :
    Segmented [] source.toList (Token.scanAll source).toList ∧
      (Token.scanAll source).size ≤ source.length + 1 ∧
      (∀ calls,
        ((Cursor.ofSource source).afterCalls calls).next.1 =
          (Token.scanAll source).toList.getD calls (.ok (endOf source.toList))) ∧
      (∀ token,
        .ok token ∈ (Token.scanAll source).toList →
          source.toByteArray.extract token.start token.stop = token.lexeme.toByteArray) ∧
      Token.scan source = ((Token.scanAll source).toList.mapM id).map List.toArray := by
  rcases Segmented.exists_of_between [] source.toList with ⟨answers, segmented, reads⟩
  change Cursor.Reads (Cursor.ofSource source) answers at reads
  have same : (Token.scanAll source).toList = answers := reads.scanAllFrom #[]
  have size : (Token.scanAll source).size = answers.length := by
    rw [← same, Array.length_toList]
  rw [same, size]
  refine ⟨segmented, ?_, reads.next_afterCalls segmented.getLast?, ?_, reads.scanFrom #[]⟩
  · rw [← String.length_toList]
    exact segmented.length_le
  · intro token member
    rw [← String.utf8Encode_toList]
    exact segmented.slice member

end ScriptEngine
