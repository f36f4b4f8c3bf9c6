import ScriptEngine.Proofs.Token.Segmentation

/-!
# Tokens do not depend on layout

A token is recognised by its own characters as soon as white space or the end of the text
follows it.  The lexemes of a text can therefore be written down again with other gaps,
as long as every gap begins with white space, and the tokens stay the same
(`tokens_ignore_layout`).
-/

namespace ScriptEngine

/-- A blank that begins with white space, and not with a comment. -/
def IsGap (gap : List Char) : Prop :=
  Blank gap ∧ gap ≠ [] ∧ Cursor.SetApart gap

/-- Lexemes in order with a gap after each of them, which the last one may lack. -/
inductive Spaced : List String → List Char → Prop
  | nothing : Spaced [] []
  | last (lexeme : String) : Spaced [lexeme] lexeme.toList
  | followed
      (lexeme : String)
      {gap text : List Char}
      {lexemes : List String}
      (isGap : IsGap gap)
      (others : Spaced lexemes text) :
      Spaced (lexeme :: lexemes) (lexeme.toList ++ gap ++ text)

/-! ## Blanks are skipped -/

namespace Cursor

theorem skipLayout_comment
    {text : List Char}
    (oneLine : '\n' ∉ text)
    (rest : List Char)
    (offset line : Nat) :
    skipLayout true (text ++ '\n' :: rest) offset line =
      skipLayout false rest (offset + Text.byteLength text + 1) (line + 1) := by
  induction text generalizing offset with
  | nil => rfl
  | cons character text induction =>
      have other : character ≠ '\n' := fun isFeed => oneLine (by simp [isFeed])
      have others : '\n' ∉ text := fun member => oneLine (List.mem_cons_of_mem _ member)
      rw [List.cons_append, skipLayout, if_neg (by simpa using other), if_pos (by rfl),
        induction others, Text.byteLength_cons, Nat.add_assoc offset]

/-- A blank is skipped as a whole. -/
theorem skipLayout_blank
    {gap : List Char}
    (blank : Blank gap)
    (rest : List Char)
    (offset line : Nat) :
    skipLayout false (gap ++ rest) offset line =
      skipLayout false rest (offset + Text.byteLength gap) (line + gap.count '\n') := by
  induction blank generalizing offset line with
  | nil => rfl
  | @space character gap layout blank induction =>
      rw [List.cons_append, skipLayout]
      by_cases isFeed : character = '\n'
      · subst isFeed
        have size : '\n'.utf8Size = 1 := rfl
        rw [if_pos (by rfl), induction, Text.byteLength_cons, List.count_cons_self, size]
        congr 1 <;> omega
      · rw [if_neg (by simpa using isFeed), if_pos (by simpa using layout), induction,
          Text.byteLength_cons, List.count_cons_of_ne isFeed, Nat.add_assoc]
  | @comment text gap oneLine blank induction =>
      have size : '/'.utf8Size = 1 := rfl
      have feed : '\n'.utf8Size = 1 := rfl
      have absent : text.count '\n' = 0 := List.count_eq_zero.mpr oneLine
      have opened :
          skipLayout false ('/' :: '/' :: (text ++ '\n' :: gap) ++ rest) offset line =
            skipLayout true (text ++ '\n' :: (gap ++ rest)) (offset + 1 + 1) line := by
        rw [List.cons_append, List.cons_append, List.append_assoc, List.cons_append]
        rfl
      rw [opened, skipLayout_comment oneLine, induction]
      have bytes :
          Text.byteLength ('/' :: '/' :: (text ++ '\n' :: gap)) =
            1 + (1 + (Text.byteLength text + (1 + Text.byteLength gap))) := by
        simp only [Text.byteLength_cons, Text.byteLength_append, size, feed]
      have lines :
          ('/' :: '/' :: (text ++ '\n' :: gap)).count '\n' = gap.count '\n' + 1 := by
        rw [List.count_cons_of_ne (by decide), List.count_cons_of_ne (by decide),
          List.count_append, absent, List.count_cons_self, Nat.zero_add]
      rw [bytes, lines]
      congr 1 <;> omega

theorem skipLayout_of_begins
    {rest : List Char}
    (begins : BeginsToken rest)
    (offset line : Nat) :
    skipLayout false rest offset line = { rest, offset, line } := by
  cases rest with
  | nil => rfl
  | cons first rest =>
      rcases begins with ⟨visible, noComment⟩
      have noFeed : first ≠ '\n' := by
        rintro rfl
        cases visible
      rw [skipLayout, if_neg (by simpa using noFeed), if_neg (by simpa using visible), if_neg]
      intro slashes
      apply noComment
      simpa using slashes

end Cursor

open Cursor

/-! ## Spellings that are set apart -/

/-- A spelling is visible: it begins neither with white space nor with a comment. -/
theorem TokenKind.Spells.begins
    {kind : TokenKind}
    {text rest : List Char}
    (spells : kind.Spells text)
    (apart : SetApart rest) :
    BeginsToken (text ++ rest) := by
  have visible :
      ∀ {first : Char} {after : List Char} {property : Char → Bool},
        property first = true →
          property ' ' = false → property '\t' = false → property '\n' = false →
            property '\r' = false → property '/' = false → BeginsToken (first :: after) := by
    intro first after property has blank tab feed carriageReturn slash
    refine ⟨Bool.eq_false_of_not_eq_true fun layout => ?_, ?_⟩
    · rcases eq_of_isLayout layout with rfl | rfl | rfl | rfl
      · cases has.symm.trans blank
      · cases has.symm.trans tab
      · cases has.symm.trans feed
      · cases has.symm.trans carriageReturn
    · rintro ⟨rfl, -⟩
      cases has.symm.trans slash
  cases spells with
  | number numeral read =>
      cases numeral with
      | whole firstDigit allDigits => exact visible firstDigit rfl rfl rfl rfl rfl
      | fractional firstDigit allDigits tenthsDigit fractionDigits =>
          exact visible firstDigit rfl rfl rfl rfl rfl
  | string inside => exact ⟨rfl, nofun⟩
  | identifier starts continues free => exact visible starts rfl rfl rfl rfl rfl
  | keyword starts continues spelled => exact visible starts rfl rfl rfl rfl rfl
  | punctuation mark =>
      cases mark
      case slash => exact ⟨rfl, fun comment => apart.head?_ne '/' rfl comment.2⟩
      all_goals exact ⟨rfl, by rintro ⟨⟨⟩, -⟩⟩

theorem TokenKind.Spells.ne_nil
    {kind : TokenKind}
    {text : List Char}
    (spells : kind.Spells text) :
    text ≠ [] := by
  rintro rfl
  have begins : BeginsToken ([] ++ []) := spells.begins nofun
  exact begins

namespace Cursor

/-- After a blank the scanner reads a spelling that is set apart. -/
theorem next_of_spells
    {kind : TokenKind}
    {lead text rest : List Char}
    (blank : Blank lead)
    (spells : kind.Spells text)
    (apart : SetApart rest)
    (before : List Char) :
    ∃ token,
      (between before (lead ++ (text ++ rest))).next =
          (.ok token, between (before ++ lead ++ text) rest) ∧
        token.kind = kind ∧
        token.lexeme = String.ofList text := by
  have begins := spells.begins apart
  cases text with
  | nil => exact absurd rfl spells.ne_nil
  | cons first tail =>
      have skips :
          skipLayout false (lead ++ (first :: tail ++ rest))
              (between before (lead ++ (first :: tail ++ rest))).offset
              (between before (lead ++ (first :: tail ++ rest))).line =
            between (before ++ lead) (first :: tail ++ rest) := by
        rw [skipLayout_blank blank, skipLayout_of_begins begins]
        simp [between, lineAfter, Nat.add_assoc]
      unfold next
      simp only [rest_between, skips]
      simp only [List.cons_append, spells.recognize apart, after_between]
      exact ⟨_, rfl, rfl, rfl⟩

/-- After a blank there is nothing but the end of the text. -/
theorem next_of_blank
    {lead : List Char}
    (blank : Blank lead)
    (before : List Char) :
    (between before lead).next = (.ok (endOf (before ++ lead)), between (before ++ lead) []) := by
  have skips :
      skipLayout false lead (between before lead).offset (between before lead).line =
        between (before ++ lead) [] := by
    have all := skipLayout_blank blank [] (between before lead).offset (between before lead).line
    rw [List.append_nil] at all
    rw [all]
    simp [skipLayout, between, lineAfter, Nat.add_assoc]
  unfold next
  simp only [rest_between, skips]
  rfl

/-- Tokens that are spelled by their lexemes. -/
def Spelled (tokens : List Token) : Prop :=
  ∀ token ∈ tokens, token.kind.Spells token.lexeme.toList

/-- What tokens of different texts can have in common: their kinds and lexemes in order. -/
def sayings (tokens : List Token) : List (TokenKind × String) :=
  tokens.map fun token => (token.kind, token.lexeme)

/-- A spelled token is read after a blank, and what follows it is read after it. -/
theorem reads_of_spells
    {token : Token}
    {lead rest : List Char}
    (blank : Blank lead)
    (spells : token.kind.Spells token.lexeme.toList)
    (apart : SetApart rest)
    (before : List Char) :
    ∃ other : Token,
      (other.kind, other.lexeme) = (token.kind, token.lexeme) ∧
        ∀ answers,
          Reads (between (before ++ lead ++ token.lexeme.toList) rest) answers →
            Reads (between before (lead ++ (token.lexeme.toList ++ rest)))
              (.ok other :: answers) := by
  rcases next_of_spells blank spells apart before with ⟨other, read, kind, same⟩
  rw [String.ofList_toList] at same
  refine ⟨other, Prod.ext kind same, fun answers reads => .more read ?_ reads⟩
  rintro _ ⟨⟩
  rw [kind]
  exact spells.goesOn

/-- Lexemes with gaps between them are read as tokens that say the same. -/
theorem Reads.of_spaced
    {tokens : List Token}
    {lead text : List Char}
    (spelled : Spelled tokens)
    (spaced : Spaced (tokens.map Token.lexeme) text)
    (blank : Blank lead)
    (before : List Char) :
    ∃ others : List Token,
      Reads (between before (lead ++ text)) (others.map .ok) ∧
        sayings others = sayings tokens ++ [(.endOfInput, "")] := by
  generalize lexemes : tokens.map Token.lexeme = spellings at spaced
  induction spaced generalizing tokens lead before with
  | nothing =>
      cases List.map_eq_nil_iff.mp lexemes
      rw [List.append_nil]
      exact ⟨[_], .ended (next_of_blank blank before) rfl, rfl⟩
  | last lexeme =>
      rcases List.map_eq_singleton_iff.mp lexemes with ⟨token, rfl, rfl⟩
      have spells := spelled token (List.mem_singleton_self token)
      have apart : SetApart [] := nofun
      rcases reads_of_spells blank spells apart before with ⟨other, same, goesOn⟩
      rw [List.append_nil] at goesOn
      refine ⟨[other, _], goesOn _ (.ended (next_of_blank .nil _) rfl), ?_⟩
      exact congrArg (fun saying => [saying, (.endOfInput, "")]) same
  | @followed lexeme gap text lexemes isGap others induction =>
      rcases List.map_eq_cons_iff.mp lexemes with ⟨token, tokens, rfl, rfl, rfl⟩
      rcases isGap with ⟨gapBlank, nonempty, gapApart⟩
      have spells := spelled token List.mem_cons_self
      have apart : SetApart (gap ++ text) := by
        cases gap with
        | nil => exact absurd rfl nonempty
        | cons first gap => exact gapApart
      rcases reads_of_spells blank spells apart before with ⟨other, same, goesOn⟩
      rcases induction (fun token member => spelled token (List.mem_cons_of_mem _ member))
        gapBlank _ rfl with ⟨others, reads, alike⟩
      refine ⟨other :: others, ?_, congrArg₂ List.cons same alike⟩
      rw [List.append_assoc]
      exact goesOn _ reads

end Cursor

/-! ## The tokens of a text -/

/-- All answers are tokens if the scan succeeds. -/
theorem eq_map_ok_of_mapM
    {answers : List (Except ScanError Token)}
    {tokens : List Token}
    (succeeds : answers.mapM id = .ok tokens) :
    answers = tokens.map .ok := by
  induction answers generalizing tokens with
  | nil =>
      cases succeeds
      rfl
  | cons answer answers induction =>
      rw [List.mapM_cons] at succeeds
      cases answer with
      | error error => cases succeeds
      | ok token =>
          rcases others : answers.mapM id with error | rest
          · rw [others] at succeeds
            cases succeeds
          · rw [others] at succeeds
            cases succeeds
            rw [induction others]
            rfl

theorem mapM_map_ok (tokens : List Token) :
    (tokens.map Except.ok).mapM id = (.ok tokens : Except ScanError (List Token)) := by
  induction tokens with
  | nil => rfl
  | cons token tokens induction =>
      rw [List.map_cons, List.mapM_cons, induction]
      rfl

/-- The tokens before the end of the input are spelled by their lexemes. -/
theorem Segmented.spelled
    {before characters : List Char}
    {tokens : List Token}
    (segmented : Segmented before characters (tokens.map .ok)) :
    ∃ others last,
      tokens = others ++ [last] ∧
        Cursor.Spelled others ∧
        last.kind = .endOfInput ∧
        last.lexeme = "" := by
  generalize found : tokens.map Except.ok = answers at segmented
  induction segmented generalizing tokens with
  | ended blank =>
      rcases List.map_eq_singleton_iff.mp found with ⟨token, rfl, same⟩
      cases same
      exact ⟨[], _, rfl, nofun, rfl, rfl⟩
  | piece blank nonempty answered segmented induction =>
      rcases List.map_eq_cons_iff.mp found with ⟨token, tokens, rfl, rfl, rfl⟩
      rcases induction rfl with ⟨others, last, rfl, spelled, ends⟩
      refine ⟨token :: others, last, rfl, List.forall_mem_cons.mpr ⟨?_, spelled⟩, ends⟩
      cases answered with
      | token spells =>
          rw [String.toList_ofList]
          exact spells

/-- The tokens of a text are spelled by their lexemes, up to the end of the input. -/
theorem spelled_of_scan
    {source : String}
    {tokens : Array Token}
    (scanned : Token.scan source = .ok tokens) :
    ∃ others last,
      tokens = (others ++ [last]).toArray ∧
        Cursor.Spelled others ∧
        last.kind = .endOfInput ∧
        last.lexeme = "" := by
  rcases Segmented.exists_of_between [] source.toList with ⟨answers, segmented, reads⟩
  have scans : Token.scan source = _ := reads.scanFrom #[]
  rw [scanned] at scans
  rcases found : answers.mapM id with error | all
  · rw [found] at scans
    cases scans
  · rw [found] at scans
    cases scans
    cases eq_map_ok_of_mapM found
    rcases segmented.spelled with ⟨others, last, rfl, spelled, isEnd, isEmpty⟩
    exact ⟨others, last, rfl, spelled, isEnd, isEmpty⟩

/-- Single spaces are gaps. -/
theorem Spaced.intercalate (lexemes : List String) :
    Spaced lexemes (" ".intercalate lexemes).toList := by
  have isGap : IsGap [' '] := by
    refine ⟨.space rfl .nil, nofun, ?_⟩
    rintro _ ⟨⟩
    rfl
  induction lexemes with
  | nil => exact .nothing
  | cons lexeme lexemes induction =>
      cases lexemes with
      | nil =>
          rw [String.intercalate_singleton]
          exact .last lexeme
      | cons next lexemes =>
          rw [String.intercalate_cons_cons, String.toList_append, String.toList_append]
          exact .followed lexeme isGap induction

/--
The lexemes of a text, written down in order with gaps that begin with white space, have
the same kinds and contents as before.  Single spaces are such gaps.
-/
theorem tokens_ignore_layout
    {source : String}
    {tokens : Array Token}
    (scanned : Token.scan source = .ok tokens) :
    (∀ lead text,
      Blank lead →
        Spaced (tokens.toList.dropLast.map Token.lexeme) text →
          ∃ others,
            Token.scan (String.ofList (lead ++ text)) = .ok others ∧
              Cursor.sayings others.toList = Cursor.sayings tokens.toList) ∧
      ∃ others,
        Token.scan (" ".intercalate (tokens.toList.dropLast.map Token.lexeme)) = .ok others ∧
          Cursor.sayings others.toList = Cursor.sayings tokens.toList := by
  rcases spelled_of_scan scanned with ⟨others, last, rfl, spelled, isEnd, isEmpty⟩
  have same :
      Cursor.sayings (others ++ [last]) =
        Cursor.sayings others ++ [(TokenKind.endOfInput, "")] := by
    simp [Cursor.sayings, isEnd, isEmpty]
  have rewritten :
      ∀ lead text,
        Blank lead →
          Spaced (others.map Token.lexeme) text →
            ∃ found : Array Token,
              Token.scan (String.ofList (lead ++ text)) = .ok found ∧
                Cursor.sayings found.toList = Cursor.sayings (others ++ [last]) := by
    intro lead text blank spaced
    rcases Cursor.Reads.of_spaced spelled spaced blank [] with ⟨found, reads, alike⟩
    refine ⟨found.toArray, ?_, ?_⟩
    · have scans := reads.scanFrom #[]
      rw [mapM_map_ok] at scans
      unfold Token.scan Cursor.ofSource
      rw [String.toList_ofList]
      exact scans
    · rw [same]
      exact alike
  have lexemes : (others ++ [last]).dropLast = others := List.dropLast_concat
  simp only [lexemes]
  refine ⟨rewritten, ?_⟩
  rcases rewritten [] _ .nil (.intercalate _) with ⟨found, scans, alike⟩
  rw [List.nil_append, String.ofList_toList] at scans
  exact ⟨found, scans, alike⟩

/-- A text with two slashes that divide, two in a comment and two in a string. -/
def crowdedSource : String :=
  "a/b//c\n/\"//\""

/-- The tokens of the text. -/
def crowdedTokens : Array Token :=
  #[
    ⟨.identifier "a", 0, 1, 1, "a"⟩,
    ⟨.punctuation .slash, 1, 2, 1, "/"⟩,
    ⟨.identifier "b", 2, 3, 1, "b"⟩,
    ⟨.punctuation .slash, 7, 8, 2, "/"⟩,
    ⟨.string "//", 8, 12, 2, "\"//\""⟩,
    ⟨.endOfInput, 12, 12, 2, ""⟩
  ]

theorem crowdedSource_scanned : Token.scan crowdedSource = .ok crowdedTokens := by
  cbv

/-- The tokens of the text can be set apart by comments that follow a space. -/
theorem crowdedTokens_ignore_layout :
    Token.scan crowdedSource = .ok crowdedTokens ∧
      (∀ lead text,
        Blank lead →
          Spaced ["a", "/", "b", "/", "\"//\""] text →
            ∃ others,
              Token.scan (String.ofList (lead ++ text)) = .ok others ∧
                Cursor.sayings others.toList = Cursor.sayings crowdedTokens.toList) ∧
        ∃ others,
          Token.scan "a / b / \"//\"" = .ok others ∧
            Cursor.sayings others.toList = Cursor.sayings crowdedTokens.toList :=
  ⟨crowdedSource_scanned, tokens_ignore_layout crowdedSource_scanned⟩

end ScriptEngine
