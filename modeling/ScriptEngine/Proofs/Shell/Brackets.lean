import ScriptEngine.Shell.Entry
import ScriptEngine.Proofs.Token.Segmentation

/-!
# The bracket check and the scanner

The shell decides from the characters of an entry whether brackets are left open, without
asking the scanner.  It agrees with the scanner all the same: it skips what the scanner
takes for blanks and strings, and it sees the brackets that are tokens
(`isBalanced_iff_brackets_match`).

What it means for brackets to match is said on the list of the bracket tokens alone
(`Matched`, `Innermost`).  The check goes through this list from left to right and
remembers the brackets that are open (`stillOpen?`).
-/

namespace ScriptEngine

/-! ## Brackets -/

/-- The pairs of brackets. -/
inductive Bracket where
  | round
  | square
  | curly
deriving Repr, DecidableEq

/-- The closing bracket of a pair. -/
def Bracket.closing : Bracket → Char
  | round => ')'
  | square => ']'
  | curly => '\x7d'

/-- One end of a pair of brackets. -/
inductive BracketMark where
  | opens (bracket : Bracket)
  | closes (bracket : Bracket)
deriving Repr, DecidableEq

/-- The end of a pair of brackets that a punctuation mark is. -/
def Punctuation.bracketMark? : Punctuation → Option BracketMark
  | leftParen => some (.opens .round)
  | rightParen => some (.closes .round)
  | leftBracket => some (.opens .square)
  | rightBracket => some (.closes .square)
  | leftBrace => some (.opens .curly)
  | rightBrace => some (.closes .curly)
  | _ => none

/-- The end of a pair of brackets that a token is. -/
def TokenKind.bracketMark? : TokenKind → Option BracketMark
  | punctuation mark => mark.bracketMark?
  | _ => none

/-- The end of a pair of brackets that the scanner answers with. -/
def answeredMark? : Except ScanError Token → Option BracketMark
  | .ok token => token.kind.bracketMark?
  | .error _ => none

/-- The brackets among the answers of the scanner. -/
def bracketMarks (answers : List (Except ScanError Token)) : List BracketMark :=
  answers.filterMap answeredMark?

/-- The input ended inside a string. -/
def LeavesStringOpen (answers : List (Except ScanError Token)) : Prop :=
  ∃ error, .error error ∈ answers ∧ error.problem = .unterminatedString

/-- Every bracket has its partner. -/
inductive Matched : List BracketMark → Prop
  | nil : Matched []
  | pair
      (bracket : Bracket)
      {inner rest : List BracketMark}
      (inside : Matched inner)
      (others : Matched rest) :
      Matched (.opens bracket :: (inner ++ .closes bracket :: rest))

/-- The innermost bracket that is open after some others is one of the given pair. -/
def Innermost (before : List BracketMark) (bracket : Bracket) : Prop :=
  ∃ outer inner, before = outer ++ .opens bracket :: inner ∧ Matched inner

/-- A closing bracket has no partner before it. -/
def HasStray (marks : List BracketMark) : Prop :=
  ∃ before bracket after,
    marks = before ++ .closes bracket :: after ∧ ¬ Innermost before bracket

namespace Matched

variable {marks others : List BracketMark}

theorem append (matched : Matched marks) (also : Matched others) : Matched (marks ++ others) := by
  induction matched with
  | nil => exact also
  | pair bracket inside _ _ induction =>
      rw [List.cons_append, List.append_assoc, List.cons_append]
      exact .pair bracket inside induction

theorem wrap (bracket : Bracket) (inside : Matched marks) :
    Matched (.opens bracket :: (marks ++ [.closes bracket])) :=
  .pair bracket inside .nil

end Matched

/-! ## Brackets from left to right -/

/--
The brackets that are open after some marks, innermost first, where `awaited` have been
open before; none if a closing bracket has no partner.
-/
def stillOpen? : List Bracket → List BracketMark → Option (List Bracket)
  | awaited, [] => some awaited
  | awaited, .opens bracket :: rest => stillOpen? (bracket :: awaited) rest
  | [], .closes _ :: _ => none
  | expected :: outer, .closes bracket :: rest =>
    if expected = bracket then stillOpen? outer rest else none

theorem stillOpen?_closes
    {expected bracket : Bracket}
    {outer : List Bracket}
    {rest : List BracketMark} :
    stillOpen? (expected :: outer) (.closes bracket :: rest) =
      if expected = bracket then stillOpen? outer rest else none :=
  rfl

theorem stillOpen?_append (awaited : List Bracket) (marks others : List BracketMark) :
    stillOpen? awaited (marks ++ others) =
      (stillOpen? awaited marks).bind fun left => stillOpen? left others := by
  induction marks generalizing awaited with
  | nil => rfl
  | cons mark marks induction =>
      rcases mark with bracket | bracket
      · exact induction (bracket :: awaited)
      · rcases awaited with _ | ⟨expected, outer⟩
        · rfl
        · rw [List.cons_append, stillOpen?_closes, stillOpen?_closes]
          split
          · exact induction outer
          · rfl

/-- What matches leaves open what was open. -/
theorem Matched.stillOpen?
    {marks : List BracketMark}
    (matched : Matched marks)
    (awaited : List Bracket) :
    stillOpen? awaited marks = some awaited := by
  induction matched generalizing awaited with
  | nil => rfl
  | @pair bracket inner rest _ _ inside others =>
      change ScriptEngine.stillOpen? (bracket :: awaited) (inner ++ .closes bracket :: rest) = _
      rw [stillOpen?_append, inside, Option.bind_some, stillOpen?_closes, if_pos rfl, others]

/--
The marks up to the innermost bracket that is open leave the other ones open, and those
behind it match.
-/
theorem exists_of_stillOpen?
    {marks : List BracketMark}
    {left : List Bracket}
    (opened : stillOpen? [] marks = some left) :
    (left = [] → Matched marks) ∧
      ∀ bracket rest,
        left = bracket :: rest →
          ∃ outer inner,
            marks = outer ++ .opens bracket :: inner ∧
              Matched inner ∧
              stillOpen? [] outer = some rest := by
  induction length : marks.length using Nat.strong_induction_on generalizing marks left with
  | _ bound induction =>
      -- The last mark decides; a closing one leads to the bracket that it closes.
      rcases List.eq_nil_or_concat marks with rfl | ⟨earlier, mark, rfl⟩
      · cases opened
        exact ⟨fun _ => .nil, nofun⟩
      · rw [List.concat_eq_append] at opened length ⊢
        rw [List.length_append, List.length_singleton] at length
        rw [stillOpen?_append] at opened
        rcases Option.bind_eq_some_iff.mp opened with ⟨before, earlierOpen, last⟩
        cases mark with
        | opens bracket =>
            cases last
            refine ⟨nofun, ?_⟩
            rintro _ _ ⟨⟩
            exact ⟨earlier, [], rfl, .nil, earlierOpen⟩
        | closes bracket =>
            rcases before with _ | ⟨expected, outer⟩
            · cases last
            · rw [stillOpen?_closes] at last
              split at last
              · rename_i same
                subst same
                cases last
                have shorter := induction earlier.length (by omega) earlierOpen rfl
                rcases shorter.2 expected left rfl with ⟨front, inner, rfl, inside, frontOpen⟩
                rw [List.length_append] at length
                rcases induction front.length (by omega) frontOpen rfl with ⟨closed, goesOn⟩
                have whole :
                    front ++ BracketMark.opens expected :: inner ++ [BracketMark.closes expected] =
                      front ++
                        BracketMark.opens expected ::
                          (inner ++ [BracketMark.closes expected]) := by
                  rw [List.append_assoc, List.cons_append]
                rw [whole]
                refine ⟨fun isEmpty => (closed isEmpty).append (.wrap expected inside), ?_⟩
                intro other rest isLeft
                rcases goesOn other rest isLeft with ⟨start, more, rfl, between, startOpen⟩
                refine ⟨start,
                  more ++
                    BracketMark.opens expected :: (inner ++ [BracketMark.closes expected]), ?_,
                  between.append (.wrap expected inside), startOpen⟩
                rw [List.append_assoc, List.cons_append]
              · cases last

theorem stillOpen?_eq_nil_iff {marks : List BracketMark} :
    stillOpen? [] marks = some [] ↔ Matched marks :=
  ⟨fun opened => (exists_of_stillOpen? opened).1 rfl, fun matched => matched.stillOpen? []⟩

/-- A bracket that is open is the innermost one exactly if only pairs follow it. -/
theorem innermost_iff
    {before : List BracketMark}
    {left : List Bracket}
    (opened : stillOpen? [] before = some left)
    (bracket : Bracket) :
    Innermost before bracket ↔ left.head? = some bracket := by
  constructor
  · rintro ⟨outer, inner, rfl, inside⟩
    rw [stillOpen?_append] at opened
    rcases Option.bind_eq_some_iff.mp opened with ⟨rest, -, last⟩
    rw [stillOpen?, inside.stillOpen?] at last
    cases last
    rfl
  · intro isHead
    rcases left with _ | ⟨expected, rest⟩
    · cases isHead
    · cases isHead
      rcases (exists_of_stillOpen? opened).2 bracket rest rfl with ⟨outer, inner, split, inside, -⟩
      exact ⟨outer, inner, split, inside⟩

theorem stillOpen?_closes_eq_none_iff
    (left : List Bracket)
    (bracket : Bracket) :
    stillOpen? left [.closes bracket] = none ↔ left.head? ≠ some bracket := by
  rcases left with _ | ⟨expected, rest⟩
  · exact iff_of_true rfl nofun
  · rw [stillOpen?_closes]
    split
    · rename_i same
      exact iff_of_false nofun (not_not.mpr (congrArg some same))
    · rename_i other
      exact iff_of_true rfl fun isHead => other (Option.some.inj isHead)

/-- The check stops at the first closing bracket without a partner. -/
theorem stillOpen?_eq_none_iff {marks : List BracketMark} :
    stillOpen? [] marks = none ↔ HasStray marks := by
  constructor
  · induction marks using List.reverseRecOn with
    | nil => nofun
    | append_singleton earlier mark induction =>
        intro refused
        rw [stillOpen?_append] at refused
        rcases earlierOpen : stillOpen? [] earlier with _ | left
        · rcases induction earlierOpen with ⟨before, bracket, after, rfl, stray⟩
          exact ⟨before, bracket, after ++ [mark], by simp, stray⟩
        · rw [earlierOpen, Option.bind_some] at refused
          cases mark with
          | opens bracket => cases refused
          | closes bracket =>
              refine ⟨earlier, bracket, [], rfl, ?_⟩
              rw [innermost_iff earlierOpen]
              exact (stillOpen?_closes_eq_none_iff left bracket).mp refused
  · rintro ⟨before, bracket, after, rfl, stray⟩
    rw [stillOpen?_append]
    rcases beforeOpen : stillOpen? [] before with _ | left
    · rfl
    · rw [innermost_iff beforeOpen] at stray
      rw [Option.bind_some, ← List.singleton_append, stillOpen?_append,
        (stillOpen?_closes_eq_none_iff left bracket).mpr stray]
      rfl

namespace Cursor

/-- At the end of a text there is nothing but the end of the input. -/
theorem reads_nil
    {before : List Char}
    {answers : List (Except ScanError Token)}
    (reads : Reads (between before []) answers) :
    answers = [.ok (endOf before)] := by
  have ended :
      (between before []).next = (.ok (endOf before), between before []) := rfl
  cases reads with
  | ended read =>
      cases ended.symm.trans read
      rfl
  | more read goesOn =>
      cases ended.symm.trans read
      cases goesOn _ rfl

end Cursor

namespace Shell

/-! ## Characters that count -/

/-- Characters that the bracket check does not pass over. -/
def structural : List Char :=
  ['"', '/', '(', ')', '[', ']', '\x7b', '\x7d']

/-- A character with a property that no structural character has. -/
theorem not_structural_of
    {character : Char}
    (property : Char → Bool)
    (has : property character = true)
    (lacks : structural.all (fun other => !property other) = true) :
    character ∉ structural := by
  intro member
  have lacking := List.all_eq_true.mp lacks character member
  rw [has] at lacking
  cases lacking

/-- A comment does not begin between the character before and those that follow. -/
def Apart (previous : Char) (rest : List Char) : Prop :=
  previous = '/' → rest.head? ≠ some '/'

variable {awaited : List Char} {previous character : Char} {rest : List Char}

/-- One character outside comments and strings. -/
theorem balancedFrom_code :
    balancedFrom .code awaited previous (character :: rest) =
      if character = '"' then
        balancedFrom .quoted awaited character rest
      else if character = '/' ∧ previous = '/' then
        balancedFrom .comment awaited character rest
      else
        match closingOf? character with
        | some closing => balancedFrom .code (closing :: awaited) character rest
        | none =>
          if isClosing character then
            match awaited with
            | [] => true
            | expected :: outer =>
              if expected = character then balancedFrom .code outer character rest else true
          else
            balancedFrom .code awaited character rest :=
  (balancedFrom.eq_def ..).trans rfl

/-- The character before matters only where a comment begins. -/
theorem balancedFrom_of_apart (apart : Apart previous rest) :
    balancedFrom .code awaited previous rest = balancedFrom .code awaited '\x00' rest := by
  cases rest with
  | nil => rfl
  | cons character rest =>
      have noComment : ¬ (character = '/' ∧ previous = '/') := by
        rintro ⟨rfl, isSlash⟩
        exact apart isSlash rfl
      have noCommentAtStart : ¬ (character = '/' ∧ '\x00' = '/') := by
        rintro ⟨-, isSlash⟩
        cases isSlash
      rw [balancedFrom_code, balancedFrom_code, if_neg noComment, if_neg noCommentAtStart]

theorem balancedFrom_of_not_structural (neutral : character ∉ structural) :
    balancedFrom .code awaited previous (character :: rest) =
      balancedFrom .code awaited '\x00' rest := by
  simp only [structural, List.mem_cons, List.not_mem_nil, or_false, not_or] at neutral
  rcases neutral with ⟨noQuote, noSlash, noOpening, noClosing, noBracket, noBracketEnd, noBrace,
    noBraceEnd⟩
  have opensNothing : closingOf? character = none := by
    unfold closingOf?
    split <;> first | contradiction | rfl
  have closesNothing : isClosing character = false := by
    simp [isClosing, noClosing, noBracketEnd, noBraceEnd]
  rw [balancedFrom_code, if_neg noQuote, if_neg fun slashes => noSlash slashes.1]
  simp only [opensNothing, closesNothing]
  exact balancedFrom_of_apart fun isSlash => absurd isSlash noSlash

theorem balancedFrom_neutral
    {run : List Char}
    (neutral : ∀ character ∈ run, character ∉ structural) :
    balancedFrom .code awaited '\x00' (run ++ rest) = balancedFrom .code awaited '\x00' rest := by
  induction run with
  | nil => rfl
  | cons character run induction =>
      rcases List.forall_mem_cons.mp neutral with ⟨first, others⟩
      rw [List.cons_append, balancedFrom_of_not_structural first, induction others]

/-- A slash is passed over unless a comment begins with it. -/
theorem balancedFrom_slash (alone : rest.head? ≠ some '/') :
    balancedFrom .code awaited '\x00' ('/' :: rest) = balancedFrom .code awaited '\x00' rest :=
  balancedFrom_of_apart (fun _ => alone : Apart '/' rest)

/-! ## Comments and strings -/

theorem balancedFrom_comment_cons :
    balancedFrom .comment awaited previous (character :: rest) =
      balancedFrom (if character = '\n' then .code else .comment) awaited character rest :=
  rfl

theorem balancedFrom_quoted_cons :
    balancedFrom .quoted awaited previous (character :: rest) =
      balancedFrom (if character = '"' then .code else .quoted) awaited character rest :=
  rfl

theorem balancedFrom_inComment
    {text : List Char}
    (oneLine : '\n' ∉ text) :
    balancedFrom .comment awaited previous (text ++ '\n' :: rest) =
      balancedFrom .code awaited '\x00' rest := by
  induction text generalizing previous with
  | nil => exact balancedFrom_of_apart nofun
  | cons character text induction =>
      rcases not_or.mp (mt List.mem_cons.mpr oneLine) with ⟨other, others⟩
      rw [List.cons_append, balancedFrom_comment_cons, if_neg (Ne.symm other), induction others]

theorem balancedFrom_comment
    {text : List Char}
    (oneLine : '\n' ∉ text) :
    balancedFrom .code awaited '\x00' ('/' :: '/' :: (text ++ '\n' :: rest)) =
      balancedFrom .code awaited '\x00' rest :=
  balancedFrom_inComment oneLine

theorem balancedFrom_lastComment
    {text : List Char}
    (oneLine : '\n' ∉ text) :
    balancedFrom .comment awaited previous text = awaited.isEmpty := by
  induction text generalizing previous with
  | nil => exact Bool.and_true _
  | cons character text induction =>
      rcases not_or.mp (mt List.mem_cons.mpr oneLine) with ⟨other, others⟩
      rw [balancedFrom_comment_cons, if_neg (Ne.symm other), induction others]

theorem balancedFrom_inString
    {content : List Char}
    (inside : '"' ∉ content) :
    balancedFrom .quoted awaited previous (content ++ '"' :: rest) =
      balancedFrom .code awaited '\x00' rest := by
  induction content generalizing previous with
  | nil => exact balancedFrom_of_apart nofun
  | cons character content induction =>
      rcases not_or.mp (mt List.mem_cons.mpr inside) with ⟨other, others⟩
      rw [List.cons_append, balancedFrom_quoted_cons, if_neg (Ne.symm other), induction others]

theorem balancedFrom_openString
    {content : List Char}
    (inside : '"' ∉ content) :
    balancedFrom .quoted awaited previous content = false := by
  induction content generalizing previous with
  | nil => exact Bool.and_false _
  | cons character content induction =>
      rcases not_or.mp (mt List.mem_cons.mpr inside) with ⟨other, others⟩
      rw [balancedFrom_quoted_cons, if_neg (Ne.symm other), induction others]

theorem not_structural_of_isLayout (layout : Cursor.isLayout character = true) :
    character ∉ structural :=
  not_structural_of Cursor.isLayout layout (by decide)

/-- The check skips blanks. -/
theorem balancedFrom_blank
    {gap : List Char}
    (blank : Blank gap) :
    balancedFrom .code awaited '\x00' (gap ++ rest) = balancedFrom .code awaited '\x00' rest := by
  induction blank with
  | nil => rfl
  | space layout _ induction =>
      rw [List.cons_append, balancedFrom_of_not_structural (not_structural_of_isLayout layout),
        induction]
  | @comment text more oneLine _ induction =>
      have whole :
          '/' :: '/' :: (text ++ '\n' :: more) ++ rest =
            '/' :: '/' :: (text ++ '\n' :: (more ++ rest)) := by
        simp
      rw [whole, balancedFrom_comment oneLine, induction]

theorem balancedFrom_blankEnd
    {gap : List Char}
    (blank : BlankEnd gap) :
    balancedFrom .code awaited '\x00' gap = awaited.isEmpty := by
  cases blank with
  | blank blank =>
      have skipped := @balancedFrom_blank awaited [] _ blank
      rw [List.append_nil] at skipped
      exact skipped.trans (Bool.and_true _)
  | comment blank oneLine =>
      rw [balancedFrom_blank blank]
      exact balancedFrom_lastComment oneLine

/-! ## Tokens -/

theorem not_structural_of_isDigit (isDigit : character.isDigit = true) : character ∉ structural :=
  not_structural_of Char.isDigit isDigit (by decide)

theorem not_structural_of_numeral
    {text : List Char}
    (numeral : IsNumeral text) :
    ∀ character ∈ text, character ∉ structural := by
  cases numeral with
  | whole firstDigit allDigits =>
      exact List.forall_mem_cons.mpr
        ⟨not_structural_of_isDigit firstDigit,
          fun digit member => not_structural_of_isDigit (allDigits digit member)⟩
  | fractional firstDigit allDigits tenthsDigit fractionDigits =>
      refine List.forall_mem_append.mpr ⟨List.forall_mem_cons.mpr ⟨?_, ?_⟩,
        List.forall_mem_cons.mpr ⟨by decide, List.forall_mem_cons.mpr ⟨?_, ?_⟩⟩⟩
      · exact not_structural_of_isDigit firstDigit
      · exact fun digit member => not_structural_of_isDigit (allDigits digit member)
      · exact not_structural_of_isDigit tenthsDigit
      · exact fun digit member => not_structural_of_isDigit (fractionDigits digit member)

theorem not_structural_of_name
    {first : Char}
    {tail : List Char}
    (starts : Text.isIdentifierStart first = true)
    (continues : ∀ character ∈ tail, Text.isIdentifierContinue character = true) :
    ∀ character ∈ first :: tail, character ∉ structural := by
  refine List.forall_mem_cons.mpr ⟨?_, fun character member => ?_⟩
  · exact not_structural_of Text.isIdentifierStart starts rfl
  · exact not_structural_of Text.isIdentifierContinue (continues character member) rfl

/-- The check passes over a token, unless it is a bracket. -/
theorem balancedFrom_spelled
    {kind : TokenKind}
    {taken : List Char}
    (spells : kind.Spells taken)
    (begins : BeginsToken (taken ++ rest))
    (opened : List Bracket) :
    balancedFrom .code (opened.map Bracket.closing) '\x00' (taken ++ rest) =
      (stillOpen? opened kind.bracketMark?.toList).elim true fun left =>
        balancedFrom .code (left.map Bracket.closing) '\x00' rest := by
  cases spells with
  | number numeral => exact balancedFrom_neutral (not_structural_of_numeral numeral)
  | string inside =>
      rw [List.append_assoc]
      exact balancedFrom_inString inside
  | identifier starts continues =>
      exact balancedFrom_neutral (not_structural_of_name starts continues)
  | keyword starts continues => exact balancedFrom_neutral (not_structural_of_name starts continues)
  | punctuation mark =>
      have apart {character : Char} (other : character ≠ '/') : Apart character rest :=
        fun isSlash => absurd isSlash other
      cases mark with
      | leftParen | leftBracket | leftBrace =>
          exact balancedFrom_of_apart (apart (by decide))
      | rightParen | rightBracket | rightBrace =>
          rcases opened with _ | ⟨expected, outer⟩
          · rfl
          · cases expected <;> first | rfl | exact balancedFrom_of_apart (apart (by decide))
      | slash => exact balancedFrom_slash fun isSlash => begins.2 ⟨rfl, isSlash⟩
      | _ => exact balancedFrom_neutral (by simp [Punctuation.spelling, structural])

theorem not_structural_of_unexpected
    (begins : ∀ kind tail, ¬ TokenKind.Spells kind (character :: tail)) :
    character ∉ structural := by
  intro member
  have noMark (mark : Punctuation) : mark.spelling ≠ [character] := fun spelled =>
    begins (.punctuation mark) [] (spelled ▸ .punctuation mark)
  simp only [structural, List.mem_cons, List.not_mem_nil, or_false] at member
  rcases member with rfl | rfl | rfl | rfl | rfl | rfl | rfl | rfl
  · exact begins _ _ (.string (@List.not_mem_nil _ _))
  · exact noMark .slash rfl
  · exact noMark .leftParen rfl
  · exact noMark .rightParen rfl
  · exact noMark .leftBracket rfl
  · exact noMark .rightBracket rfl
  · exact noMark .leftBrace rfl
  · exact noMark .rightBrace rfl

/-! ## Whole entries -/

/-- What the check says, told by the answers of the scanner. -/
def Settles (opened : List Bracket) (answers : List (Except ScanError Token)) : Prop :=
  ∀ left,
    stillOpen? opened (bracketMarks answers) = some left →
      left = [] ∧ ¬ LeavesStringOpen answers

theorem leavesStringOpen_cons
    {answer : Except ScanError Token}
    (other : ∀ error, answer = .error error → error.problem ≠ .unterminatedString)
    (answers : List (Except ScanError Token)) :
    LeavesStringOpen (answer :: answers) ↔ LeavesStringOpen answers := by
  constructor
  · rintro ⟨error, member, isOpen⟩
    rcases List.mem_cons.mp member with isFirst | isLater
    · exact absurd isOpen (other error isFirst.symm)
    · exact ⟨error, isLater, isOpen⟩
  · rintro ⟨error, member, isOpen⟩
    exact ⟨error, List.mem_cons_of_mem _ member, isOpen⟩

theorem settles_cons
    {answer : Except ScanError Token}
    (other : ∀ error, answer = .error error → error.problem ≠ .unterminatedString)
    (opened : List Bracket)
    (answers : List (Except ScanError Token)) :
    Settles opened (answer :: answers) ↔
      ∀ left, stillOpen? opened (answeredMark? answer).toList = some left →
        Settles left answers := by
  have marks :
      bracketMarks (answer :: answers) = (answeredMark? answer).toList ++ bracketMarks answers := by
    unfold bracketMarks
    rw [List.filterMap_cons]
    cases answeredMark? answer <;> rfl
  unfold Settles
  simp only [marks, stillOpen?_append, leavesStringOpen_cons other, Option.bind_eq_some_iff]
  constructor
  · exact fun settles left isLeft last isLast => settles last ⟨left, isLeft, isLast⟩
  · rintro settles last ⟨left, isLeft, isLast⟩
    exact settles left isLeft last isLast

/-- From every place on, the check says what the answers of the scanner tell. -/
theorem exists_settles (before characters : List Char) :
    ∃ answers,
      Cursor.Reads (Cursor.between before characters) answers ∧
        ∀ opened : List Bracket,
          balancedFrom .code (opened.map Bracket.closing) '\x00' characters = true ↔
            Settles opened answers := by
  induction length : characters.length using Nat.strong_induction_on
    generalizing before characters with
  | _ bound induction =>
      rcases Cursor.next_between before characters with
        ⟨blank, read⟩ | ⟨gap, taken, rest, answer, rfl, blank, begins, nonempty, answered, read⟩
      · refine ⟨_, .ended read rfl, fun opened => ?_⟩
        rw [balancedFrom_blankEnd blank]
        constructor
        · rintro isEmpty left ⟨⟩
          refine ⟨by simpa using isEmpty, ?_⟩
          rintro ⟨error, member, -⟩
          cases List.mem_singleton.mp member
        · intro settles
          simpa using (settles opened rfl).1
      · have shorter : rest.length < bound := by
          have positive := List.length_pos_of_ne_nil nonempty
          simp only [← length, List.length_append]
          omega
        rcases induction rest.length shorter (before ++ gap ++ taken) rest rfl with
          ⟨answers, reads, agree⟩
        refine ⟨answer :: answers, .more read answered.goesOn reads, fun opened => ?_⟩
        rw [List.append_assoc, balancedFrom_blank blank]
        cases answered with
        | token spells =>
            rw [balancedFrom_spelled spells begins]
            refine Iff.trans ?_ (settles_cons ?_ opened answers).symm
            · change _ ↔ ∀ left, stillOpen? opened (TokenKind.bracketMark? _).toList = some left → _
              rcases stillOpen? opened (TokenKind.bracketMark? _).toList with _ | left
              · exact iff_of_true rfl nofun
              · refine (agree left).trans ⟨?_, fun settles => settles left rfl⟩
                rintro settles _ ⟨⟩
                exact settles
            · exact nofun
        | unexpected single unexpected =>
            subst single
            rw [List.singleton_append,
              balancedFrom_of_not_structural (not_structural_of_unexpected unexpected), agree]
            refine Iff.trans ⟨?_, ?_⟩ (settles_cons ?_ opened answers).symm
            · rintro settles _ ⟨⟩
              exact settles
            · exact fun settles => settles opened rfl
            · rintro _ ⟨⟩
              exact nofun
        | unterminated isOpened inside isLast =>
            subst isOpened isLast
            rw [Cursor.reads_nil reads, List.append_nil]
            refine iff_of_false ?_ fun settles => ?_
            · rw [balancedFrom_code, if_pos rfl, balancedFrom_openString inside]
              exact nofun
            · exact (settles opened rfl).2 ⟨_, List.mem_cons_self, rfl⟩

/--
An entry passes the check if the scanner meets a closing bracket without a partner, or if
all brackets that it meets have their partners and no string is left open.
-/
theorem isBalanced_iff_brackets_match (entry : String) :
    isBalanced entry = true ↔
      HasStray (bracketMarks (Token.scanAll entry).toList) ∨
        Matched (bracketMarks (Token.scanAll entry).toList) ∧
          ¬ LeavesStringOpen (Token.scanAll entry).toList := by
  rcases exists_settles [] entry.toList with ⟨answers, reads, agree⟩
  have same : (Token.scanAll entry).toList = answers := reads.scanAllFrom #[]
  rw [same, ← stillOpen?_eq_none_iff, ← stillOpen?_eq_nil_iff]
  refine (agree []).trans ?_
  unfold Settles
  rcases stillOpen? [] (bracketMarks answers) with _ | left
  · exact iff_of_true nofun (.inl rfl)
  · simp

end Shell

end ScriptEngine
