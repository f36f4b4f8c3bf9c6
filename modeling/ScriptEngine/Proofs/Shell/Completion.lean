import ScriptEngine.Shell.Completion
import ScriptEngine.Proofs.Token.Segmentation

/-!
# Where completed words begin

The word before a position consists of the word characters behind the last separator.  The
shell takes it to begin one byte behind the beginning of that separator.  If the separator
is a single byte, or if there is none, this is where the word begins, and the word is
completed to the words of the vocabulary that it begins; a hint shows what the first of
them adds.  If the separator is longer, the position lies inside it, and there is no answer
(`completion_follows_last_separator`).
-/

namespace ScriptEngine

namespace Text

theorem utf8ByteSize_eq_byteLength (text : String) :
    text.utf8ByteSize = byteLength text.toList := by
  rw [← String.size_toByteArray, ← String.utf8Encode_toList, size_utf8Encode]

/-- A position behind a leading part is a position in what follows. -/
theorem splitAtByte?_append_add
    (front back : List Char)
    {position : Nat}
    (positive : 0 < position) :
    splitAtByte? (front ++ back) (byteLength front + position) =
      (splitAtByte? back position).map fun (middle, rest) => (front ++ middle, rest) := by
  induction front with
  | nil =>
      rw [List.nil_append, byteLength_nil, Nat.zero_add]
      cases splitAtByte? back position <;> rfl
  | cons character front induction =>
      have size := character.utf8Size_pos
      obtain ⟨before, isSuccessor⟩ :
          ∃ before, byteLength (character :: front) + position = before + 1 :=
        ⟨byteLength (character :: front) + position - 1, by omega⟩
      have remaining : before + 1 - character.utf8Size = byteLength front + position := by
        rw [byteLength_cons] at isSuccessor
        omega
      have fits : character.utf8Size ≤ before + 1 := by
        rw [byteLength_cons] at isSuccessor
        omega
      rw [isSuccessor, List.cons_append, splitAtByte?, if_pos fits, remaining, induction,
        Option.map_map]
      rfl

/-- A position inside a character cuts nothing. -/
theorem splitAtByte?_inside
    {character : Char}
    {position : Nat}
    (positive : 0 < position)
    (inside : position < character.utf8Size)
    (rest : List Char) :
    splitAtByte? (character :: rest) position = none := by
  rcases Nat.exists_eq_add_of_lt positive with ⟨before, rfl⟩
  rw [Nat.zero_add, splitAtByte?, if_neg (by omega)]

end Text

namespace Shell

open Text (byteLength splitAtByte?)

/-! ## The beginning of the last word -/

/-- The word characters behind the last separator. -/
def trailingWord (before : List Char) : List Char :=
  before.rtakeWhile isWordCharacter

/-- What stands before the last word; it ends with a separator. -/
def beforeTrailingWord (before : List Char) : List Char :=
  before.rdropWhile isWordCharacter

/-- The separator before the last word. -/
def lastSeparator? (before : List Char) : Option Char :=
  (beforeTrailingWord before).getLast?

theorem wordStartFrom_append (front back : List Char) (offset found : Nat) :
    wordStartFrom (front ++ back) offset found =
      wordStartFrom back (offset + byteLength front) (wordStartFrom front offset found) := by
  induction front generalizing offset found with
  | nil => rfl
  | cons character front induction =>
      rw [List.cons_append, wordStartFrom, induction, wordStartFrom, Text.byteLength_cons,
        Nat.add_assoc]

theorem wordStartFrom_word
    {word : List Char}
    (isWord : ∀ character ∈ word, isWordCharacter character = true)
    (offset found : Nat) :
    wordStartFrom word offset found = found := by
  induction word generalizing offset with
  | nil => rfl
  | cons character word induction =>
      rcases List.forall_mem_cons.mp isWord with ⟨first, others⟩
      rw [wordStartFrom, if_pos first, induction others]

theorem isWordCharacter_of_mem_trailingWord (before : List Char) :
    ∀ character ∈ trailingWord before, isWordCharacter character = true :=
  fun _ member => List.mem_rtakeWhile_imp member

theorem beforeTrailingWord_append (before : List Char) :
    beforeTrailingWord before ++ trailingWord before = before :=
  List.rdropWhile_append_rtakeWhile

/-- The last word is looked for behind its separator. -/
theorem wordStart_eq_wordStartFrom (before : List Char) :
    wordStart before = wordStartFrom (beforeTrailingWord before) 0 0 := by
  conv_lhs => rw [← beforeTrailingWord_append before]
  unfold wordStart
  rw [wordStartFrom_append,
    wordStartFrom_word (isWordCharacter_of_mem_trailingWord before)]

theorem exists_of_lastSeparator?
    {before : List Char}
    {separator : Char}
    (isLast : lastSeparator? before = some separator) :
    ∃ front,
      beforeTrailingWord before = front ++ [separator] ∧
        wordStart before = byteLength front + 1 := by
  rcases List.getLast?_eq_some_iff.mp isLast with ⟨front, split⟩
  have nonempty : beforeTrailingWord before ≠ [] := by
    rw [split]
    simp
  have separates : ¬ isWordCharacter separator = true := by
    have last := List.rdropWhile_last_not isWordCharacter before nonempty
    have same : (beforeTrailingWord before).getLast nonempty = separator := by
      simp only [split, List.getLast_concat]
    exact fun isWord => last (same.symm ▸ isWord)
  refine ⟨front, split, ?_⟩
  rw [wordStart_eq_wordStartFrom, split, wordStartFrom_append, wordStartFrom, if_neg separates,
    Nat.zero_add]
  rfl

/-- Behind a separator of one byte, or without one, the last word begins where it is looked for. -/
theorem wordStart_eq_byteLength
    {before : List Char}
    (narrow : ∀ separator ∈ lastSeparator? before, separator.utf8Size = 1) :
    wordStart before = byteLength (beforeTrailingWord before) := by
  rcases isLast : lastSeparator? before with _ | separator
  · have isEmpty := List.getLast?_eq_none_iff.mp isLast
    rw [wordStart_eq_wordStartFrom, isEmpty]
    rfl
  · rcases exists_of_lastSeparator? isLast with ⟨front, split, starts⟩
    rw [starts, split, Text.byteLength_append, Text.byteLength_cons, narrow separator isLast]
    rfl

theorem splitAtByte?_wordStart
    {before : List Char}
    (narrow : ∀ separator ∈ lastSeparator? before, separator.utf8Size = 1) :
    splitAtByte? before (wordStart before) =
      some (beforeTrailingWord before, trailingWord before) := by
  rw [wordStart_eq_byteLength narrow]
  conv_lhs =>
    arg 1
    rw [← beforeTrailingWord_append before]
  exact Text.splitAtByte?_append _ _

/-- Behind a longer separator it is looked for inside the separator. -/
theorem splitAtByte?_wordStart_eq_none
    {before : List Char}
    {separator : Char}
    (isLast : lastSeparator? before = some separator)
    (wide : 1 < separator.utf8Size) :
    splitAtByte? before (wordStart before) = none := by
  rcases exists_of_lastSeparator? isLast with ⟨front, split, starts⟩
  have whole : before = front ++ separator :: trailingWord before := by
    conv_lhs => rw [← beforeTrailingWord_append before, split]
    rw [List.append_assoc, List.singleton_append]
  rw [starts]
  conv_lhs =>
    arg 1
    rw [whole]
  rw [Text.splitAtByte?_append_add front _ Nat.one_pos,
    Text.splitAtByte?_inside Nat.one_pos wide, Option.map_none]

/-! ## Completions and hints -/

/-- Whether a word of the vocabulary begins with a word. -/
def begins (word : List Char) (offered : String) : Bool :=
  word.isPrefixOf offered.toList

/-- Whether a completion adds something. -/
def Completion.isProper (completion : Completion) : Bool :=
  completion.replacement != ""

theorem stripStart?_eq_some_iff {word text rest : List Char} :
    stripStart? word text = some rest ↔ text = word ++ rest := by
  induction word generalizing text with
  | nil => exact ⟨fun same => Option.some.inj same, fun same => congrArg some same⟩
  | cons expected word induction =>
      cases text with
      | nil => exact iff_of_false nofun nofun
      | cons character text =>
          rw [stripStart?, List.cons_append, List.cons.injEq]
          split
          · rename_i same
            exact induction.trans ⟨fun split => ⟨same.symm, split⟩, And.right⟩
          · rename_i other
            exact iff_of_false nofun fun split => other split.1.symm

/-- A word is completed to exactly the words that it begins. -/
theorem completeTo?_eq_some_iff
    {word : List Char}
    {candidate : String}
    {completion : Completion} :
    completeTo? word candidate = some completion ↔
      completion.display = candidate ∧
        candidate.toList = word ++ completion.replacement.toList := by
  rcases completion with ⟨display, replacement⟩
  unfold completeTo?
  rw [Option.map_eq_some_iff]
  constructor
  · rintro ⟨rest, stripped, same⟩
    cases same
    rw [String.toList_ofList]
    exact ⟨rfl, stripStart?_eq_some_iff.mp stripped⟩
  · rintro ⟨rfl, split⟩
    exact ⟨replacement.toList, stripStart?_eq_some_iff.mpr split, by rw [String.ofList_toList]⟩

theorem completeTo?_eq_none_iff {word : List Char} {candidate : String} :
    completeTo? word candidate = none ↔ ¬ word <+: candidate.toList := by
  constructor
  · rintro missing ⟨rest, split⟩
    have found :
        completeTo? word candidate =
          some { display := candidate, replacement := String.ofList rest } := by
      rw [completeTo?_eq_some_iff, String.toList_ofList]
      exact ⟨rfl, split.symm⟩
    cases missing.symm.trans found
  · intro noStart
    rcases found : completeTo? word candidate with _ | completion
    · rfl
    · rw [completeTo?_eq_some_iff] at found
      exact absurd ⟨_, found.2.symm⟩ noStart

/-- A completion adds something exactly if the word of the vocabulary goes on. -/
theorem goesOn_iff
    {word : List Char}
    {candidate : String}
    {completion : Completion}
    (found : completeTo? word candidate = some completion) :
    goesOn word candidate = true ↔ completion.isProper = true := by
  rw [completeTo?_eq_some_iff] at found
  have split := found.2
  have begins : word.isPrefixOf candidate.toList = true :=
    List.isPrefixOf_iff_prefix.mpr ⟨_, split.symm⟩
  have size : candidate.utf8ByteSize = byteLength word + completion.replacement.utf8ByteSize := by
    rw [Text.utf8ByteSize_eq_byteLength, split, Text.byteLength_append,
      ← Text.utf8ByteSize_eq_byteLength]
  unfold goesOn Completion.isProper
  rw [begins, size, Bool.true_and, decide_eq_true_iff, bne_iff_ne, Ne,
    ← String.utf8ByteSize_eq_zero_iff]
  omega

/--
The first word of a vocabulary that goes on is that of the first completion that adds something.
-/
theorem find?_goesOn (word : List Char) (words : List String) :
    (words.find? (goesOn word)).map (fun candidate =>
        Text.dimmed (String.ofList (candidate.toList.drop word.length))) =
      ((words.filterMap (completeTo? word)).find? Completion.isProper).map fun completion =>
        Text.dimmed completion.replacement := by
  induction words with
  | nil => rfl
  | cons candidate words induction =>
      rcases found : completeTo? word candidate with _ | completion
      · have stops : ¬ goesOn word candidate = true := by
          intro goes
          rcases Bool.and_eq_true_iff.mp goes with ⟨begins, -⟩
          exact completeTo?_eq_none_iff.mp found (List.isPrefixOf_iff_prefix.mp begins)
        rw [List.find?_cons_of_neg stops, List.filterMap_cons_none found, induction]
      · rw [List.filterMap_cons_some found]
        by_cases goes : goesOn word candidate = true
        · have adds := (goesOn_iff found).mp goes
          have added : candidate.toList.drop word.length = completion.replacement.toList := by
            rw [(completeTo?_eq_some_iff.mp found).2, List.drop_left]
          rw [List.find?_cons_of_pos goes, List.find?_cons_of_pos adds, Option.map_some,
            Option.map_some, added, String.ofList_toList]
        · have stops := mt (goesOn_iff found).mpr goes
          rw [List.find?_cons_of_neg goes, List.find?_cons_of_neg stops, induction]

/-- What is offered for a word: all words of the vocabulary that it begins, in their order. -/
structure Offers (word : List Char) (completions : List Completion) : Prop where
  displays :
    completions.map Completion.display =
      if word = [] then [] else Vocabulary.words.filter (begins word)
  adds :
    ∀ completion ∈ completions,
      completion.display.toList = word ++ completion.replacement.toList

/-- A hint shows what the first completion that adds something adds. -/
structure Hints (completions : List Completion) (hint : Option String) : Prop where
  isSome_iff : hint.isSome = true ↔ ∃ completion ∈ completions, completion.replacement ≠ ""
  first :
    ∀ text,
      hint = some text →
        ∃ earlier completion later,
          completions = earlier ++ completion :: later ∧
            (∀ other ∈ earlier, other.replacement = "") ∧
            completion.replacement ≠ "" ∧
            text = Text.dimmed completion.replacement

theorem offers_completionsOf
    {word : List Char}
    (nonempty : word ≠ []) :
    Offers word (completionsOf word) := by
  constructor
  · rw [if_neg nonempty]
    unfold completionsOf
    induction Vocabulary.words with
    | nil => rfl
    | cons candidate words induction =>
        rcases found : completeTo? word candidate with _ | completion
        · have noStart : ¬ begins word candidate = true := fun begins =>
            completeTo?_eq_none_iff.mp found (List.isPrefixOf_iff_prefix.mp begins)
          rw [List.filterMap_cons_none found, List.filter_cons_of_neg noStart, induction]
        · rcases completeTo?_eq_some_iff.mp found with ⟨isWord, split⟩
          have starts : begins word candidate = true :=
            List.isPrefixOf_iff_prefix.mpr ⟨_, split.symm⟩
          rw [List.filterMap_cons_some found, List.filter_cons_of_pos starts, List.map_cons,
            induction, isWord]
  · intro completion member
    rcases List.mem_filterMap.mp member with ⟨candidate, -, found⟩
    rw [completeTo?_eq_some_iff] at found
    rcases found with ⟨rfl, split⟩
    exact split

theorem hints_hintFor
    {word : List Char}
    (long : 2 ≤ byteLength word) :
    Hints (completionsOf word) (hintFor word) := by
  have found := find?_goesOn word Vocabulary.words
  unfold hintFor
  rw [if_neg (Nat.not_lt.mpr long), found]
  change Hints (completionsOf word) (((completionsOf word).find? Completion.isProper).map _)
  constructor
  · rw [Option.isSome_map, List.find?_isSome]
    simp only [Completion.isProper, bne_iff_ne]
  · intro text isHint
    rcases Option.map_eq_some_iff.mp isHint with ⟨completion, isFirst, rfl⟩
    rcases List.find?_eq_some_iff_append.mp isFirst with ⟨adds, earlier, later, split, others⟩
    refine ⟨earlier, completion, later, split, ?_, bne_iff_ne.mp adds, rfl⟩
    intro other member
    simpa [Completion.isProper] using others other member

/-! ## Lines -/

/-- The last word is what is completed, if it can be cut off. -/
theorem complete?_of_split
    {line : String}
    {before after front word : List Char}
    (split : line.toList = before ++ after)
    (cut : splitAtByte? before (wordStart before) = some (front, word)) :
    complete? line (byteLength before) =
      some (if word = [] then [] else completionsOf word) := by
  unfold complete? lastWord?
  rw [split, Text.splitAtByte?_append]
  simp only [Option.bind_eq_bind, Option.bind_some, cut, Option.map_some]
  cases word <;> rfl

theorem complete?_eq_none
    {line : String}
    {before after : List Char}
    (split : line.toList = before ++ after)
    (uncut : splitAtByte? before (wordStart before) = none) :
    complete? line (byteLength before) = none := by
  unfold complete? lastWord?
  rw [split, Text.splitAtByte?_append]
  simp only [Option.bind_eq_bind, Option.bind_some, uncut, Option.map_none, Option.bind_none]

/-- At the end of a line there is a hint for its last word. -/
theorem hint?_atEnd
    {line : String}
    {before : List Char}
    (whole : line.toList = before) :
    hint? line (byteLength before) = (lastWord? before).map hintFor := by
  subst whole
  unfold hint?
  rw [if_neg (Nat.not_lt.mpr (Nat.le_of_eq (Text.utf8ByteSize_eq_byteLength line)))]

/--
Behind a separator of one byte, or without a separator, the word before a position is cut off
where it begins, and it is completed to exactly the words of the vocabulary that begin with
it; at the end of the line a hint shows what the first of them adds that adds something.
Behind a longer separator there are no answers: the word is taken to begin inside it.
-/
theorem completion_follows_last_separator
    {line : String}
    {before after : List Char}
    (split : line.toList = before ++ after) :
    ((∀ separator ∈ lastSeparator? before, separator.utf8Size = 1) →
      wordStart before ≤ byteLength before ∧
        splitAtByte? before (wordStart before) =
          some (beforeTrailingWord before, trailingWord before) ∧
        ∃ completions,
          complete? line (byteLength before) = some completions ∧
            Offers (trailingWord before) completions ∧
            (after = [] →
              2 ≤ byteLength (trailingWord before) →
                ∃ hint, hint? line (byteLength before) = some hint ∧ Hints completions hint)) ∧
      ∀ separator ∈ lastSeparator? before,
        1 < separator.utf8Size →
          splitAtByte? before (wordStart before) = none ∧
            complete? line (byteLength before) = none ∧
            (after = [] → hint? line (byteLength before) = none) := by
  constructor
  · intro narrow
    have starts := wordStart_eq_byteLength narrow
    have cut := splitAtByte?_wordStart narrow
    have whole := congrArg byteLength (beforeTrailingWord_append before)
    rw [Text.byteLength_append] at whole
    refine ⟨by omega, cut, _, complete?_of_split split cut, ?_, ?_⟩
    · by_cases isEmpty : trailingWord before = []
      · rw [if_pos isEmpty]
        exact ⟨(if_pos isEmpty).symm, List.forall_mem_nil _⟩
      · rw [if_neg isEmpty]
        exact offers_completionsOf isEmpty
    · rintro rfl long
      have nonempty : trailingWord before ≠ [] := by
        intro isEmpty
        rw [isEmpty] at long
        exact absurd long (by decide)
      rw [List.append_nil] at split
      rw [if_neg nonempty]
      refine ⟨_, ?_, hints_hintFor long⟩
      rw [hint?_atEnd split, lastWord?, cut]
      rfl
  · intro separator isLast wide
    have uncut := splitAtByte?_wordStart_eq_none isLast wide
    refine ⟨uncut, complete?_eq_none split uncut, ?_⟩
    rintro rfl
    rw [List.append_nil] at split
    rw [hint?_atEnd split, lastWord?, uncut]
    rfl

/-- Behind an opening bracket the beginning of a word is completed. -/
theorem openedCall_completes :
    (∀ separator ∈ lastSeparator? "f(pri".toList, separator.utf8Size = 1) ∧
      ∃ completions hint,
        complete? "f(pri" 5 = some completions ∧
          Offers "pri".toList completions ∧
          hint? "f(pri" 5 = some hint ∧
          Hints completions hint := by
  have front : beforeTrailingWord "f(pri".toList = ['f', '('] := by decide +kernel
  have isWord : trailingWord "f(pri".toList = "pri".toList := by cbv
  have narrow : ∀ separator ∈ lastSeparator? "f(pri".toList, separator.utf8Size = 1 := by
    unfold lastSeparator?
    rw [front]
    rintro _ ⟨⟩
    rfl
  have whole : "f(pri".toList = "f(pri".toList ++ [] := (List.append_nil _).symm
  rcases (completion_follows_last_separator whole).1 narrow with
    ⟨-, -, completions, offered, offers, hinted⟩
  rw [isWord] at offers hinted
  rcases hinted rfl (by decide) with ⟨hint, isHint, hints⟩
  exact ⟨narrow, completions, hint, offered, offers, isHint, hints⟩

/--
Behind a multiplication sign, which takes two bytes, the beginning of a word has no completions.
-/
theorem multiplicationSign_hides_completion :
    trailingWord "×pr".toList = "pr".toList ∧
      Vocabulary.words.filter (begins "pr".toList) = ["print"] ∧
      wordStart "×pr".toList = 1 ∧
      splitAtByte? "×pr".toList 1 = none ∧
      complete? "×pr" 4 = none ∧
      hint? "×pr" 4 = none := by
  refine ⟨?_, ?_, ?_, ?_, ?_, ?_⟩ <;> cbv

end Shell

end ScriptEngine
