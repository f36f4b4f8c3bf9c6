import ScriptEngine.Shell.Highlight

/-!
# Highlighting adds nothing but colour

`Text.withoutColours` takes the control sequences of colours out of a text.  The pieces of
a line, one after the other, are the line (`flatMap_pieces`), and a piece that is shown in
a style is its text between control sequences.  So a line that is highlighted is the line
once the colours have been taken out (`highlighting_adds_only_colours`).
-/

namespace ScriptEngine

namespace Text

/-! ## Taking colours out -/

/--
What follows the control sequence of a colour or an emphasis: an escape character, an
opening bracket, digits and the letter `m`.
-/
def afterControlSequence? : List Char → Option (List Char)
  | '\x1b' :: '[' :: rest =>
    match rest.dropWhile Char.isDigit with
    | 'm' :: after => some after
    | _ => none
  | _ => none

theorem length_of_afterControlSequence?
    {text after : List Char}
    (found : afterControlSequence? text = some after) :
    after.length < text.length := by
  unfold afterControlSequence? at found
  split at found
  · rename_i rest
    split at found
    · rename_i other dropped
      cases found
      have shorter := (List.dropWhile_sublist (p := Char.isDigit) (l := rest)).length_le
      rw [dropped] at shorter
      simp only [List.length_cons] at shorter ⊢
      omega
    · cases found
  · cases found

/-- The characters of a text without the control sequences of colours. -/
def withoutColours : List Char → List Char
  | [] => []
  | character :: rest =>
    match found : afterControlSequence? (character :: rest) with
    | some after =>
      have := Nat.le_of_lt_succ (length_of_afterControlSequence? found)
      withoutColours after
    | none => character :: withoutColours rest
termination_by text => text.length

theorem withoutColours_of_found
    {text after : List Char}
    (found : afterControlSequence? text = some after) :
    withoutColours text = withoutColours after := by
  cases text with
  | nil => cases found
  | cons character rest =>
      rw [withoutColours]
      split
      · rename_i other alsoFound
        cases found.symm.trans alsoFound
        rfl
      · rename_i missing
        cases found.symm.trans missing

/-- Nothing is taken out of a text without escape characters. -/
theorem withoutColours_append
    {text : List Char}
    (unescaped : escape ∉ text)
    (rest : List Char) :
    withoutColours (text ++ rest) = text ++ withoutColours rest := by
  induction text with
  | nil => rfl
  | cons character text induction =>
      rcases not_or.mp (mt List.mem_cons.mpr unescaped) with ⟨other, others⟩
      have missing : afterControlSequence? (character :: (text ++ rest)) = none := by
        unfold afterControlSequence?
        split
        · rename_i begins
          exact absurd (List.cons.inj begins).1.symm other
        · rfl
      rw [List.cons_append, withoutColours]
      split
      · rename_i found
        cases missing.symm.trans found
      · rw [induction others, List.cons_append]

theorem withoutColours_controlSequence (code : Nat) (rest : List Char) :
    withoutColours ((controlSequence code).toList ++ rest) = withoutColours rest := by
  apply withoutColours_of_found
  have digits : ∀ digit ∈ Nat.toDigits 10 code, digit.isDigit = true :=
    fun _ member => Nat.isDigit_of_mem_toDigits (by decide) (by decide) member
  have split :
      (controlSequence code).toList ++ rest =
        '\x1b' :: '[' :: (Nat.toDigits 10 code ++ 'm' :: rest) := by
    simp [controlSequence, decimal, escape]
  have dropped : (Nat.toDigits 10 code ++ 'm' :: rest).dropWhile Char.isDigit = 'm' :: rest := by
    rw [List.dropWhile_append_of_pos digits]
    rfl
  rw [split]
  unfold afterControlSequence?
  simp only [dropped]

/-- A text between two control sequences. -/
theorem withoutColours_between
    {text : String}
    {plain : List Char}
    (taken : ∀ rest, withoutColours (text.toList ++ rest) = plain ++ withoutColours rest)
    (first last : Nat)
    (rest : List Char) :
    withoutColours ((between first last text).toList ++ rest) = plain ++ withoutColours rest := by
  unfold between
  rw [String.toList_append, String.toList_append, List.append_assoc, List.append_assoc,
    withoutColours_controlSequence, taken, withoutColours_controlSequence]

/-- A piece in its style is the text of the piece. -/
theorem withoutColours_render
    {piece : Piece}
    (unescaped : escape ∉ piece.text)
    (rest : List Char) :
    withoutColours (piece.render.toList ++ rest) = piece.text ++ withoutColours rest := by
  rcases piece with ⟨style, text⟩
  have plain (rest : List Char) :
      withoutColours ((String.ofList text).toList ++ rest) = text ++ withoutColours rest := by
    rw [String.toList_ofList]
    exact withoutColours_append unescaped rest
  cases style with
  | plain => exact plain rest
  | coloured colour => exact withoutColours_between plain colour.code 39 rest
  | strong colour =>
      exact withoutColours_between (withoutColours_between plain colour.code 39) 1 0 rest

theorem toList_renderPieces (pieces : List Piece) :
    (renderPieces pieces).toList = pieces.flatMap fun piece => piece.render.toList := by
  unfold renderPieces
  rw [String.toList_join, List.flatMap_map]

/-- Pieces in their styles are the texts of the pieces. -/
theorem withoutColours_renderPieces
    {pieces : List Piece}
    (unescaped : escape ∉ pieces.flatMap Piece.text) :
    withoutColours (renderPieces pieces).toList = pieces.flatMap Piece.text := by
  rw [toList_renderPieces]
  induction pieces with
  | nil => rw [List.flatMap_nil, List.flatMap_nil, withoutColours]
  | cons piece pieces induction =>
      rw [List.flatMap_cons] at unescaped
      rcases not_or.mp (mt List.mem_append.mpr unescaped) with ⟨first, others⟩
      rw [List.flatMap_cons, List.flatMap_cons, withoutColours_render first, induction others]

end Text

namespace Shell

open Text (Piece)

/-! ## Pieces of a line -/

theorem flatMap_wordPieces (word : List Char) : (wordPieces word).flatMap Piece.text = word := by
  cases word with
  | nil => rfl
  | cons first rest => exact List.append_nil _

/-- Inside quotation marks no word is waiting, and everywhere else it is not lost. -/
theorem flatMap_piecesFrom
    (isCommand : Bool)
    (line : List Char)
    {inText : Bool}
    {word : List Char}
    (settled : inText = true → word = []) :
    (piecesFrom isCommand inText word line).flatMap Piece.text = word ++ line := by
  induction line generalizing inText word with
  | nil => rw [piecesFrom, flatMap_wordPieces, List.append_nil]
  | cons character line induction =>
      cases inText with
      | true =>
          cases settled rfl
          rw [piecesFrom, List.flatMap_cons, induction fun _ => rfl]
          rfl
      | false =>
          rw [piecesFrom]
          split
          · rw [@induction false (word ++ [character]) nofun, List.append_assoc,
              List.singleton_append]
          · rw [List.flatMap_append, List.flatMap_cons, flatMap_wordPieces,
              induction fun _ => rfl]
            rfl

/-- The texts of the pieces make up the line. -/
theorem flatMap_pieces (line : List Char) : (pieces line).flatMap Piece.text = line :=
  flatMap_piecesFrom _ line nofun

/-- A highlighted line without its colours is the line. -/
theorem highlighting_adds_only_colours
    {line : String}
    (unescaped : Text.escape ∉ line.toList) :
    Text.withoutColours (highlight line).toList = line.toList := by
  have texts := flatMap_pieces line.toList
  unfold highlight
  rw [Text.withoutColours_renderPieces (texts.symm ▸ unescaped), texts]

/-- A line in which words, marks and a text follow each other without blanks. -/
theorem crowdedLine_highlighted :
    Text.escape ∉ "var a_1=[null,\"x\"]".toList ∧
      Text.withoutColours (highlight "var a_1=[null,\"x\"]").toList =
        "var a_1=[null,\"x\"]".toList :=
  have unescaped : Text.escape ∉ "var a_1=[null,\"x\"]".toList := by decide
  ⟨unescaped, highlighting_adds_only_colours unescaped⟩

end Shell

end ScriptEngine
