/-!
# Byte positions in a text

Positions in source text and in edited lines are counted in the bytes of the
UTF-8 form.  `byteLength` measures a run of characters; `splitAtByte?` cuts
one in two and refuses a position that falls inside a character.
-/

namespace ScriptEngine.Text

/-- Number of bytes in the UTF-8 form of the characters. -/
def byteLength : List Char → Nat
  | [] => 0
  | character :: rest => character.utf8Size + byteLength rest

@[simp]
theorem byteLength_nil : byteLength [] = 0 := rfl

@[simp]
theorem byteLength_cons
    (character : Char)
    (rest : List Char) :
    byteLength (character :: rest) = character.utf8Size + byteLength rest := rfl

@[simp]
theorem byteLength_append
    (front back : List Char) :
    byteLength (front ++ back) = byteLength front + byteLength back := by
  induction front with
  | nil => simp
  | cons character rest hypothesis => simp [hypothesis, Nat.add_assoc]

/--
Cuts the characters at a byte position.  There is no answer when the position
lies inside a character or beyond the end.
-/
def splitAtByte? : List Char → Nat → Option (List Char × List Char)
  | characters, 0 => some ([], characters)
  | [], _ + 1 => none
  | character :: rest, position + 1 =>
    if character.utf8Size ≤ position + 1 then
      (splitAtByte? rest (position + 1 - character.utf8Size)).map
        fun (front, back) => (character :: front, back)
    else
      none

@[simp]
theorem splitAtByte?_zero (characters : List Char) :
    splitAtByte? characters 0 = some ([], characters) := by
  cases characters <;> rfl

/-- Cutting at the end of a leading part gives back the two parts. -/
theorem splitAtByte?_append
    (front back : List Char) :
    splitAtByte? (front ++ back) (byteLength front) = some (front, back) := by
  induction front with
  | nil => simp
  | cons character rest hypothesis =>
      have positive : 0 < character.utf8Size := character.utf8Size_pos
      obtain ⟨predecessor, equality⟩ :
          ∃ predecessor, character.utf8Size + byteLength rest = predecessor + 1 :=
        ⟨character.utf8Size + byteLength rest - 1, by omega⟩
      have remaining : predecessor + 1 - character.utf8Size = byteLength rest := by omega
      have fits : character.utf8Size ≤ predecessor + 1 := by omega
      simp [equality, splitAtByte?, fits, remaining, hypothesis]

end ScriptEngine.Text
