import Mathlib
import ScriptEngine.Proofs.Code.Lines

/-!
# Code that is put together from pieces

The compiler appends some instructions together: a return without a value and what it
returns, a method and what is attached.  A chunk is laid out in pieces if its jumps lead from
beginnings of pieces to beginnings of pieces, as soon as they have been closed
(`Chunk.Laid`).  What comes second in a piece is then executed right after what comes first
and in no other way (`Chunk.Laid.leads`).
-/

namespace ScriptEngine

open Instruction

/-- The targets of an instruction at an offset, if it is a jump. -/
def Instruction.landings (offset : Nat) : Instruction → List Nat
  | jump distance | jumpIfFalse distance => [offset + 3 + distance.toNat]
  | loop distance => [offset + 3 - distance.toNat]
  | _ => []

/-- Execution goes on behind an instruction, or where it jumps to. -/
theorem Instruction.next_or_landing
    {instruction : Instruction}
    {offset target : Nat}
    (successor : target ∈ instruction.successors offset) :
    target = offset + instruction.length ∨ target ∈ instruction.landings offset := by
  cases instruction with
  | jump | loop => exact .inr successor
  | jumpIfFalse distance =>
      rcases List.mem_cons.mp successor with rfl | landing
      · exact .inl rfl
      · exact .inr landing
  | leave => cases successor
  | _ => exact .inl (List.mem_singleton.mp successor)

/-- Instructions that have been appended together. -/
structure Piece where
  first : Instruction
  rest : List Instruction

namespace Piece

/-- The instructions of a piece. -/
def instructions (piece : Piece) : List Instruction :=
  piece.first :: piece.rest

/-- Number of bytes of a piece. -/
def length (piece : Piece) : Nat :=
  totalLength piece.instructions

/-- An instruction stands right behind another one in the same piece. -/
def Joins (piece : Piece) (first second : Instruction) : Prop :=
  ∃ before after, piece.instructions = before ++ first :: second :: after

/-- The instructions of pieces. -/
def flatten (pieces : List Piece) : List Instruction :=
  pieces.flatMap instructions

/-- The offset at which the piece at a position begins. -/
def offsetOf (pieces : List Piece) (position : Nat) : Nat :=
  ((pieces.map length).take position).sum

/-- A piece begins at an offset, or the code ends there. -/
def IsCut (pieces : List Piece) (offset : Nat) : Prop :=
  ∃ position ≤ pieces.length, offsetOf pieces position = offset

variable {pieces : List Piece}

theorem totalLength_flatten (pieces : List Piece) :
    totalLength (flatten pieces) = (pieces.map length).sum := by
  induction pieces with
  | nil => rfl
  | cons piece rest induction =>
      simp only [flatten, List.flatMap_cons, totalLength_append, List.map_cons, List.sum_cons]
      exact congrArg (piece.length + ·) induction

theorem offsetOf_eq (pieces : List Piece) (position : Nat) :
    offsetOf pieces position = totalLength (flatten (pieces.take position)) := by
  rw [totalLength_flatten, List.map_take]
  rfl

theorem offsetOf_append
    {position : Nat}
    (inside : position ≤ pieces.length)
    (more : List Piece) :
    offsetOf (pieces ++ more) position = offsetOf pieces position := by
  rw [offsetOf_eq, offsetOf_eq, List.take_append_of_le_length inside]

theorem offsetOf_end (pieces : List Piece) :
    offsetOf pieces pieces.length = totalLength (flatten pieces) := by
  rw [offsetOf_eq, List.take_length]

theorem IsCut.append {offset : Nat} (isCut : IsCut pieces offset) (more : List Piece) :
    IsCut (pieces ++ more) offset := by
  rcases isCut with ⟨position, inside, rfl⟩
  refine ⟨position, ?_, offsetOf_append inside more⟩
  rw [List.length_append]
  exact Nat.le_add_right_of_le inside

theorem IsCut.le {offset : Nat} (isCut : IsCut pieces offset) :
    offset ≤ totalLength (flatten pieces) := by
  rcases isCut with ⟨position, -, rfl⟩
  rw [totalLength_flatten]
  exact List.Sublist.sum_le_sum (List.take_sublist _ _) fun _ _ => Nat.zero_le _

theorem isCut_end (pieces : List Piece) : IsCut pieces (totalLength (flatten pieces)) :=
  ⟨pieces.length, Nat.le_refl _, offsetOf_end pieces⟩

theorem offsetOf_succ
    {position : Nat}
    {piece : Piece}
    (found : pieces[position]? = some piece) :
    offsetOf pieces (position + 1) = offsetOf pieces position + piece.length := by
  unfold offsetOf
  rw [List.take_add_one, List.getElem?_map, found]
  simp

/-- Different pieces begin at different offsets. -/
theorem offsetOf_lt
    {first second : Nat}
    (order : first < second)
    (inside : second ≤ pieces.length) :
    offsetOf pieces first < offsetOf pieces second := by
  induction second with
  | zero => cases order
  | succ second induction =>
      have step := offsetOf_succ (List.getElem?_eq_getElem (Nat.lt_of_succ_le inside))
      have positive : 0 < (pieces[second]).length :=
        Nat.lt_of_lt_of_le (Instruction.length_pos _) (Nat.le_add_right _ _)
      rcases Nat.lt_succ_iff_lt_or_eq.mp order with earlier | rfl
      · have before := induction earlier (Nat.le_of_succ_le inside)
        omega
      · omega

theorem eq_of_offsetOf_eq
    {first second : Nat}
    (firstInside : first < pieces.length)
    (secondInside : second < pieces.length)
    (same : offsetOf pieces first = offsetOf pieces second) :
    first = second := by
  rcases Nat.lt_trichotomy first second with before | equal | after
  · exact absurd same (Nat.ne_of_lt (offsetOf_lt before (Nat.le_of_lt secondInside)))
  · exact equal
  · exact absurd same.symm (Nat.ne_of_lt (offsetOf_lt after (Nat.le_of_lt firstInside)))

/-- Where pieces begin depends on their lengths only. -/
theorem offsetOf_set
    {position : Nat}
    {former other : Piece}
    (found : pieces[position]? = some former)
    (same : other.length = former.length)
    (place : Nat) :
    offsetOf (pieces.set position other) place = offsetOf pieces place := by
  have lengths : (pieces.set position other).map length = pieces.map length := by
    rcases List.getElem?_eq_some_iff.mp found with ⟨inside, rfl⟩
    have inMap : position < (pieces.map length).length := by
      rwa [List.length_map]
    rw [List.map_set, same]
    simpa using List.set_getElem_self inMap
  rw [offsetOf, offsetOf, lengths]

theorem isCut_set
    {position : Nat}
    {former other : Piece}
    (found : pieces[position]? = some former)
    (same : other.length = former.length)
    {offset : Nat}
    (isCut : IsCut pieces offset) :
    IsCut (pieces.set position other) offset := by
  rcases isCut with ⟨place, inside, rfl⟩
  refine ⟨place, ?_, offsetOf_set found same place⟩
  rwa [List.length_set]

/-- An instruction begins its piece, at the offset of the piece, or stands in the rest of it. -/
theorem exists_of_flatten
    {before after : List Instruction}
    {instruction : Instruction}
    (split : flatten pieces = before ++ instruction :: after) :
    ∃ position piece,
      pieces[position]? = some piece ∧
        (piece.first = instruction ∧ offsetOf pieces position = totalLength before ∨
          instruction ∈ piece.rest) := by
  induction pieces generalizing before with
  | nil => simp [flatten] at split
  | cons piece pieces induction =>
      have later :
          ∀ middle,
            flatten pieces = middle ++ instruction :: after →
            before = piece.instructions ++ middle →
              ∃ position other,
                (piece :: pieces)[position]? = some other ∧
                  (other.first = instruction ∧
                      offsetOf (piece :: pieces) position = totalLength before ∨
                    instruction ∈ other.rest) := by
        rintro middle behind rfl
        rcases induction behind with ⟨position, other, found, begins | inside⟩
        · refine ⟨position + 1, other, found, .inl ⟨begins.1, ?_⟩⟩
          rw [totalLength_append, ← begins.2]
          rfl
        · exact ⟨position + 1, other, found, .inr inside⟩
      change piece.instructions ++ flatten pieces = _ at split
      cases before with
      | nil => exact ⟨0, piece, rfl, .inl ⟨(List.cons.inj split).1, rfl⟩⟩
      | cons head before =>
          rcases List.cons.inj split with ⟨rfl, behind⟩
          rcases List.append_eq_append_iff.mp behind with
            ⟨middle, rfl, rest⟩ | ⟨middle, isRest, rest⟩
          · exact later middle rest rfl
          · cases middle with
            | nil =>
                rw [List.append_nil] at isRest
                exact later [] rest.symm (by rw [List.append_nil, instructions, isRest])
            | cons next middle =>
                rcases List.cons.inj rest with ⟨rfl, -⟩
                refine ⟨0, piece, rfl, .inr ?_⟩
                rw [isRest]
                exact List.mem_append_right _ List.mem_cons_self

/-- Of two instructions one behind the other, the second begins a piece or both are joined. -/
theorem first_or_joins
    {before after : List Instruction}
    {instruction next : Instruction}
    (split : flatten pieces = before ++ instruction :: next :: after) :
    (∃ piece ∈ pieces, piece.first = next) ∨ ∃ piece ∈ pieces, piece.Joins instruction next := by
  induction pieces generalizing before with
  | nil => simp [flatten] at split
  | cons piece pieces induction =>
      change piece.instructions ++ flatten pieces = _ at split
      rcases List.append_eq_append_iff.mp split with ⟨middle, -, rest⟩ | ⟨middle, isPiece, rest⟩
      · rcases induction rest with ⟨other, member, first⟩ | ⟨other, member, joins⟩
        · exact .inl ⟨other, List.mem_cons_of_mem _ member, first⟩
        · exact .inr ⟨other, List.mem_cons_of_mem _ member, joins⟩
      · cases middle with
        | nil =>
            have begins : flatten pieces = [] ++ instruction :: next :: after := rest.symm
            rcases induction begins with
              ⟨other, member, first⟩ | ⟨other, member, joins⟩
            · exact .inl ⟨other, List.mem_cons_of_mem _ member, first⟩
            · exact .inr ⟨other, List.mem_cons_of_mem _ member, joins⟩
        | cons head middle =>
            rcases List.cons.inj rest with ⟨rfl, behind⟩
            cases middle with
            | nil =>
                cases pieces with
                | nil => cases behind
                | cons other pieces =>
                    rcases List.cons.inj behind with ⟨first, -⟩
                    exact .inl ⟨other, by simp, first.symm⟩
            | cons second middle =>
                rcases List.cons.inj behind with ⟨rfl, -⟩
                exact .inr ⟨piece, List.mem_cons_self, before, middle, isPiece⟩

end Piece

open Piece

/--
The code consists of pieces, and all jumps lead from piece to piece, except those that wait
for their distances.
-/
structure Chunk.Laid (chunk : Chunk) (pieces : List Piece) (waiting : List PendingJump) :
    Prop where
  code : chunk.code.toList = encode (flatten pieces)
  lands :
    ∀ position piece,
      pieces[position]? = some piece →
        { operand := offsetOf pieces position + 1 } ∈ waiting ∨
          ∀ target ∈ piece.first.landings (offsetOf pieces position), IsCut pieces target
  straight :
    ∀ piece ∈ pieces, ∀ instruction ∈ piece.rest, ∀ offset, instruction.landings offset = []

namespace Chunk

theorem laid_blank : Chunk.Laid {} [] [] where
  code := rfl
  lands := nofun
  straight := nofun

namespace Laid

variable {chunk : Chunk} {pieces : List Piece} {waiting : List PendingJump}

theorem size (laid : chunk.Laid pieces waiting) :
    chunk.code.size = totalLength (flatten pieces) := by
  rw [← Array.length_toList, laid.code, length_encode]

theorem of_code
    (laid : chunk.Laid pieces waiting)
    {other : Chunk}
    (same : other.code = chunk.code) :
    other.Laid pieces waiting :=
  { laid with code := by rw [same, laid.code] }

/-- One more piece, whose beginning is no jump, a jump to a cut or one that waits. -/
theorem append
    (laid : chunk.Laid pieces waiting)
    (piece : Piece)
    {more : List PendingJump}
    (kept : ∀ jump ∈ waiting, jump ∈ more)
    (lands :
      { operand := chunk.code.size + 1 } ∈ more ∨
        ∀ target ∈ piece.first.landings chunk.code.size, IsCut pieces target)
    (straight : ∀ instruction ∈ piece.rest, ∀ offset, instruction.landings offset = [])
    {after : Chunk}
    (written : after.code.toList = chunk.code.toList ++ encode piece.instructions) :
    after.Laid (pieces ++ [piece]) more := by
  refine ⟨?_, ?_, ?_⟩
  · rw [written, laid.code, flatten, flatten, List.flatMap_append, encode_append]
    simp
  · intro position other found
    rcases Nat.lt_or_ge position pieces.length with old | new
    · rw [List.getElem?_append_left old] at found
      rw [offsetOf_append (Nat.le_of_lt old)]
      rcases laid.lands position other found with isWaiting | cuts
      · exact .inl (kept _ isWaiting)
      · exact .inr fun target landing => (cuts target landing).append _
    · have inside := (List.getElem?_eq_some_iff.mp found).1
      rw [List.length_append, List.length_singleton] at inside
      rcases Nat.le_antisymm new (Nat.lt_succ_iff.mp inside) with rfl
      rw [List.getElem?_concat_length] at found
      cases found
      rw [offsetOf_append (Nat.le_refl _), offsetOf_end, ← laid.size]
      rcases lands with isWaiting | cuts
      · exact .inl isWaiting
      · exact .inr fun target landing => (cuts target landing).append _
  · intro other member
    rcases List.mem_append.mp member with old | new
    · exact laid.straight other old
    · rcases List.mem_singleton.mp new with rfl
      exact straight

/-- One more piece without a jump. -/
theorem write
    (laid : chunk.Laid pieces waiting)
    (piece : Piece)
    (straight :
      ∀ instruction ∈ piece.instructions, ∀ offset, instruction.landings offset = [])
    {after : Chunk}
    (written : after.code.toList = chunk.code.toList ++ encode piece.instructions) :
    after.Laid (pieces ++ [piece]) waiting := by
  refine laid.append piece (fun _ => id) (.inr ?_) ?_ written
  · intro target landing
    rw [straight piece.first List.mem_cons_self] at landing
    cases landing
  · exact fun instruction member => straight instruction (List.mem_cons_of_mem _ member)

/-- A jump that is appended waits. -/
theorem openJump
    (laid : chunk.Laid pieces waiting)
    (kind : ForwardJump)
    (line : Nat) :
    (chunk.emit (kind.past openDistance) line).Laid
      (pieces ++ [{ first := kind.past openDistance, rest := [] }])
      ({ operand := chunk.code.size + 1 } :: waiting) := by
  refine laid.append _ (fun _ => List.mem_cons_of_mem _) (.inl List.mem_cons_self)
    (List.forall_mem_nil _) ?_
  simp [Piece.instructions]

/-- A backward jump to a cut. -/
theorem emitLoop
    (laid : chunk.Laid pieces waiting)
    {start line : Nat}
    (isCut : IsCut pieces start)
    (earlier : start ≤ chunk.code.size)
    {after : Chunk}
    {result : Unit}
    (written : chunk.emitLoop start line = (.ok result, after)) :
    ∃ distance,
      after.pool = chunk.pool ∧
        after.Laid (pieces ++ [{ first := .loop distance, rest := [] }]) waiting := by
  rcases emitLoop_ok earlier written with ⟨near, pool, code⟩
  generalize isDistance : UInt16.ofNat (chunk.code.size + 3 - start) = distance at code
  have far : distance.toNat = chunk.code.size + 3 - start := by
    rw [← isDistance, UInt16.toNat_ofNat']
    exact Nat.mod_eq_of_lt (Nat.lt_of_le_of_lt near (by decide))
  refine ⟨distance, pool, laid.append _ (fun _ => id) (.inr fun target landing => ?_)
    (List.forall_mem_nil _) ?_⟩
  · rcases List.mem_singleton.mp landing with rfl
    rw [far]
    have back : chunk.code.size + 3 - (chunk.code.size + 3 - start) = start := by
      omega
    rwa [back]
  · rw [code]
    simp [Piece.instructions]

/-- A jump that is closed leads to the end of the code. -/
theorem close
    (laid : chunk.Laid pieces waiting)
    {position : Nat}
    {kind : ForwardJump}
    {former : UInt16}
    (found : pieces[position]? = some { first := kind.past former, rest := [] })
    {jump : PendingJump}
    (operand : jump.operand = offsetOf pieces position + 1)
    {rest : List PendingJump}
    (others : ∀ other ∈ waiting, other = jump ∨ other ∈ rest)
    {after : Chunk}
    {result : Unit}
    (closes : chunk.patchJump jump = (.ok result, after)) :
    ∃ distance,
      after.pool = chunk.pool ∧
        after.Laid (pieces.set position { first := kind.past distance, rest := [] }) rest := by
  rcases List.getElem?_eq_some_iff.mp found with ⟨inside, isThere⟩
  have split :
      pieces =
        pieces.take position ++
          { first := kind.past former, rest := [] } :: pieces.drop (position + 1) := by
    rw [← isThere, List.getElem_cons_drop, List.take_append_drop]
  have place : offsetOf pieces position = totalLength (flatten (pieces.take position)) :=
    offsetOf_eq pieces position
  have set (distance : UInt16) :
      pieces.set position { first := kind.past distance, rest := [] } =
        pieces.take position ++
          { first := kind.past distance, rest := [] } :: pieces.drop (position + 1) := by
    rw [List.set_eq_take_append_cons_drop, if_pos inside]
  generalize pieces.take position = before at split place set
  generalize pieces.drop (position + 1) = behind at split set
  have written :
      chunk.code.toList =
        encode (flatten before) ++ (kind.past former).bytes ++ encode (flatten behind) := by
    rw [laid.code, split]
    simp [flatten, Piece.instructions]
  have closed := closes
  rw [show jump = { operand := (encode (flatten before)).length + 1 } by
    rw [length_encode, ← place, ← operand]] at closed
  rcases patchJump_ok written closed with ⟨near, pool, code⟩
  rw [length_encode] at near code
  generalize isDistance : UInt16.ofNat (totalLength (flatten behind)) = distance at code
  have far : distance.toNat = totalLength (flatten behind) := by
    rw [← isDistance, UInt16.toNat_ofNat']
    exact Nat.mod_eq_of_lt (Nat.lt_of_le_of_lt near (by decide))
  have sameLength :
      Piece.length { first := kind.past distance, rest := [] } =
        Piece.length { first := kind.past former, rest := [] } := by
    simp [Piece.length, Piece.instructions]
  refine ⟨distance, pool, ?_, ?_, ?_⟩
  · rw [code, set]
    simp [flatten, Piece.instructions]
  · intro elsewhere piece isPiece
    rw [offsetOf_set found sameLength]
    by_cases same : elsewhere = position
    · subst same
      rw [List.getElem?_set_self inside] at isPiece
      cases isPiece
      have target :
          ∀ offset, (kind.past distance).landings offset = [offset + 3 + distance.toNat] := by
        intro offset
        cases kind <;> rfl
      refine .inr fun landing member => ?_
      rw [target] at member
      rcases List.mem_singleton.mp member with rfl
      have last :
          offsetOf pieces elsewhere + 3 + distance.toNat = totalLength (flatten pieces) := by
        have total := congrArg (fun pieces => totalLength (flatten pieces)) split
        simp [flatten, Piece.instructions] at total
        rw [place, far]
        simp only [flatten] at total ⊢
        omega
      rw [last]
      exact isCut_set found sameLength (isCut_end pieces)
    · rw [List.getElem?_set_ne (Ne.symm same)] at isPiece
      rcases laid.lands elsewhere piece isPiece with isWaiting | cuts
      · refine .inl ((others _ isWaiting).resolve_left fun isJump => same ?_)
        have elsewhereInside := (List.getElem?_eq_some_iff.mp isPiece).1
        rw [← isJump] at operand
        exact eq_of_offsetOf_eq elsewhereInside inside (Nat.succ.inj operand)
      · exact .inr fun target landing => isCut_set found sameLength (cuts target landing)
  · intro piece member
    rcases List.mem_or_eq_of_mem_set member with old | rfl
    · exact laid.straight piece old
    · exact List.forall_mem_nil _

/-! ## What stands where execution goes on -/

/-- What is decoded at a cut begins a piece. -/
theorem first_of_isCut
    (laid : chunk.Laid pieces waiting)
    {offset : Nat}
    (isCut : IsCut pieces offset)
    {instruction : Instruction}
    (decoded : decode chunk.code offset = .complete instruction) :
    ∃ piece ∈ pieces, piece.first = instruction := by
  rcases isCut with ⟨position, inside, rfl⟩
  rw [offsetOf_eq] at decoded
  rcases behind : pieces.drop position with _ | ⟨piece, rest⟩
  · rw [List.take_of_length_le (List.drop_eq_nil_iff.mp behind), ← laid.size] at decoded
    simp [decode] at decoded
  · have split := List.take_append_drop position pieces
    rw [behind] at split
    have code :
        chunk.code.toList =
          encode
            (flatten (pieces.take position) ++ piece.first :: (piece.rest ++ flatten rest)) := by
      rw [laid.code]
      nth_rewrite 1 [← split]
      simp [flatten, Piece.instructions]
    rw [decode_encode code] at decoded
    cases decoded
    refine ⟨piece, ?_, rfl⟩
    rw [← split]
    exact List.mem_append_right _ List.mem_cons_self

/-- Execution begins with a piece. -/
theorem first_of_begin
    (laid : chunk.Laid pieces waiting)
    {instruction : Instruction}
    (decoded : decode chunk.code 0 = .complete instruction) :
    ∃ piece ∈ pieces, piece.first = instruction :=
  laid.first_of_isCut ⟨0, Nat.zero_le _, rfl⟩ decoded

/--
When no jump waits, an instruction is followed by the beginning of a piece or by one that it
is joined with.
-/
theorem leads
    (laid : chunk.Laid pieces [])
    {offset target : Nat}
    {instruction next : Instruction}
    (boundary : Boundary chunk.code offset)
    (decoded : decode chunk.code offset = .complete instruction)
    (successor : target ∈ instruction.successors offset)
    (decodedNext : decode chunk.code target = .complete next) :
    (∃ piece ∈ pieces, piece.first = next) ∨ ∃ piece ∈ pieces, piece.Joins instruction next := by
  rcases split_of_boundary laid.code boundary decoded with ⟨before, after, split, rfl⟩
  rcases next_or_landing successor with rfl | landing
  · have code := laid.code
    rw [split, show before ++ instruction :: after = (before ++ [instruction]) ++ after by simp]
      at code
    cases after with
    | nil =>
        have size := laid.size
        rw [split, totalLength_append] at size
        rw [show totalLength before + instruction.length = chunk.code.size by
          simpa using size.symm] at decodedNext
        simp [decode] at decodedNext
    | cons other after =>
        have there := decode_encode code
        rw [totalLength_append, totalLength_cons, totalLength_nil, Nat.add_zero, decodedNext]
          at there
        cases there
        exact first_or_joins split
  · rcases exists_of_flatten split with ⟨position, piece, found, ⟨rfl, place⟩ | inside⟩
    · rcases laid.lands position piece found with isWaiting | cuts
      · cases isWaiting
      · rw [place] at cuts
        exact .inl (laid.first_of_isCut (cuts target landing) decodedNext)
    · rw [laid.straight piece (List.mem_of_getElem? found) instruction inside] at landing
      cases landing

end Laid

end Chunk

end ScriptEngine
