import ScriptEngine.Proofs.Code.Pieces
import ScriptEngine.Proofs.Compiler.Record

/-!
# What stands before returns and methods

In an initialiser, execution comes to a return only from the instruction that pushes slot
zero (`Function.YieldsReceiver`).  Wherever a method is attached, the instruction before it
has pushed a compiled function, and what is attached as an initialiser is the code of one
(`Function.AttachesInitializers`).

The compiler appends such instructions together, and no jump leads between them.
`Compiler.Joins` is an effect that every routine has: it adds pieces to the code, and the
jumps that it opens are closed when it ends.
-/

set_option synthInstance.maxSize 100000

namespace ScriptEngine

open Instruction Piece Chunk

/-! ## Properties of code -/

/-- An instruction that pushes a constant. -/
inductive Instruction.Pushes (constants : Array Value) (value : Value) : Instruction → Prop where
  | constant
      {index : UInt8}
      (found : constants[index.toNat]? = some value) :
      Pushes constants value (.constant index)
  | constantLong
      {index : UInt16}
      (found : constants[index.toNat]? = some value) :
      Pushes constants value (.constantLong index)

/-- Execution comes to a return only behind the instruction that pushes slot zero. -/
structure Function.YieldsReceiver (function : Function) : Prop where
  begins : decode function.chunk.code 0 ≠ .complete .leave
  before :
    ∀ {offset target : Nat} {instruction : Instruction},
      Boundary function.chunk.code offset →
      decode function.chunk.code offset = .complete instruction →
      target ∈ instruction.successors offset →
      decode function.chunk.code target = .complete .leave →
        instruction = .getLocal 0

/--
A method is attached only behind the instruction that pushes it, and an initialiser has the
code of one.
-/
structure Function.AttachesInitializers (yields : Nat → Prop) (function : Function) : Prop where
  begins : ∀ index, decode function.chunk.code 0 ≠ .complete (.method index)
  before :
    ∀ {offset target : Nat} {instruction : Instruction} {index : UInt16},
      Boundary function.chunk.code offset →
      decode function.chunk.code offset = .complete instruction →
      target ∈ instruction.successors offset →
      decode function.chunk.code target = .complete (.method index) →
        ∃ id,
          instruction.Pushes function.chunk.constants (.function id) ∧
            (function.chunk.constants[index.toNat]? = some (.string "init") → yields id)

theorem Function.AttachesInitializers.mono
    {yields more : Nat → Prop}
    {function : Function}
    (attaches : function.AttachesInitializers yields)
    (grows : ∀ id, yields id → more id) :
    function.AttachesInitializers more where
  begins := attaches.begins
  before := by
    intro offset target instruction index boundary decoded successor attached
    rcases attaches.before boundary decoded successor attached with ⟨id, pushes, initializes⟩
    exact ⟨id, pushes, grows id ∘ initializes⟩

/-! ## Pieces that the compiler writes -/

/-- Constants have been added. -/
def ConstantsGrow (before after : Array Value) : Prop :=
  ∀ (position : Nat) (value : Value), before[position]? = some value → after[position]? = some value

/-- The pieces of a function with a role. -/
inductive Piece.Fits (role : Role) (constants : Array Value) (yields : Nat → Prop) :
    Piece → Prop where
  | single
      {instruction : Instruction}
      (stays : instruction ≠ .leave)
      (attachesNothing : ∀ index, instruction ≠ .method index) :
      Fits role constants yields { first := instruction, rest := [] }
  | leaves
      (other : role ≠ .initializer) :
      Fits role constants yields { first := .leave, rest := [] }
  | yieldsReceiver : Fits role constants yields { first := .getLocal 0, rest := [.leave] }
  | attaches
      {instruction : Instruction}
      {index : UInt16}
      {id : Nat}
      (pushes : instruction.Pushes constants (.function id))
      (name : ∃ content, constants[index.toNat]? = some (.string content) ∧
        (content = "init" → yields id)) :
      Fits role constants yields { first := instruction, rest := [.method index] }

namespace Piece.Fits

variable {role : Role} {constants others : Array Value} {yields more : Nat → Prop} {piece : Piece}

theorem alone
    (instruction : Instruction)
    [standsAlone : instruction.StandsAlone] :
    Fits role constants yields { first := instruction, rest := [] } := by
  have alone := standsAlone.alone
  refine .single ?_ fun index => ?_
  · rintro rfl
    cases alone
  · rintro rfl
    cases alone

theorem jump (kind : ForwardJump) (distance : UInt16) :
    Fits role constants yields { first := kind.past distance, rest := [] } := by
  cases kind <;> exact .single nofun nofun

theorem mono
    (fits : piece.Fits role constants yields)
    (grows : ConstantsGrow constants others)
    (known : ∀ id, yields id → more id) :
    piece.Fits role others more := by
  cases fits with
  | single stays attachesNothing => exact .single stays attachesNothing
  | leaves other => exact .leaves other
  | yieldsReceiver => exact .yieldsReceiver
  | attaches pushes name =>
      rcases name with ⟨content, named, initializes⟩
      refine .attaches ?_ ⟨content, grows _ _ named, known _ ∘ initializes⟩
      cases pushes with
      | constant found => exact .constant (grows _ _ found)
      | constantLong found => exact .constantLong (grows _ _ found)

/-- Neither a return of an initialiser nor a method begins a piece. -/
theorem first_ne_leave (fits : piece.Fits .initializer constants yields) :
    piece.first ≠ .leave := by
  cases fits with
  | single stays => exact stays
  | leaves other => exact absurd rfl other
  | yieldsReceiver => nofun
  | attaches pushes => cases pushes <;> nofun

theorem first_ne_method (fits : piece.Fits role constants yields) (index : UInt16) :
    piece.first ≠ .method index := by
  cases fits with
  | single _ attachesNothing => exact attachesNothing index
  | leaves | yieldsReceiver => nofun
  | attaches pushes => cases pushes <;> nofun

/-- What is joined in a piece. -/
theorem joins
    (fits : piece.Fits role constants yields)
    {instruction next : Instruction}
    (joins : piece.Joins instruction next) :
    instruction = .getLocal 0 ∧ next = .leave ∨
      ∃ id index,
        next = .method index ∧
          instruction.Pushes constants (.function id) ∧
          (constants[index.toNat]? = some (.string "init") → yields id) := by
  rcases joins with ⟨before, after, split⟩
  have pair :
      ∀ {first second : Instruction},
        [first, second] = before ++ instruction :: next :: after →
          instruction = first ∧ next = second := by
    intro first second same
    rcases before with _ | ⟨head, _ | ⟨other, before⟩⟩ <;> simp at same
    exact ⟨same.1.symm, same.2.1.symm⟩
  cases fits with
  | single | leaves =>
      have length := congrArg List.length split
      simp [instructions] at length
      omega
  | yieldsReceiver =>
      rcases pair split with ⟨rfl, rfl⟩
      exact .inl ⟨rfl, rfl⟩
  | @attaches _ index id pushes name =>
      rcases pair split with ⟨rfl, rfl⟩
      rcases name with ⟨content, named, initializes⟩
      refine .inr ⟨id, index, rfl, pushes, fun isInit => initializes ?_⟩
      rw [named] at isInit
      cases isInit
      rfl

end Piece.Fits

namespace Chunk.Laid

variable
  {function : Function}
  {pieces : List Piece}
  {role : Role}
  {yields : Nat → Prop}

theorem yieldsReceiver
    (laid : function.chunk.Laid pieces [])
    (fits : ∀ piece ∈ pieces, piece.Fits .initializer function.chunk.constants yields) :
    function.YieldsReceiver where
  begins decoded := by
    rcases laid.first_of_begin decoded with ⟨piece, member, first⟩
    exact (fits piece member).first_ne_leave first
  before boundary decoded successor returns := by
    rcases laid.leads boundary decoded successor returns with
      ⟨piece, member, first⟩ | ⟨piece, member, joins⟩
    · exact absurd first (fits piece member).first_ne_leave
    · rcases (fits piece member).joins joins with ⟨isReceiver, -⟩ | ⟨id, index, isMethod, -⟩
      · exact isReceiver
      · cases isMethod

theorem attachesInitializers
    (laid : function.chunk.Laid pieces [])
    (fits : ∀ piece ∈ pieces, piece.Fits role function.chunk.constants yields) :
    function.AttachesInitializers yields where
  begins index decoded := by
    rcases laid.first_of_begin decoded with ⟨piece, member, first⟩
    exact (fits piece member).first_ne_method index first
  before boundary decoded successor attached := by
    rcases laid.leads boundary decoded successor attached with
      ⟨piece, member, first⟩ | ⟨piece, member, joins⟩
    · exact absurd first ((fits piece member).first_ne_method _)
    · rcases (fits piece member).joins joins with ⟨-, isLeave⟩ | ⟨id, index, isMethod, rest⟩
      · cases isLeave
      · cases isMethod
        exact ⟨id, rest⟩

end Chunk.Laid

/-! ## Parts of a compilation -/

/-- The code of a draft consists of pieces that fit, while some jumps wait. -/
structure Draft.LaidOut (yields : Nat → Prop) (draft : Draft) (pieces : List Piece)
    (waiting : List PendingJump) : Prop where
  remembers : draft.chunk.Remembers
  laid : draft.chunk.Laid pieces waiting
  fits : ∀ piece ∈ pieces, piece.Fits draft.role draft.chunk.constants yields

theorem Draft.LaidOut.mono
    {yields more : Nat → Prop}
    {draft : Draft}
    {pieces : List Piece}
    {waiting : List PendingJump}
    (laidOut : draft.LaidOut yields pieces waiting)
    (known : ∀ id, yields id → more id) :
    draft.LaidOut more pieces waiting :=
  { laidOut with
    fits := fun piece member => (laidOut.fits piece member).mono (fun _ _ => id) known }

theorem Chunk.constants_of_pool {chunk other : Chunk} (same : other.pool = chunk.pool) :
    other.constants = chunk.constants :=
  show other.pool.constants = chunk.pool.constants from congrArg constants same

theorem Chunk.Remembers.of_pool
    {chunk other : Chunk}
    (remembers : chunk.Remembers)
    (same : other.pool = chunk.pool) :
    other.Remembers := by
  have pooled : chunk.pool.Remembers := ⟨remembers.found, remembers.bounded⟩
  rw [← same] at pooled
  exact ⟨pooled.found, pooled.bounded⟩

/-- A piece without jumps that is written stands behind the others. -/
theorem Draft.LaidOut.write
    {yields : Nat → Prop}
    {draft : Draft}
    {pieces : List Piece}
    {waiting : List PendingJump}
    (laidOut : draft.LaidOut yields pieces waiting)
    (chunk : Chunk)
    (pool : chunk.pool = draft.chunk.pool)
    (piece : Piece)
    (fits : piece.Fits draft.role draft.chunk.constants yields)
    (straight : ∀ instruction ∈ piece.instructions, ∀ offset, instruction.landings offset = [])
    (written : chunk.code.toList = draft.chunk.code.toList ++ encode piece.instructions) :
    LaidOut yields { draft with chunk } (pieces ++ [piece]) waiting := by
  refine ⟨laidOut.remembers.of_pool pool, laidOut.laid.write piece straight written, ?_⟩
  intro other member
  show other.Fits draft.role chunk.constants yields
  rw [Chunk.constants_of_pool pool]
  rcases List.mem_append.mp member with old | new
  · exact laidOut.fits other old
  · rcases List.mem_singleton.mp new with rfl
    exact fits

namespace Compilation

/-- A function that has been finished yields its receiver. -/
def Yields (state : Compilation) (id : Nat) : Prop :=
  ∃ place function,
    id = state.firstFunction + place ∧
      state.finished[place]? = some function ∧ function.YieldsReceiver

/--
A part of a compilation has added pieces to the present function.  Jumps that it has opened
wait among them, and it can jump back to some cuts.
-/
structure Progresses (before after : Compilation) (opened : List PendingJump)
    (cuts : List Nat) : Prop where
  enclosing : after.enclosing = before.enclosing
  role : after.draft.role = before.draft.role
  first : after.firstFunction = before.firstFunction
  finished :
    ∀ (place : Nat) (function : Function),
      before.finished[place]? = some function → after.finished[place]? = some function
  laid :
    ∀ pieces waiting,
      before.draft.LaidOut before.Yields pieces waiting →
        ∃ more,
          after.draft.LaidOut after.Yields (pieces ++ more) (opened ++ waiting) ∧
            (∀ jump ∈ opened,
              ∃ position kind distance,
                (pieces ++ more)[pieces.length + position]? =
                    some { first := ForwardJump.past kind distance, rest := [] } ∧
                  jump.operand = offsetOf (pieces ++ more) (pieces.length + position) + 1) ∧
            ∀ offset ∈ cuts, IsCut (pieces ++ more) offset
  attaches :
    (∀ function ∈ before.finished, function.AttachesInitializers before.Yields) →
      ∀ function ∈ after.finished, function.AttachesInitializers after.Yields

namespace Progresses

variable
  {before between after : Compilation}
  {opened : List PendingJump}
  {cuts : List Nat}

theorem yields
    (progresses : Progresses before after opened cuts)
    (id : Nat)
    (yields : before.Yields id) :
    after.Yields id := by
  rcases yields with ⟨place, function, rfl, found, isReceiver⟩
  exact ⟨place, function, by rw [progresses.first], progresses.finished place function found,
    isReceiver⟩

/-- The code of the present function is as it was, or some more pieces have been added. -/
theorem of_laid
    (enclosing : after.enclosing = before.enclosing)
    (role : after.draft.role = before.draft.role)
    (first : after.firstFunction = before.firstFunction)
    (finished : after.finished = before.finished)
    (laid :
      ∀ pieces waiting,
        before.draft.LaidOut before.Yields pieces waiting →
          ∃ more, after.draft.LaidOut before.Yields (pieces ++ more) waiting) :
    Progresses before after [] [] := by
  have sameYields : after.Yields = before.Yields := by
    unfold Yields
    rw [first, finished]
  refine ⟨enclosing, role, first, ?_, ?_, ?_⟩
  · rw [finished]
    exact fun _ _ => id
  · intro pieces waiting laidOut
    rcases laid pieces waiting laidOut with ⟨more, furtherLaid⟩
    rw [← sameYields] at furtherLaid
    exact ⟨more, furtherLaid, fun _ member => absurd member List.not_mem_nil,
      fun _ member => absurd member List.not_mem_nil⟩
  · rw [finished, sameYields]
    exact id

theorem of_same
    (enclosing : after.enclosing = before.enclosing)
    (role : after.draft.role = before.draft.role)
    (first : after.firstFunction = before.firstFunction)
    (finished : after.finished = before.finished)
    (chunk : after.draft.chunk = before.draft.chunk) :
    Progresses before after [] [] := by
  refine of_laid enclosing role first finished fun pieces waiting laidOut => ⟨[], ?_⟩
  rw [List.append_nil]
  refine ⟨?_, ?_, ?_⟩
  · rw [chunk]
    exact laidOut.remembers
  · rw [chunk]
    exact laidOut.laid
  · rw [chunk, role]
    exact laidOut.fits

/-- One more piece has been written. -/
theorem of_piece
    {chunk : Chunk}
    (pool : chunk.pool = before.draft.chunk.pool)
    (piece : Piece)
    (fits : piece.Fits before.draft.role before.draft.chunk.constants before.Yields)
    (straight : ∀ instruction ∈ piece.instructions, ∀ offset, instruction.landings offset = [])
    (written : chunk.code.toList = before.draft.chunk.code.toList ++ encode piece.instructions) :
    Progresses before (before.withChunk chunk) [] [] :=
  of_laid rfl rfl rfl rfl fun _ _ laidOut =>
    ⟨[piece], laidOut.write chunk pool piece fits straight written⟩

theorem andThen
    (start : Progresses before between opened cuts)
    (rest : Progresses between after [] []) :
    Progresses before after opened cuts where
  enclosing := rest.enclosing.trans start.enclosing
  role := rest.role.trans start.role
  first := rest.first.trans start.first
  finished place function found :=
    rest.finished place function (start.finished place function found)
  laid := by
    intro pieces waiting laidOut
    rcases start.laid pieces waiting laidOut with ⟨middle, middleLaid, jumps, isCut⟩
    rcases rest.laid _ _ middleLaid with ⟨more, laid, -⟩
    refine ⟨middle ++ more, ?_, ?_, ?_⟩
    · rwa [List.append_assoc] at laid
    · intro jump member
      rcases jumps jump member with ⟨position, kind, distance, found, operand⟩
      have inside := (List.getElem?_eq_some_iff.mp found).1
      refine ⟨position, kind, distance, ?_, ?_⟩
      · rw [← List.append_assoc, List.getElem?_append_left inside, found]
      · rw [← List.append_assoc, offsetOf_append (Nat.le_of_lt inside), operand]
    · intro offset member
      rw [← List.append_assoc]
      exact (isCut offset member).append more
  attaches := rest.attaches ∘ start.attaches

/-- The present end of the code is a cut. -/
theorem mark (progresses : Progresses before after opened cuts) :
    Progresses before after opened (after.draft.chunk.code.size :: cuts) :=
  { progresses with
    laid := by
      intro pieces waiting laidOut
      rcases progresses.laid pieces waiting laidOut with ⟨more, laid, jumps, isCut⟩
      refine ⟨more, laid, jumps, ?_⟩
      intro offset member
      rcases List.mem_cons.mp member with rfl | old
      · rw [laid.laid.size]
        exact isCut_end _
      · exact isCut offset old }

theorem forget (progresses : Progresses before after opened cuts) :
    Progresses before after opened [] :=
  { progresses with
    laid := by
      intro pieces waiting laidOut
      rcases progresses.laid pieces waiting laidOut with ⟨more, laid, jumps, -⟩
      exact ⟨more, laid, jumps, nofun⟩ }

/-! ## Jumps -/

open Compiler

/-- A jump is opened. -/
theorem openJump
    (progresses : Progresses before between opened cuts)
    (kind : ForwardJump)
    {jump : PendingJump}
    (opens : emitJump kind.opcode between = (.ok jump, after)) :
    Progresses before after (jump :: opened) cuts := by
  have written := between.draft.chunk.emitJump_eq kind between.previous.line
  have outcome :
      emitJump kind.opcode between =
        (.ok (between.draft.chunk.emitJump kind.opcode between.previous.line).1,
          between.withChunk (between.draft.chunk.emitJump kind.opcode between.previous.line).2) :=
    rfl
  rw [written] at outcome
  rw [outcome] at opens
  cases opens
  have pool := pool_emit between.draft.chunk (kind.past openDistance) between.previous.line
  refine ⟨progresses.enclosing, progresses.role, progresses.first, progresses.finished, ?_,
    progresses.attaches⟩
  intro pieces waiting laidOut
  rcases progresses.laid pieces waiting laidOut with ⟨more, laid, jumps, isCut⟩
  refine ⟨more ++ [{ first := kind.past openDistance, rest := [] }], ?_, ?_, ?_⟩
  · rw [← List.append_assoc]
    refine ⟨laid.remembers.of_pool pool, laid.laid.openJump kind _, ?_⟩
    intro piece member
    have kept : ConstantsGrow between.draft.chunk.constants
        (between.draft.chunk.emit (kind.past openDistance) between.previous.line).constants := by
      rw [constants_of_pool pool]
      exact fun _ _ => id
    rcases List.mem_append.mp member with old | new
    · exact (laid.fits piece old).mono kept fun _ => id
    · rcases List.mem_singleton.mp new with rfl
      exact .jump kind _
  · intro other member
    rw [← List.append_assoc]
    rcases List.mem_cons.mp member with rfl | old
    · refine ⟨more.length, kind, openDistance, ?_, ?_⟩
      · rw [← List.length_append, List.getElem?_concat_length]
      · rw [← List.length_append, offsetOf_append (Nat.le_refl _), offsetOf_end, ← laid.laid.size]
    · rcases jumps other old with ⟨position, otherKind, distance, found, operand⟩
      have inside := (List.getElem?_eq_some_iff.mp found).1
      refine ⟨position, otherKind, distance, ?_, ?_⟩
      · rw [List.getElem?_append_left inside, found]
      · rw [offsetOf_append (Nat.le_of_lt inside), operand]
  · intro offset member
    rw [← List.append_assoc]
    exact (isCut offset member).append _

/-- A jump that was opened is closed. -/
theorem closeJump
    (progresses : Progresses before between opened cuts)
    {jump : PendingJump}
    (isOpen : jump ∈ opened)
    {rest : List PendingJump}
    (others : ∀ other ∈ opened, other = jump ∨ other ∈ rest)
    (fewer : ∀ other ∈ rest, other ∈ opened)
    {result : Unit}
    (closes : patchJump jump between = (.ok result, after)) :
    Progresses before after rest cuts := by
  rcases limitedChunk_eq_ok closes with ⟨chunk, closed, rfl⟩
  refine ⟨progresses.enclosing, progresses.role, progresses.first, progresses.finished, ?_,
    progresses.attaches⟩
  intro pieces waiting laidOut
  rcases progresses.laid pieces waiting laidOut with ⟨more, laid, jumps, isCut⟩
  rcases jumps jump isOpen with ⟨position, kind, former, found, operand⟩
  have waits : ∀ other ∈ opened ++ waiting, other = jump ∨ other ∈ rest ++ waiting := by
    intro other member
    rcases List.mem_append.mp member with isOther | isWaiting
    · exact (others other isOther).imp_right (List.mem_append_left _)
    · exact .inr (List.mem_append_right _ isWaiting)
  rcases laid.laid.close found operand waits closed with ⟨distance, pool, laidAfter⟩
  have same :
      Piece.length { first := kind.past distance, rest := [] } =
        Piece.length { first := kind.past former, rest := [] } := by
    simp [Piece.length, Piece.instructions]
  have set :
      (pieces ++ more).set (pieces.length + position) { first := kind.past distance, rest := [] } =
        pieces ++ more.set position { first := kind.past distance, rest := [] } := by
    rw [List.set_append_right _ _ (Nat.le_add_right _ _), Nat.add_sub_cancel_left]
  rw [set] at laidAfter
  have constants := constants_of_pool pool
  refine ⟨more.set position { first := kind.past distance, rest := [] }, ?_, ?_, ?_⟩
  · refine ⟨laid.remembers.of_pool pool, laidAfter, ?_⟩
    intro piece member
    have known : ∀ piece ∈ pieces ++ more, piece.Fits between.draft.role chunk.constants
        between.Yields := by
      intro piece old
      exact (laid.fits piece old).mono (fun _ _ found => by rwa [constants]) fun _ => id
    rw [← set] at member
    rcases List.mem_or_eq_of_mem_set member with old | rfl
    · exact known piece old
    · exact .jump kind distance
  · intro other member
    rcases jumps other (fewer other member) with
      ⟨place, otherKind, otherDistance, isThere, otherOperand⟩
    rw [← set]
    by_cases here : position = place
    · subst here
      refine ⟨position, kind, distance, ?_, ?_⟩
      · exact List.getElem?_set_self (List.getElem?_eq_some_iff.mp found).1
      · rw [offsetOf_set found same, otherOperand]
    · refine ⟨place, otherKind, otherDistance, ?_, ?_⟩
      · rw [List.getElem?_set_ne (by omega), isThere]
      · rw [offsetOf_set found same, otherOperand]
  · intro offset member
    rw [← set]
    exact isCut_set found same (isCut offset member)

/-- A jump back to a cut. -/
theorem loop
    (progresses : Progresses before between opened cuts)
    {start : Nat}
    (known : start ∈ cuts)
    {result : Unit}
    (loops : emitLoop start between = (.ok result, after)) :
    Progresses before after opened cuts := by
  rcases exists_of_bind_ok loops with ⟨line, same, looks, writes⟩
  cases looks
  rcases limitedChunk_eq_ok writes with ⟨chunk, written, rfl⟩
  refine ⟨progresses.enclosing, progresses.role, progresses.first, progresses.finished, ?_,
    progresses.attaches⟩
  intro pieces waiting laidOut
  rcases progresses.laid pieces waiting laidOut with ⟨more, laid, jumps, isCut⟩
  have earlier := (isCut start known).le
  rw [← laid.laid.size] at earlier
  rcases laid.laid.emitLoop (isCut start known) earlier written with ⟨distance, pool, laidAfter⟩
  rw [List.append_assoc] at laidAfter
  refine ⟨_, ⟨laid.remembers.of_pool pool, laidAfter, ?_⟩, ?_, ?_⟩
  · intro piece member
    have kept : ConstantsGrow between.draft.chunk.constants chunk.constants := by
      rw [constants_of_pool pool]
      exact fun _ _ => id
    rw [← List.append_assoc] at member
    rcases List.mem_append.mp member with old | new
    · exact (laid.fits piece old).mono kept fun _ => id
    · rcases List.mem_singleton.mp new with rfl
      exact .single nofun nofun
  · intro other member
    rw [← List.append_assoc]
    rcases jumps other member with ⟨position, kind, otherDistance, found, operand⟩
    have inside := (List.getElem?_eq_some_iff.mp found).1
    refine ⟨position, kind, otherDistance, ?_, ?_⟩
    · rw [List.getElem?_append_left inside, found]
    · rw [offsetOf_append (Nat.le_of_lt inside), operand]
  · intro offset member
    rw [← List.append_assoc]
    exact (isCut offset member).append _

end Progresses

end Compilation

/-! ## Routines -/

namespace Compiler

open Compilation

/-- A step that succeeds adds pieces to the code, and no jump of it waits afterwards. -/
def Joins : Effect :=
  fun before problem after => problem = none → Progresses before after [] []

namespace Joins

theorem of_ok
    {step : Compiler α}
    (keeps :
      ∀ {state after : Compilation} {value : α},
        step state = (.ok value, after) → Progresses state after [] []) :
    Has Joins step := by
  constructor
  intro state
  rcases outcome : step state with ⟨error | value, after⟩
  · exact nofun
  · exact fun _ => keeps outcome

theorem progresses
    {step : Compiler α}
    [joins : Has Joins step]
    {state after : Compilation}
    {value : α}
    (succeeds : step state = (.ok value, after)) :
    Progresses state after [] [] := by
  have kept := joins.has state
  rw [succeeds] at kept
  exact kept rfl

theorem nothing (state : Compilation) : Progresses state state [] [] :=
  .of_same rfl rfl rfl rfl rfl

/-- An instruction that stands alone is a piece of its own. -/
theorem emitted
    (state : Compilation)
    (instruction : Instruction)
    (line : Nat)
    (stays : instruction ≠ .leave)
    (attachesNothing : ∀ index, instruction ≠ .method index)
    (straight : ∀ offset, instruction.landings offset = []) :
    Progresses state (state.withChunk (state.draft.chunk.emit instruction line)) [] [] := by
  refine .of_piece (pool_emit _ _ _) _ (.single stays attachesNothing) ?_ ?_
  · rintro other member
    rcases List.mem_singleton.mp member with rfl
    exact straight
  · simp [Piece.instructions]

end Joins

end Compiler

end ScriptEngine
