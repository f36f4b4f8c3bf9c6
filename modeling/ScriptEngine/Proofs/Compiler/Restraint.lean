import ScriptEngine.Proofs.Code.Lines
import ScriptEngine.Proofs.Compiler.Evaluation

/-!
# What the body of a module leaves alone

While the body of a module is executed, slot zero of its frame holds the body itself.
No instruction of the body reads that slot: it has a name that no variable can have, the
body has no receiver and it is no initialiser (`sparesCallee_of_compile`).

The code of the outermost function is followed through a compilation.  At any time it
consists of whole instructions, and the jumps that wait for their distances are among
them (`Draft.Spares`).  What is written into a nested function does not matter.
`Compiler.Spares` says that a step keeps this, and is passed on from the parts of a
routine to the routine by instances.
-/

set_option synthInstance.maxSize 100000

namespace ScriptEngine

open Compilation

/-- An instruction that does not read slot zero. -/
class Instruction.SparesCallee (instruction : Instruction) : Prop where
  other : instruction ≠ .getLocal 0

namespace Instruction.SparesCallee

instance : SparesCallee .pushNull := ⟨nofun⟩
instance : SparesCallee .pop := ⟨nofun⟩
instance : SparesCallee .print := ⟨nofun⟩
instance : SparesCallee .leave := ⟨nofun⟩
instance : SparesCallee .getIndex := ⟨nofun⟩
instance : SparesCallee .setIndex := ⟨nofun⟩
instance (index : UInt8) : SparesCallee (.constant index) := ⟨nofun⟩
instance (index : UInt16) : SparesCallee (.constantLong index) := ⟨nofun⟩
instance (slot : UInt16) : SparesCallee (.getModule slot) := ⟨nofun⟩
instance (slot : UInt16) : SparesCallee (.defineModule slot) := ⟨nofun⟩
instance (count : UInt8) : SparesCallee (.call count) := ⟨nofun⟩
instance (index : UInt16) (count : UInt8) : SparesCallee (.invoke index count) := ⟨nofun⟩
instance (index : UInt16) : SparesCallee (.makeClass index) := ⟨nofun⟩
instance (index : UInt16) : SparesCallee (.method index) := ⟨nofun⟩
instance (index : UInt16) : SparesCallee (.staticMethod index) := ⟨nofun⟩
instance (index : UInt16) : SparesCallee (.getProperty index) := ⟨nofun⟩
instance (index : UInt16) : SparesCallee (.setProperty index) := ⟨nofun⟩
instance (index : UInt16) : SparesCallee (.importModule index) := ⟨nofun⟩

instance (operator : UnaryOperator) : SparesCallee operator.instruction := by
  cases operator <;> exact ⟨nofun⟩

instance (reference : Compiler.Reference) : SparesCallee reference.write := by
  cases reference <;> exact ⟨nofun⟩

instance choice
    {condition : Prop}
    [Decidable condition]
    {first second : Instruction}
    [chosen : SparesCallee first]
    [otherwise : SparesCallee second] :
    SparesCallee (if condition then first else second) := by
  split
  · exact chosen
  · exact otherwise

end Instruction.SparesCallee

/-- Code that consists of whole instructions and does not read slot zero. -/
def Chunk.Spares (pending : PendingJump → Prop) (chunk : Chunk) : Prop :=
  ∃ instructions,
    chunk.code.toList = Instruction.encode instructions ∧
      .getLocal 0 ∉ instructions ∧
      ∀ jump, pending jump → jump.IsIn instructions

namespace Chunk.Spares

variable {pending : PendingJump → Prop} {chunk : Chunk}

theorem blank : Chunk.Spares (fun _ => False) {} :=
  ⟨[], rfl, List.not_mem_nil, nofun⟩

theorem mono
    {fewer : PendingJump → Prop}
    (spares : chunk.Spares pending)
    (implies : ∀ jump, fewer jump → pending jump) :
    chunk.Spares fewer := by
  rcases spares with ⟨instructions, code, absent, waiting⟩
  exact ⟨instructions, code, absent, fun jump waits => waiting jump (implies jump waits)⟩

theorem of_code
    {other : Chunk}
    (spares : chunk.Spares pending)
    (same : other.code = chunk.code) :
    other.Spares pending := by
  unfold Spares
  rw [same]
  exact spares

/-- More instructions at the end of the code. -/
theorem append
    {other : Chunk}
    (spares : chunk.Spares pending)
    {instruction : Instruction}
    (spared : instruction ≠ .getLocal 0)
    (written : other.code.toList = chunk.code.toList ++ instruction.bytes) :
    other.Spares pending := by
  rcases spares with ⟨instructions, code, absent, waiting⟩
  refine ⟨instructions ++ [instruction], ?_, ?_, fun jump member => (waiting jump member).append _⟩
  · rw [written, code, Instruction.encode_append, Instruction.encode_cons, Instruction.encode_nil,
      List.append_nil]
  · intro member
    rcases List.mem_append.mp member with old | new
    · exact absent old
    · exact spared (List.mem_singleton.mp new).symm

/-- A jump that is appended waits for its distance. -/
theorem emitJump
    (spares : chunk.Spares pending)
    (kind : ForwardJump)
    (line : Nat) :
    (chunk.emitJump kind.opcode line).2.Spares fun jump =>
      jump = (chunk.emitJump kind.opcode line).1 ∨ pending jump := by
  rcases spares with ⟨instructions, code, absent, waiting⟩
  rw [emitJump_eq]
  refine ⟨instructions ++ [kind.past openDistance], ?_, ?_, ?_⟩
  · rw [toList_code_emit, code, Instruction.encode_append, Instruction.encode_cons,
      Instruction.encode_nil, List.append_nil]
  · intro member
    rcases List.mem_append.mp member with old | new
    · exact absent old
    · cases kind <;> cases List.mem_singleton.mp new
  · rintro jump (rfl | old)
    · refine ⟨instructions, kind, openDistance, [], rfl, ?_⟩
      rw [← Array.length_toList, code, Instruction.length_encode]
    · exact (waiting jump old).append _

/-- Closing a jump changes its distance only. -/
theorem patchJump
    {jump : PendingJump}
    {after : Chunk}
    {result : Unit}
    (spares : chunk.Spares pending)
    (waits : pending jump)
    (patched : chunk.patchJump jump = (.ok result, after)) :
    after.Spares pending := by
  rcases spares with ⟨instructions, code, absent, waiting⟩
  rcases waiting jump waits with ⟨before, kind, former, rest, rfl, place⟩
  have written :
      chunk.code.toList =
        Instruction.encode before ++ (kind.past former).bytes ++ Instruction.encode rest := by
    rw [code, Instruction.encode_append, Instruction.encode_cons, List.append_assoc]
  have handle : jump = { operand := (Instruction.encode before).length + 1 } := by
    rw [Instruction.length_encode, ← place]
  rw [handle] at patched
  rcases patchJump_ok written patched with ⟨-, -, closed⟩
  generalize UInt16.ofNat (Instruction.encode rest).length = distance at closed
  refine ⟨before ++ kind.past distance :: rest, ?_, ?_, ?_⟩
  · rw [closed, Instruction.encode_append, Instruction.encode_cons, List.append_assoc]
  · intro member
    rcases List.mem_append.mp member with old | new
    · exact absent (List.mem_append_left _ old)
    · rcases List.mem_cons.mp new with isJump | old
      · cases kind <;> cases isJump
      · exact absent (List.mem_append_right _ (List.mem_cons_of_mem _ old))
  · exact fun other member => (waiting other member).close distance

/-- A backward jump is appended. -/
theorem emitLoop
    {start line : Nat}
    {after : Chunk}
    {result : Unit}
    (spares : chunk.Spares pending)
    (looped : chunk.emitLoop start line = (.ok result, after)) :
    after.Spares pending := by
  unfold Chunk.emitLoop at looped
  simp only at looped
  generalize (chunk.write Opcode.loop.toByte line).code.size - start + 2 = distance at looped
  split at looped
  · cases looped
    have spared : Instruction.loop (UInt16.ofNat distance) ≠ .getLocal 0 := nofun
    refine spares.append spared ?_
    simp [writeWord, Instruction.bytes, Instruction.opcode, Instruction.operandBytes]
  · cases looped

end Chunk.Spares

/-- Slot zero has a name that no variable can have, and it is not given up with a block. -/
structure Scope.Reserves (scope : Scope) : Prop where
  slotZero :
    ∃ inner zero,
      scope.locals = inner ++ [zero] ∧ ¬ IsVariableName zero.name ∧ zero.depth = 0
  few : scope.locals.length ≤ maxLocals

namespace Scope.Reserves

variable {scope : Scope}

theorem blank : (Scope.reserving "").Reserves :=
  ⟨⟨[], _, rfl, fun isVariable => isVariable.1 rfl, rfl⟩, by decide⟩

theorem declare
    {name : String}
    {after : Scope}
    (reserves : scope.Reserves)
    (declared : scope.declare name = .ok after) :
    after.Reserves := by
  rcases reserves.slotZero with ⟨inner, zero, split, rest⟩
  rcases declare_eq_ok declared with ⟨rfl, room⟩
  exact ⟨⟨_ :: inner, zero, congrArg _ split, rest⟩, room⟩

theorem markInitialized (reserves : scope.Reserves) : scope.markInitialized.Reserves := by
  rcases reserves with ⟨⟨inner, zero, split, reserved, outermost⟩, few⟩
  unfold Scope.markInitialized
  cases inner with
  | nil =>
      rw [split] at few ⊢
      exact ⟨⟨[], { zero with initialized := true }, rfl, reserved, outermost⟩, few⟩
  | cons latest inner =>
      rw [split] at few ⊢
      exact ⟨⟨{ latest with initialized := true } :: inner, zero, rfl, reserved, outermost⟩, few⟩

/-- A block that is left takes its own variables with it. -/
theorem leave (reserves : scope.Reserves) (inBlock : 0 < scope.depth) : scope.leave.2.Reserves := by
  rcases reserves with ⟨⟨inner, zero, split, reserved, outermost⟩, few⟩
  have stays : (zero.depth == scope.depth) = false := by
    rw [outermost, beq_eq_false_iff_ne]
    exact Nat.ne_of_lt inBlock
  constructor
  · refine ⟨inner.dropWhile fun entry => entry.depth == scope.depth, zero, ?_, reserved, outermost⟩
    show scope.locals.dropWhile _ = _
    rw [split, List.dropWhile_append]
    split
    · rename_i nothing
      rw [List.isEmpty_iff.mp nothing]
      simp [stays]
    · rfl
  · exact Nat.le_trans (List.dropWhile_sublist _).length_le few

/-- A name of a variable does not mean slot zero. -/
theorem resolve
    {name : String}
    {slot : Nat}
    (reserves : scope.Reserves)
    (isVariable : IsVariableName name)
    (resolved : scope.resolve name = .ok (some slot)) :
    UInt8.ofNat slot ≠ 0 := by
  rcases reserves with ⟨⟨inner, zero, split, reserved, -⟩, few⟩
  rcases resolveIn_eq_some resolved with ⟨later, entry, earlier, found, named, -, rfl⟩
  have positive : 0 < earlier.length := by
    rcases earlier with _ | ⟨first, rest⟩
    · rw [split] at found
      rcases List.append_inj' found rfl with ⟨-, last⟩
      cases last
      rw [named] at reserved
      exact absurd isVariable reserved
    · exact Nat.succ_pos _
  have small : earlier.length < 256 := by
    rw [found] at few
    simp only [List.length_append, List.length_cons, maxLocals] at few
    omega
  intro zero
  have same := congrArg UInt8.toNat zero
  rw [UInt8.toNat_ofNat', Nat.mod_eq_of_lt small] at same
  exact absurd same (Nat.ne_of_gt positive)

end Scope.Reserves

/-- The body of a module that is being compiled, inside a number of blocks. -/
structure Draft.Spares (blocks : Nat) (pending : PendingJump → Prop) (draft : Draft) : Prop where
  role : draft.role = .script
  blocks : draft.scope.depth = blocks
  scope : draft.scope.Reserves
  chunk : draft.chunk.Spares pending

/-- A place in a compilation: the functions around, and the blocks of the outermost one. -/
structure Enclosure where
  depth : Nat
  blocks : Nat

namespace Enclosure

/-- The module level. -/
def outermost : Enclosure where
  depth := 0
  blocks := 0

/-- Inside one more function. -/
def inFunction (site : Enclosure) : Enclosure :=
  { site with depth := site.depth + 1 }

/-- Inside one more block of the present function. -/
def inBlock (site : Enclosure) : Enclosure :=
  if site.depth = 0 then { site with blocks := site.blocks + 1 } else site

theorem depth_inBlock (site : Enclosure) : site.inBlock.depth = site.depth := by
  unfold inBlock
  split <;> rfl

theorem blocks_inBlock (site : Enclosure) (outside : site.depth = 0) :
    site.inBlock.blocks = site.blocks + 1 := by
  unfold inBlock
  rw [if_pos outside]

theorem inBlock_of_inside (site : Enclosure) (inside : 0 < site.depth) : site.inBlock = site := by
  unfold inBlock
  rw [if_neg (Nat.ne_of_gt inside)]

end Enclosure

namespace Compilation

/-- The draft of the body of the module. -/
def body (state : Compilation) : Draft :=
  state.enclosing.getLastD state.draft

/--
What the body of the module spares, seen from a site.  The pending jumps are listed with
the depth of the function that they belong to.
-/
structure Spares (site : Enclosure) (pending : List (Nat × PendingJump)) (state : Compilation) :
    Prop where
  depth : state.enclosing.length = site.depth
  body : state.body.Spares site.blocks fun jump => (0, jump) ∈ pending
  names : ∀ token ∈ state.tokens, ∀ name, token.kind = .identifier name → IsVariableName name

namespace Spares

variable {site : Enclosure} {pending : List (Nat × PendingJump)} {state : Compilation}

/-- At module level the present function is the body. -/
theorem draft
    (spares : state.Spares site pending)
    (outside : site.depth = 0) :
    state.draft.Spares site.blocks fun jump => (0, jump) ∈ pending := by
  have nothing := List.length_eq_zero_iff.mp (spares.depth.trans outside)
  have body := spares.body
  unfold Compilation.body at body
  rwa [nothing] at body

/-- A change of the present function matters at module level only. -/
theorem withDraft
    (spares : state.Spares site pending)
    {later : Enclosure}
    {more : List (Nat × PendingJump)}
    {draft : Draft}
    (depth : later.depth = site.depth)
    (inside :
      0 < site.depth → later.blocks = site.blocks ∧ ∀ jump, (0, jump) ∈ more → (0, jump) ∈ pending)
    (kept : site.depth = 0 → draft.Spares later.blocks fun jump => (0, jump) ∈ more) :
    Spares later more { state with draft } where
  depth := spares.depth.trans depth.symm
  body := by
    have length := spares.depth
    have body := spares.body
    unfold Compilation.body at body ⊢
    show (state.enclosing.getLastD draft).Spares _ _
    rcases around : state.enclosing with _ | ⟨outer, rest⟩
    · rw [around] at length
      exact kept length.symm
    · rw [around] at length body
      rcases inside (length ▸ Nat.succ_pos _) with ⟨blocks, fewer⟩
      rw [blocks]
      exact { body with chunk := body.chunk.mono fewer }
  names := spares.names

/-- A change of the code of the present function. -/
theorem withChunk
    (spares : state.Spares site pending)
    {chunk : Chunk}
    (kept :
      ∀ {waiting : PendingJump → Prop},
        state.draft.chunk.Spares waiting → chunk.Spares waiting) :
    Spares site pending { state with draft := { state.draft with chunk } } := by
  apply spares.withDraft rfl fun _ => ⟨rfl, fun _ => id⟩
  intro outside
  have draft := spares.draft outside
  exact { draft with chunk := kept draft.chunk }

/-- The name of an identifier is that of a variable. -/
theorem isVariableName
    (spares : state.Spares site pending)
    {position : Nat}
    {name : String}
    (kind : (state.tokens.getD position default).kind = .identifier name) :
    IsVariableName name := by
  rw [Array.getD_eq_getD_getElem?] at kind
  rcases found : state.tokens[position]? with _ | token
  · rw [found] at kind
    cases kind
  · rw [found] at kind
    exact spares.names token (Array.mem_of_getElem? found) name kind

end Spares

end Compilation

namespace Compiler

/-- A step that keeps what the body of the module spares, if it succeeds. -/
class Spares (site : Enclosure) (later : outParam Enclosure) (pending : List (Nat × PendingJump))
    (step : Compiler α) : Prop where
  keeps :
    ∀ {state after : Compilation} {value : α},
      state.Spares site pending → step state = (.ok value, after) → after.Spares later pending

namespace Spares

variable {site : Enclosure} {pending : List (Nat × PendingJump)}

/-- What a look shows is known when the rest goes on. -/
theorem looking
    {later : Enclosure}
    {view : Compilation → α}
    {next : α → Compiler β}
    (known : α → Prop)
    (shows : ∀ state : Compilation, state.Spares site pending → known (view state))
    (rest : ∀ value, known value → Spares site later pending (next value)) :
    Spares site later pending (Compiler.look view >>= next) := by
  constructor
  intro state after value spares succeeds
  exact (rest _ (shows state spares)).keeps spares succeeds

theorem andThen
    {between later : Enclosure}
    {step : Compiler α}
    {next : α → Compiler β}
    (start : Spares site between pending step)
    (rest : ∀ value, Spares between later pending (next value)) :
    Spares site later pending (step >>= next) := by
  constructor
  intro state after value spares succeeds
  rcases exists_of_bind_ok succeeds with ⟨result, between, first, second⟩
  exact (rest result).keeps (start.keeps spares first) second

instance bind
    {between later : Enclosure}
    {step : Compiler α}
    {next : α → Compiler β}
    [start : Spares site between pending step]
    [rest : ∀ value, Spares between later pending (next value)] :
    Spares site later pending (step >>= next) :=
  andThen start rest

instance pure (value : α) : Spares site site pending (pure value : Compiler α) := by
  constructor
  rintro state _ _ spares ⟨⟩
  exact spares

instance choice
    {later : Enclosure}
    {condition : Prop}
    [Decidable condition]
    {step next : Compiler α}
    [chosen : Spares site later pending step]
    [otherwise : Spares site later pending next] :
    Spares site later pending (if condition then step else next) := by
  split
  · exact chosen
  · exact otherwise

/-- A step that fails keeps everything, so it can stand anywhere. -/
theorem of_failure
    {later : Enclosure}
    {step : Compiler α}
    (fails : ∀ state, ∃ error after, step state = (.error error, after)) :
    Spares site later pending step := by
  constructor
  intro state after value _ succeeds
  rcases fails state with ⟨error, stopped, same⟩
  rw [same] at succeeds
  cases succeeds

instance fail (problem : CompileProblem) :
    Spares site site pending (fail problem : Compiler α) :=
  of_failure fun _ => ⟨_, _, rfl⟩

instance failAtCurrent (problem : CompileProblem) :
    Spares site site pending (failAtCurrent problem : Compiler α) :=
  of_failure fun _ => ⟨_, _, rfl⟩

/-! ## Tokens -/

instance look (view : Compilation → α) : Spares site site pending (look view) := by
  constructor
  rintro state _ _ spares ⟨⟩
  exact spares

instance advance : Spares site site pending advance := by
  constructor
  rintro state _ _ spares ⟨⟩
  rw [Compilation.advance_eq]
  exact ⟨spares.depth, spares.body, spares.names⟩

instance atMark (mark : Punctuation) : Spares site site pending (atMark mark) :=
  look _

instance atEnd : Spares site site pending atEnd :=
  look _

instance matchKind (test : TokenKind → Bool) : Spares site site pending (matchKind test) := by
  unfold Compiler.matchKind
  infer_instance

instance matchMark (mark : Punctuation) : Spares site site pending (matchMark mark) :=
  matchKind _

instance matchWord (word : Keyword) : Spares site site pending (matchWord word) :=
  matchKind _

instance consume (mark : Punctuation) (what : String) :
    Spares site site pending (consume mark what) := by
  unfold Compiler.consume
  infer_instance

instance consumeIdentifier (what : String) :
    Spares site site pending (consumeIdentifier what) := by
  unfold Compiler.consumeIdentifier
  refine andThen (look _) fun kind => ?_
  split <;> infer_instance

/-- The identifier is the name of a variable. -/
theorem bindIdentifier
    {later : Enclosure}
    {what : String}
    {next : String → Compiler β}
    (rest : ∀ name, Fact (IsVariableName name) → Spares site later pending (next name)) :
    Spares site later pending (Compiler.consumeIdentifier what >>= next) := by
  constructor
  intro state after value spares succeeds
  rcases exists_of_bind_ok succeeds with ⟨name, between, first, second⟩
  have isVariable : IsVariableName name := by
    unfold Compiler.consumeIdentifier at first
    rcases exists_of_bind_ok first with ⟨kind, looked, isKind, read⟩
    have same : state.current.kind = kind := by
      cases isKind
      rfl
    cases kind with
    | identifier other =>
        cases read
        exact spares.isVariableName same
    | _ => cases read
  exact (rest name ⟨isVariable⟩).keeps ((consumeIdentifier what).keeps spares first) second

instance repeatAtMost
    {round : α → Compiler (Bool × α)}
    [∀ value, Spares site site pending (round value)]
    (bound : Nat)
    (start : α) :
    Spares site site pending (repeatAtMost round bound start) := by
  induction bound generalizing start with
  | zero => exact pure start
  | succ bound induction =>
      unfold Compiler.repeatAtMost
      infer_instance

instance repeatWhile
    {round : α → Compiler (Bool × α)}
    [∀ value, Spares site site pending (round value)]
    (start : α) :
    Spares site site pending (repeatWhile round start) := by
  constructor
  intro state after value spares succeeds
  exact (repeatAtMost (state.remaining + 1) start).keeps spares succeeds

/-! ## Code -/

/-- A change of the code of the present function that can fail. -/
theorem limitedChunk
    {step : Chunk → Except ChunkLimit α × Chunk}
    (kept :
      ∀ {waiting : PendingJump → Prop} {chunk after : Chunk} {value : α},
        chunk.Spares waiting → step chunk = (.ok value, after) → after.Spares waiting) :
    Spares site site pending (limitedChunk step) := by
  constructor
  intro state after value spares succeeds
  rcases limitedChunk_eq_ok succeeds with ⟨chunk, outcome, rfl⟩
  exact spares.withChunk fun old => kept old outcome

theorem emitOn
    (line : Nat)
    {instruction : Instruction}
    (spared : site.depth = 0 → instruction ≠ .getLocal 0) :
    Spares site site pending (emitOn line instruction) := by
  constructor
  rintro state _ _ spares ⟨⟩
  apply spares.withDraft rfl fun _ => ⟨rfl, fun _ => id⟩
  intro outside
  have draft := spares.draft outside
  exact
    { draft with
      chunk := draft.chunk.append (spared outside) (Chunk.toList_code_emit _ _ _) }

/-- In a nested function any instruction may be written. -/
theorem emitInside
    {instruction : Instruction}
    (spared : site.depth = 0 → instruction ≠ .getLocal 0) :
    Spares site site pending (emit instruction) :=
  andThen (look _) fun line => emitOn line spared

instance emit (instruction : Instruction) [spared : instruction.SparesCallee] :
    Spares site site pending (emit instruction) :=
  emitInside fun _ => spared.other

theorem emitAll
    {instructions : List Instruction}
    (spared : .getLocal 0 ∉ instructions) :
    Spares site site pending (emitAll instructions) := by
  induction instructions with
  | nil => exact pure ()
  | cons instruction rest induction =>
      have first : instruction.SparesCallee :=
        ⟨fun same => spared (List.mem_cons.mpr (.inl same.symm))⟩
      have others := induction fun member => spared (List.mem_cons_of_mem _ member)
      show Spares site site pending (Compiler.emit instruction >>= fun _ => Compiler.emitAll rest)
      infer_instance

instance codeSize : Spares site site pending codeSize :=
  look _

/-- A jump that is appended is pending in what follows. -/
theorem bindJump
    {later : Enclosure}
    (kind : ForwardJump)
    {next : PendingJump → Compiler β}
    (rest : ∀ jump, Spares site later ((site.depth, jump) :: pending) (next jump)) :
    Spares site later pending (emitJump kind.opcode >>= next) := by
  constructor
  intro state after value spares succeeds
  rcases exists_of_bind_ok succeeds with ⟨jump, between, first, second⟩
  cases first
  have opened :
      Compilation.Spares site
        ((site.depth, (state.draft.chunk.emitJump kind.opcode state.previous.line).1) :: pending)
        { state with
          draft :=
            { state.draft with
              chunk := (state.draft.chunk.emitJump kind.opcode state.previous.line).2 } } := by
    apply spares.withDraft rfl
    · intro inside
      refine ⟨rfl, fun other member => ?_⟩
      rcases List.mem_cons.mp member with same | old
      · rw [(Prod.mk.inj same).1] at inside
        exact absurd inside (Nat.lt_irrefl _)
      · exact old
    · intro outside
      have draft := spares.draft outside
      refine { draft with chunk := (draft.chunk.emitJump kind _).mono fun other member => ?_ }
      rcases List.mem_cons.mp member with same | old
      · exact .inl (Prod.mk.inj same).2
      · exact .inr old
  have closed := (rest _).keeps opened second
  have body := closed.body
  exact
    { closed with
      body := { body with chunk := body.chunk.mono fun other => List.mem_cons_of_mem _ } }

instance bindAlways
    {later : Enclosure}
    {next : PendingJump → Compiler β}
    [rest : ∀ jump, Spares site later ((site.depth, jump) :: pending) (next jump)] :
    Spares site later pending (emitJump .jump >>= next) :=
  bindJump .always rest

instance bindIfFalse
    {later : Enclosure}
    {next : PendingJump → Compiler β}
    [rest : ∀ jump, Spares site later ((site.depth, jump) :: pending) (next jump)] :
    Spares site later pending (emitJump .jumpIfFalse >>= next) :=
  bindJump .ifFalse rest

instance patchJump (jump : PendingJump) [waits : Waits (site.depth, jump) pending] :
    Spares site site pending (patchJump jump) := by
  constructor
  intro state after value spares succeeds
  rcases limitedChunk_eq_ok succeeds with ⟨chunk, outcome, rfl⟩
  apply spares.withDraft rfl fun _ => ⟨rfl, fun _ => id⟩
  intro outside
  have draft := spares.draft outside
  have member := waits.member
  rw [outside] at member
  exact { draft with chunk := draft.chunk.patchJump member outcome }

instance emitLoop (start : Nat) : Spares site site pending (emitLoop start) := by
  unfold Compiler.emitLoop
  exact andThen (look _) fun line => limitedChunk fun old looped => old.emitLoop looped

instance constantIndex (value : Value) : Spares site site pending (constantIndex value) := by
  refine limitedChunk fun {_ chunk after _} old added => old.of_code ?_
  rw [← Chunk.code_addConstant chunk (.ofValue value), added]

instance nameIndex (name : String) : Spares site site pending (nameIndex name) := by
  unfold Compiler.nameIndex
  infer_instance

instance emitConstant (value : Value) : Spares site site pending (emitConstant value) := by
  unfold Compiler.emitConstant
  infer_instance

/-- A step that does nothing but change the present function. -/
theorem of_draft
    {later : Enclosure}
    {step : Compiler α}
    (change : Draft → Draft)
    (same : ∀ state, (step state).2 = { state with draft := change state.draft })
    (depth : later.depth = site.depth)
    (inside : 0 < site.depth → later.blocks = site.blocks)
    (kept :
      ∀ {waiting : PendingJump → Prop} {draft : Draft},
        site.depth = 0 → draft.Spares site.blocks waiting →
          (change draft).Spares later.blocks waiting) :
    Spares site later pending step := by
  constructor
  intro state after value spares succeeds
  have changed := same state
  rw [succeeds] at changed
  rw [show after = _ from changed]
  exact spares.withDraft depth (fun isInside => ⟨inside isInside, fun _ => id⟩) fun outside =>
    kept outside (spares.draft outside)

/-- A change of the scope that leaves slot zero where it is. -/
theorem changeScope
    {step : Scope → Scope}
    (depth : ∀ scope, (step scope).depth = scope.depth)
    (kept : ∀ {scope : Scope}, scope.Reserves → (step scope).Reserves) :
    Spares site site pending (changeScope step) := by
  refine of_draft (fun draft => { draft with scope := step draft.scope }) (fun _ => rfl) rfl
    (fun _ => rfl) fun _ spares => ?_
  exact
    { spares with
      blocks := (depth _).trans spares.blocks
      scope := kept spares.scope }

/-- The body of a module is no initialiser. -/
instance emitReturn : Spares site site pending emitReturn := by
  unfold Compiler.emitReturn
  refine looking (fun role => site.depth = 0 → role = .script)
    (fun state spares outside => (spares.draft outside).role) fun role known => ?_
  split
  · rename_i initializes
    have returns : Spares site site pending (Compiler.emit (.getLocal 0)) := by
      refine emitInside fun outside => ?_
      rw [known outside] at initializes
      cases initializes
    exact andThen returns fun _ => inferInstance
  · infer_instance

/-! ## Blocks and functions -/

instance enterBlock : Spares site site.inBlock pending enterBlock := by
  refine of_draft (fun draft => { draft with scope := draft.scope.enter }) (fun _ => rfl)
    site.depth_inBlock (fun inside => congrArg Enclosure.blocks (site.inBlock_of_inside inside)) ?_
  intro waiting draft outside spares
  refine { spares with blocks := ?_, scope := ⟨spares.scope.slotZero, spares.scope.few⟩ }
  rw [site.blocks_inBlock outside, ← spares.blocks]
  rfl

instance leaveBlock : Spares site.inBlock site pending leaveBlock := by
  have leaves :
      Spares site.inBlock site pending
        (fun state =>
          (.ok state.draft.scope.leave.1,
            { state with draft := { state.draft with scope := state.draft.scope.leave.2 } }) :
          Compiler Nat) := by
    refine of_draft (fun draft => { draft with scope := draft.scope.leave.2 }) (fun _ => rfl)
      site.depth_inBlock.symm ?_ ?_
    · intro inside
      rw [site.depth_inBlock] at inside
      rw [site.inBlock_of_inside inside]
    · intro waiting draft outside spares
      rw [site.depth_inBlock] at outside
      have blocks := spares.blocks
      rw [site.blocks_inBlock outside] at blocks
      refine { spares with blocks := ?_, scope := spares.scope.leave (by omega) }
      show draft.scope.depth - 1 = site.blocks
      omega
  unfold Compiler.leaveBlock
  refine andThen leaves fun count => emitAll fun member => ?_
  cases List.eq_of_mem_replicate member

instance beginFunction (name : String) (role : Role) :
    Spares site site.inFunction pending (beginFunction name role) := by
  constructor
  rintro ⟨tokens, position, table, home, draft, enclosing, firstFunction, finished⟩ _ _
    ⟨depth, body, names⟩ ⟨⟩
  refine ⟨congrArg Nat.succ depth, ?_, names⟩
  unfold Compilation.body at body ⊢
  cases enclosing with
  | nil => exact body
  | cons outer rest => exact body

/-- A function ends inside its block, and the one around it goes on. -/
instance finishFunction : Spares site.inFunction.inBlock site pending finishFunction := by
  have same : site.inFunction.inBlock = site.inFunction :=
    site.inFunction.inBlock_of_inside (Nat.succ_pos _)
  rw [same]
  constructor
  rintro ⟨tokens, position, table, home, draft, enclosing, firstFunction, finished⟩ after value
    ⟨depth, body, names⟩ succeeds
  rcases enclosing with _ | ⟨outer, rest⟩
  · cases depth
  · cases succeeds
    refine ⟨Nat.succ.inj depth, ?_, names⟩
    unfold Compilation.body at body ⊢
    cases rest with
    | nil => exact body
    | cons next rest => exact body

/-! ## Names -/

instance atModuleLevel : Spares site site pending atModuleLevel :=
  look _

instance moduleSlot (name : String) : Spares site site pending (moduleSlot name) := by
  unfold Compiler.moduleSlot
  have declares :
      Spares site site pending
        (fun state =>
          (.ok (state.table.declare name).1, { state with table := (state.table.declare name).2 }) :
          Compiler (Option Nat)) := by
    constructor
    rintro state _ _ spares ⟨⟩
    exact ⟨spares.depth, spares.body, spares.names⟩
  refine andThen declares fun slot? => ?_
  split <;> infer_instance

instance checkWritable (slot : Nat) : Spares site site pending (checkWritable slot) := by
  unfold Compiler.checkWritable
  infer_instance

instance declareLocal (name : String) : Spares site site pending (declareLocal name) := by
  constructor
  intro state after value spares succeeds
  unfold Compiler.declareLocal at succeeds
  rw [look_bind] at succeeds
  rcases outcome : state.draft.scope.declare name with problem | scope
  · rw [outcome] at succeeds
    cases succeeds
  · rw [outcome] at succeeds
    cases succeeds
    refine spares.withDraft rfl (fun _ => ⟨rfl, fun _ => id⟩) fun outside => ?_
    have draft := spares.draft outside
    refine { draft with blocks := ?_, scope := draft.scope.declare outcome }
    rw [(Scope.declare_eq_ok outcome).1]
    exact draft.blocks

instance declareVariable (name : String) : Spares site site pending (declareVariable name) := by
  unfold Compiler.declareVariable
  infer_instance

instance defineVariable (binding : Binding) :
    Spares site site pending (defineVariable binding) := by
  cases binding with
  | moduleSlot slot => exact emit _
  | newLocal => exact changeScope Scope.depth_markInitialized Scope.Reserves.markInitialized

instance resolve (name : String) : Spares site site pending (resolve name) := by
  unfold Compiler.resolve
  refine andThen (look _) fun result => ?_
  split <;> infer_instance

/-- What a name of a variable means is read without slot zero. -/
theorem bindReference
    {later : Enclosure}
    {name : String}
    [isVariable : Fact (IsVariableName name)]
    {next : Reference → Compiler β}
    (rest :
      ∀ reference : Reference,
        (site.depth = 0 → reference.read ≠ .getLocal 0) →
          Spares site later pending (next reference)) :
    Spares site later pending (Compiler.resolve name >>= next) := by
  constructor
  intro state after value spares succeeds
  rcases exists_of_bind_ok succeeds with ⟨reference, between, resolved, second⟩
  refine (rest reference fun outside => ?_).keeps ((resolve name).keeps spares resolved) second
  unfold Compiler.resolve at resolved
  rw [look_bind] at resolved
  rcases outcome : state.draft.scope.resolve name with problem | (_ | slot) <;>
    simp only [outcome] at resolved
  · cases resolved
  · rw [look_bind] at resolved
    split at resolved
    · cases resolved
    · rcases exists_of_bind_ok resolved with ⟨slot, found, -, same⟩
      cases same
      exact nofun
  · cases resolved
    have reserves := (spares.draft outside).scope
    intro readsZero
    exact reserves.resolve isVariable.out outcome (Instruction.getLocal.inj readsZero)

instance referenceCheckWritable (reference : Reference) :
    Spares site site pending reference.checkWritable := by
  cases reference with
  | moduleSlot slot => exact checkWritable slot
  | localSlot slot => exact pure ()

/-! ## Expressions -/

section Expressions

variable
  {operand : OperandCompiler}
  [∀ site pending least, Spares site site pending (operand least)]

instance whole : Spares site site pending (whole operand) := by
  unfold Compiler.whole
  infer_instance

instance commaSeparated
    {afterEach : Nat → Compiler Unit}
    [∀ count, Spares site site pending (afterEach count)] :
    Spares site site pending (commaSeparated operand afterEach) := by
  unfold Compiler.commaSeparated
  infer_instance

instance argumentList : Spares site site pending (argumentList operand) := by
  unfold Compiler.argumentList
  infer_instance

instance grouping : Spares site site pending (grouping operand) := by
  unfold Compiler.grouping
  infer_instance

instance arrayLiteral : Spares site site pending (arrayLiteral operand) := by
  unfold Compiler.arrayLiteral
  infer_instance

instance namedVariable (name : String) [Fact (IsVariableName name)] (canAssign : Bool) :
    Spares site site pending (namedVariable operand name canAssign) := by
  unfold Compiler.namedVariable
  refine bindReference fun reference spared => ?_
  have reads : Spares site site pending (Compiler.emit reference.read) := emitInside spared
  infer_instance

/-- The body of a module has no receiver. -/
instance receiver : Spares site site pending receiver := by
  unfold Compiler.receiver
  refine looking (fun hasReceiver => site.depth = 0 → hasReceiver = false) ?_ fun given known => ?_
  · intro state spares outside
    rw [(spares.draft outside).role]
    rfl
  · split
    · rename_i hasReceiver
      refine emitInside fun outside => ?_
      rw [known outside] at hasReceiver
      cases hasReceiver
    · infer_instance

/-- A form that names a variable, if it names anything. -/
def Ordinary : LeadingForm → Prop
  | .named name => IsVariableName name
  | .literal instruction => instruction.SparesCallee
  | _ => True

theorem leadingForm
    (canAssign : Bool)
    {form : LeadingForm}
    (ordinary : Ordinary form) :
    Spares site site pending (leadingForm operand canAssign form) := by
  cases form with
  | named name =>
      have isVariable : Fact (IsVariableName name) := ⟨ordinary⟩
      exact namedVariable name canAssign
  | literal instruction =>
      have spared : instruction.SparesCallee := ordinary
      exact emit instruction
  | _ =>
      unfold Compiler.leadingForm
      infer_instance

instance conjunction : Spares site site pending (conjunction operand) := by
  unfold Compiler.conjunction
  infer_instance

instance disjunction : Spares site site pending (disjunction operand) := by
  unfold Compiler.disjunction
  infer_instance

instance property (canAssign : Bool) : Spares site site pending (property operand canAssign) := by
  unfold Compiler.property
  infer_instance

instance subscript (canAssign : Bool) : Spares site site pending (subscript operand canAssign) := by
  unfold Compiler.subscript
  infer_instance

instance trailingForm (canAssign : Bool) (form : TrailingForm) :
    Spares site site pending (trailingForm operand canAssign form) := by
  cases form with
  | binary operator =>
      have writes : Spares site site pending (Compiler.emitAll operator.instructions) :=
        emitAll (by cases operator <;> decide)
      unfold Compiler.trailingForm
      infer_instance
  | _ =>
      unfold Compiler.trailingForm
      infer_instance

instance trailingRound (canAssign : Bool) (least : Precedence) :
    Spares site site pending
      (do
        match ← Compiler.nextTrailing? least with
        | none => return (false, ())
        | some form =>
          Compiler.advance
          Compiler.trailingForm operand canAssign form
          return (true, ())) := by
  refine andThen (look _) fun form? => ?_
  split <;> infer_instance

theorem ordinary_of_leading
    {state : Compilation}
    (spares : state.Spares site pending)
    {form : LeadingForm}
    (leads : state.previous.kind.leading? = some form) :
    Ordinary form := by
  cases form with
  | named name =>
      have kind : state.previous.kind = .identifier name := by
        unfold TokenKind.leading? at leads
        split at leads <;> cases leads
        rename_i kind
        exact kind
      exact spares.isVariableName kind
  | literal instruction =>
      unfold TokenKind.leading? at leads
      split at leads <;> cases leads <;> exact ⟨nofun⟩
  | _ => trivial

instance operators (least : Precedence) : Spares site site pending (operators operand least) := by
  unfold Compiler.operators
  refine andThen inferInstance fun _ => ?_
  refine looking (fun form? => ∀ form, form? = some form → Ordinary form)
    (fun state spares form leads => ordinary_of_leading spares leads) fun form? known => ?_
  split
  · infer_instance
  · rename_i form
    refine andThen (leadingForm _ (known form rfl)) fun _ => inferInstance

end Expressions

/-- Whatever operands are nested in an expression, the body spares its slot zero. -/
instance expressionWithin (levels : Nat) (least : Precedence) :
    Spares site site pending (expressionWithin levels least) := by
  induction levels generalizing site pending least with
  | zero => exact failAtCurrent _
  | succ levels induction =>
      have inside :
          ∀ site pending least, Spares site site pending (Compiler.expressionWithin levels least) :=
        fun site pending least => induction least
      exact operators least

/-! ## Statements and declarations -/

section Statements

variable
  {inner : Inner}
  [∀ site pending least, Spares site site pending (inner.operand least)]
  [∀ site pending form, Spares site site pending (inner.code form)]

instance expression : Spares site site pending inner.expression :=
  whole

instance statement : Spares site site pending inner.statement := by
  unfold Inner.statement
  infer_instance

instance block : Spares site site pending inner.block := by
  unfold Inner.block
  infer_instance

instance parameter : Spares site site pending Inner.parameter := by
  have counts :
      Spares site site pending
        (Compiler.change fun state =>
          { state with draft := { state.draft with arity := state.draft.arity + 1 } }) :=
    of_draft (fun draft => { draft with arity := draft.arity + 1 })
      (fun _ => rfl) rfl (fun _ => rfl)
      fun _ spares => ⟨spares.role, spares.blocks, spares.scope, spares.chunk⟩
  have initializes : Spares site site pending (Compiler.changeScope Scope.markInitialized) :=
    changeScope Scope.depth_markInitialized Scope.Reserves.markInitialized
  unfold Inner.parameter
  infer_instance

instance function (name : String) (role : Role) :
    Spares site site pending (inner.function name role) := by
  unfold Inner.function
  infer_instance

instance method : Spares site site pending inner.method := by
  unfold Inner.method
  infer_instance

instance classDeclaration : Spares site site pending inner.classDeclaration := by
  unfold Inner.classDeclaration
  exact bindIdentifier fun name isVariable => inferInstance

instance functionDeclaration : Spares site site pending inner.functionDeclaration := by
  unfold Inner.functionDeclaration
  infer_instance

instance variableDeclaration : Spares site site pending inner.variableDeclaration := by
  unfold Inner.variableDeclaration
  infer_instance

instance importedVariable (moduleIndex : UInt16) :
    Spares site site pending (Inner.importedVariable moduleIndex) := by
  unfold Inner.importedVariable
  infer_instance

instance importDeclaration : Spares site site pending Inner.importDeclaration := by
  unfold Inner.importDeclaration
  refine andThen (look _) fun kind => ?_
  split <;> infer_instance

instance printStatement : Spares site site pending inner.printStatement := by
  unfold Inner.printStatement
  infer_instance

instance expressionStatement : Spares site site pending inner.expressionStatement := by
  unfold Inner.expressionStatement
  infer_instance

instance ifStatement : Spares site site pending inner.ifStatement := by
  unfold Inner.ifStatement
  infer_instance

instance whileStatement : Spares site site pending inner.whileStatement := by
  unfold Inner.whileStatement
  infer_instance

instance forInitializer : Spares site site pending inner.forInitializer := by
  unfold Inner.forInitializer
  infer_instance

omit [∀ site pending form, Spares site site pending (inner.code form)] in
/-- The jump out of a loop, if there is one, is pending in what follows. -/
theorem bindCondition
    {later : Enclosure}
    {next : Option PendingJump → Compiler β}
    (forever : Spares site later pending (next none))
    (leaving : ∀ jump, Spares site later ((site.depth, jump) :: pending) (next (some jump))) :
    Spares site later pending (inner.forCondition >>= next) := by
  unfold Inner.forCondition
  rw [bind_assoc]
  refine andThen inferInstance fun found => ?_
  split
  · rw [pure_bind]
    exact forever
  · simp only [bind_assoc, pure_bind]
    infer_instance

instance forIncrement (start : Nat) : Spares site site pending (inner.forIncrement start) := by
  unfold Inner.forIncrement
  infer_instance

instance forStatement : Spares site site pending inner.forStatement := by
  unfold Inner.forStatement
  refine andThen inferInstance fun _ => andThen inferInstance fun _ =>
    andThen inferInstance fun _ => andThen inferInstance fun start => ?_
  refine bindCondition ?_ fun jump => ?_
  · infer_instance
  · infer_instance

instance returnStatement : Spares site site pending inner.returnStatement := by
  unfold Inner.returnStatement
  infer_instance

instance statementBody : Spares site site pending inner.statementBody := by
  unfold Inner.statementBody
  infer_instance

instance declarationBody : Spares site site pending inner.declarationBody := by
  unfold Inner.declarationBody
  infer_instance

instance body (form : CodeForm) : Spares site site pending (inner.body form) := by
  cases form with
  | declaration => exact declarationBody
  | statement => exact statementBody

end Statements

/-- The same holds of statements and declarations. -/
instance codeWithin (levels : Nat) (form : CodeForm) :
    Spares site site pending (codeWithin levels form) := by
  induction levels generalizing site pending form with
  | zero => exact failAtCurrent _
  | succ levels induction =>
      have inside :
          ∀ site pending form, Spares site site pending (Compiler.codeWithin levels form) :=
        fun site pending form => induction form
      exact body form

/-! ## Texts -/

instance evaluatedStatement (levels : Nat) :
    Spares site site pending (evaluatedStatement levels) := by
  unfold Compiler.evaluatedStatement
  infer_instance

instance topLevel (levels : Nat) (mode : CompileMode) (before : Option Nat) :
    Spares site site pending (topLevel levels mode before) := by
  have pops : ∀ line, Spares site site pending (Compiler.emitOn line .pop) :=
    fun line => emitOn line fun _ => nofun
  unfold Compiler.topLevel Compiler.atExpressionStatement
  cases before <;> infer_instance

end Spares

/-- The body of a text spares its slot zero. -/
theorem script_spares
    {levels : Nat}
    {mode : CompileMode}
    {state after : Compilation}
    {result : Unit}
    (spares : state.Spares .outermost [])
    (success : script levels mode state = (.ok result, after)) :
    ∃ body,
      after.finished.back? = some body ∧ body.chunk.Spares fun _ => False := by
  have finishes :
      ∀ {ended final : Compilation} {given : Unit},
        ended.Spares .outermost [] →
        (do
          let _ ← finishFunction : Compiler Unit) ended = (.ok given, final) →
          ∃ body, final.finished.back? = some body ∧ body.chunk.Spares fun _ => False := by
    intro ended final given kept finished
    have body := kept.draft rfl
    rw [finish_of_outermost (List.length_eq_zero_iff.mp kept.depth)] at finished
    cases finished
    exact ⟨_, Array.back?_push, body.chunk.mono fun _ => nofun⟩
  unfold script at success
  rcases exists_of_bind_ok success with ⟨pending, read, reads, rest⟩
  have kept := (Spares.repeatWhile none).keeps spares reads
  split at rest
  · rcases exists_of_bind_ok rest with ⟨_, ended, leaves, finished⟩
    exact finishes ((Spares.emit .leave).keeps kept leaves) finished
  · rcases exists_of_bind_ok rest with ⟨_, ended, returns, finished⟩
    exact finishes (Spares.emitReturn.keeps kept returns) finished

end Compiler

/-- No instruction of the body of a module reads slot zero. -/
theorem sparesCallee_of_compile
    {mode : CompileMode}
    {source : String}
    {table : Module}
    {home firstFunction : Nat}
    {functions : Array Function}
    (success : (compile mode source table home firstFunction).functions = .ok functions) :
    ∃ body instructions,
      functions.back? = some body ∧
        body.chunk.code.toList = Instruction.encode instructions ∧
        .getLocal 0 ∉ instructions := by
  unfold compile at success
  rcases scanned : Token.scan source with error | tokens
  · simp only [scanned] at success
    cases success
  · simp only [scanned] at success
    have begins : (Compiler.start tokens table home firstFunction).Spares .outermost [] := by
      refine ⟨rfl, ⟨rfl, rfl, .blank, Chunk.Spares.blank.mono fun _ => nofun⟩, ?_⟩
      exact Token.isVariableName_of_scanFrom (by simp) scanned
    unfold Compiler.compileTokens at success
    rcases outcome : Compiler.script Compiler.maxNesting mode
      (Compiler.start tokens table home firstFunction) with ⟨error | _, final⟩
    · simp only [outcome] at success
      cases success
    · simp only [outcome] at success
      cases success
      rcases Compiler.script_spares begins outcome with ⟨body, last, instructions, code, absent, -⟩
      exact ⟨body, instructions, last, code, absent⟩

end ScriptEngine
