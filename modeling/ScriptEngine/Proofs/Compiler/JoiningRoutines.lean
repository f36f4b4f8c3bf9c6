import ScriptEngine.Proofs.Compiler.Joining

/-!
# Every routine of the compiler writes pieces

The routines that write jumps, begin functions, return or attach methods have the effect
`Compiler.Joins` as all others do (`Joins.structured`).  It follows that in the functions of a
text initialisers return their receivers, and that only initialisers are attached as such
(`attachesInitializers_of_compile`).
-/

set_option synthInstance.maxSize 100000

namespace ScriptEngine

open Instruction Piece Chunk

/-! ## Drafts -/

namespace Draft.LaidOut

variable
  {yields : Nat → Prop}
  {draft : Draft}
  {pieces : List Piece}
  {waiting : List PendingJump}

/-- A constant that is added stands in the pool. -/
theorem addConstant
    {chunk : Chunk}
    (laidOut : draft.LaidOut yields pieces waiting)
    {value : Value}
    {position : Nat}
    (added : draft.chunk.addConstant (.ofValue value) = (.ok position, chunk)) :
    LaidOut yields { draft with chunk } pieces waiting ∧
      ConstantsGrow draft.chunk.constants chunk.constants ∧
      chunk.constants[position]? = some value ∧
      position < maxConstants := by
  have adds := addConstant_adds laidOut.remembers added
  have code := (same_addConstant draft.chunk (.ofValue value)).1
  rw [added] at code
  have grows : ConstantsGrow draft.chunk.constants chunk.constants := by
    intro place other found
    rw [← Array.getElem?_toList] at found ⊢
    rcases adds.grows with ⟨more, split⟩
    rw [← split, List.getElem?_append_left (List.getElem?_eq_some_iff.mp found).1, found]
  refine ⟨⟨adds.remembers, laidOut.laid.of_code code, ?_⟩, grows, adds.found, adds.lt_max⟩
  exact fun piece member => (laidOut.fits piece member).mono grows fun _ => id

end Draft.LaidOut

theorem Draft.laidOut_blank (yields : Nat → Prop) (name : Option String) (role : Role) :
    (Draft.blank name role).LaidOut yields [] [] where
  remembers := remembers_empty
  laid := laid_blank
  fits := nofun

/-- Instructions that stand alone are no jumps. -/
theorem Instruction.StandsAlone.straight
    {instruction : Instruction}
    (standsAlone : instruction.StandsAlone)
    (offset : Nat) :
    instruction.landings offset = [] := by
  have alone := standsAlone.alone
  cases instruction with
  | jump | jumpIfFalse | loop => cases alone
  | _ => rfl

namespace Compiler

open Compilation

namespace Joins

/-! ## Single instructions -/

/-- An instruction that stands alone is appended. -/
theorem emitted_alone
    (state : Compilation)
    (instruction : Instruction)
    (line : Nat)
    (standsAlone : instruction.StandsAlone) :
    Progresses state (state.withChunk (state.draft.chunk.emit instruction line)) [] [] := by
  have alone := standsAlone.alone
  refine emitted state instruction line ?_ (fun index => ?_) standsAlone.straight
  · rintro rfl
    cases alone
  · rintro rfl
    cases alone

/-- A return behind any value is a piece of its own, unless the function is an initialiser. -/
theorem emitted_leave
    (state : Compilation)
    (line : Nat)
    (other : state.draft.role ≠ .initializer) :
    Progresses state (state.withChunk (state.draft.chunk.emit .leave line)) [] [] := by
  refine .of_piece (pool_emit _ _ _) _ (.leaves other) ?_ ?_
  · rintro instruction member
    rcases List.mem_singleton.mp member with rfl
    exact fun _ => rfl
  · simp [Piece.instructions]

/-- An initialiser returns its receiver. -/
theorem emitted_return (state : Compilation) :
    Progresses state (emitReturn state).2 [] [] := by
  have outcome :
      (emitReturn state).2 =
        state.withChunk
          ((state.draft.chunk.emit (returnedDefault state.draft.role) state.previous.line).emit
            .leave state.previous.line) := by
    rw [emitReturn_eq]
    rfl
  rw [outcome, returnedDefault]
  by_cases isInitializer : state.draft.role = .initializer
  · rw [if_pos isInitializer]
    refine .of_piece (by simp) _ .yieldsReceiver ?_ ?_
    · intro instruction member
      rcases List.mem_cons.mp member with rfl | isLeave
      · exact fun _ => rfl
      · rcases List.mem_singleton.mp isLeave with rfl
        exact fun _ => rfl
    · simp [Piece.instructions]
  · rw [if_neg isInitializer]
    have first := emitted_alone state .pushNull state.previous.line inferInstance
    exact first.andThen (emitted_leave _ state.previous.line isInitializer)

instance sequential : Joins.Sequential where
  nothing state _ := nothing state
  andThen first second none := (first rfl).andThen (second none)
  advance state _ := by
    apply Progresses.of_same <;> · rw [Compilation.advance]; split <;> rfl
  stop _ _ _ := nofun
  emit state instruction alone _ := emitted_alone state instruction state.previous.line alone
  emitReturn state _ := emitted_return state
  constant state value _ := by
    refine .of_laid rfl rfl rfl rfl fun pieces waiting laidOut => ⟨[], ?_⟩
    rw [List.append_nil]
    rcases added : state.draft.chunk.addConstant (.ofValue value) with ⟨limit | position, chunk⟩
    · have same : chunk = state.draft.chunk := by
        unfold addConstant at added
        split at added
        · cases added
        · simp only at added
          split at added <;> cases added
          rfl
      rw [same]
      exact laidOut
    · exact (laidOut.addConstant added).1
  redraft _ _ sameChunk sameRole _ := .of_same rfl sameRole rfl rfl sameChunk
  declare _ _ _ := .of_same rfl rfl rfl rfl rfl

instance emitOn
    (line : Nat)
    (instruction : Instruction)
    [standsAlone : instruction.StandsAlone] :
    Has Joins (emitOn line instruction) :=
  ⟨fun state _ => emitted_alone state instruction line standsAlone⟩

/-! ## Operators with jumps -/

section Jumps

variable {before between after : Compilation} {cuts : List Nat} {result : Unit}

/-- The only jump that is open is closed. -/
theorem closeOnly
    {jump : PendingJump}
    (progresses : Progresses before between [jump] cuts)
    (closes : patchJump jump between = (.ok result, after)) :
    Progresses before after [] cuts :=
  progresses.closeJump List.mem_cons_self
    (fun _ member => .inl (List.mem_singleton.mp member)) (List.forall_mem_nil _) closes

/-- Of two jumps that are open, the first one is closed. -/
theorem closeOuter
    {first second : PendingJump}
    (progresses : Progresses before between [second, first] cuts)
    (closes : patchJump first between = (.ok result, after)) :
    Progresses before after [second] cuts := by
  refine progresses.closeJump (List.mem_cons_of_mem _ List.mem_cons_self) ?_ ?_ closes
  · intro other member
    rcases List.mem_cons.mp member with rfl | isOther
    · exact .inr List.mem_cons_self
    · exact .inl (List.mem_singleton.mp isOther)
  · intro other member
    rcases List.mem_singleton.mp member with rfl
    exact List.mem_cons_self

end Jumps

section Operands

variable {operand : OperandCompiler} [operands : ∀ least, Has Joins (operand least)]

instance conjunction : Has Joins (conjunction operand) := by
  refine of_ok fun {state after _} succeeds => ?_
  unfold Compiler.conjunction at succeeds
  rcases exists_of_bind_ok succeeds with ⟨skip, _, opens, succeeds⟩
  rcases exists_of_bind_ok succeeds with ⟨_, _, pops, succeeds⟩
  rcases exists_of_bind_ok succeeds with ⟨_, _, compiles, closes⟩
  exact closeOnly
    ((((nothing state).openJump .ifFalse opens).andThen (progresses pops)).andThen
      (progresses compiles)) closes

instance disjunction : Has Joins (disjunction operand) := by
  refine of_ok fun {state after _} succeeds => ?_
  unfold Compiler.disjunction at succeeds
  rcases exists_of_bind_ok succeeds with ⟨otherwise, _, opensFirst, succeeds⟩
  rcases exists_of_bind_ok succeeds with ⟨skip, _, opensSecond, succeeds⟩
  rcases exists_of_bind_ok succeeds with ⟨_, _, closesFirst, succeeds⟩
  rcases exists_of_bind_ok succeeds with ⟨_, _, pops, succeeds⟩
  rcases exists_of_bind_ok succeeds with ⟨_, _, compiles, closesSecond⟩
  have opened := ((nothing state).openJump .ifFalse opensFirst).openJump .always opensSecond
  exact closeOnly
    (((closeOuter opened closesFirst).andThen (progresses pops)).andThen (progresses compiles))
    closesSecond

end Operands

/-! ## Functions and methods -/

/-- A function begins with a blank draft, and the one around it goes on with its own. -/
theorem nested
    (name : String)
    {role : Role}
    (code : Compiler Unit)
    [joins : Has Joins code]
    {state after : Compilation}
    {id : Nat}
    (succeeds :
      (do
        beginFunction name role
        code
        finishFunction) state = (.ok id, after)) :
    Progresses state after [] [] ∧
      after.draft = state.draft ∧ (role = .initializer → after.Yields id) := by
  rcases exists_of_bind_ok succeeds with ⟨_, begun, begins, succeeds⟩
  rcases exists_of_bind_ok succeeds with ⟨_, written, writes, finishes⟩
  cases begins
  have kept := progresses writes
  have around : written.enclosing = state.draft :: state.enclosing := kept.enclosing
  unfold Compiler.finishFunction at finishes
  simp only [around] at finishes
  cases finishes
  have isBlank := Draft.laidOut_blank state.Yields (some name) role
  rcases kept.laid [] [] isBlank with ⟨pieces, laidOut, -⟩
  rw [List.nil_append] at laidOut
  generalize isFunction :
    ({ name := written.draft.name, arity := written.draft.arity, chunk := written.draft.chunk,
        home := written.home } : Function) = function
  have sameChunk : function.chunk = written.draft.chunk := by
    rw [← isFunction]
  have sameRole : written.draft.role = role := kept.role
  have earlier :
      ∀ (place : Nat) (other : Function),
        written.finished[place]? = some other →
          (written.finished.push function)[place]? = some other := by
    intro place other found
    have inside := (Array.getElem?_eq_some_iff.mp found).1
    rw [Array.getElem?_push, if_neg (Nat.ne_of_lt inside), found]
  have known :
      ∀ id, written.Yields id →
        Compilation.Yields
          { written with
            draft := state.draft
            enclosing := state.enclosing
            finished := written.finished.push function } id := by
    rintro id ⟨place, other, rfl, found, yields⟩
    exact ⟨place, other, rfl, earlier place other found, yields⟩
  have laid : function.chunk.Laid pieces [] := by
    rw [sameChunk]
    exact laidOut.laid
  have fits :
      ∀ piece ∈ pieces, piece.Fits role function.chunk.constants written.Yields := by
    rw [sameChunk, ← sameRole]
    exact laidOut.fits
  refine ⟨⟨rfl, rfl, kept.first, ?_, ?_, ?_⟩, rfl, ?_⟩
  · exact fun place other found => earlier place other (kept.finished place other found)
  · intro others waiting outer
    refine ⟨[], ?_, List.forall_mem_nil _, List.forall_mem_nil _⟩
    rw [List.append_nil]
    exact outer.mono fun id yields => known id (kept.yields id yields)
  · intro attaches other member
    rcases Array.mem_push.mp member with old | rfl
    · exact (kept.attaches attaches other old).mono known
    · exact laid.attachesInitializers fun piece member =>
        (fits piece member).mono (fun _ _ => id) known
  · rintro rfl
    exact ⟨written.finished.size, function, rfl, Array.getElem?_push_size, laid.yieldsReceiver fits⟩

section Statements

variable
  {inner : Inner}
  [operands : ∀ least, Has Joins (inner.operand least)]
  [code : ∀ form, Has Joins (inner.code form)]

omit operands in
instance functionCode : Has Joins (Records.functionCode inner) := by
  unfold Records.functionCode
  infer_instance

omit operands in
/-- The parts of a function that is compiled and pushed. -/
theorem exists_of_function
    {name : String}
    {role : Role}
    {state after : Compilation}
    {result : Unit}
    (succeeds : inner.function name role state = (.ok result, after)) :
    ∃ id between,
      (Progresses state between [] [] ∧
          between.draft = state.draft ∧ (role = .initializer → between.Yields id)) ∧
        emitConstant (.function id) between = (.ok result, after) := by
  rw [Records.function_eq] at succeeds
  rcases exists_of_bind_ok succeeds with ⟨_, begun, begins, succeeds⟩
  rcases exists_of_bind_ok succeeds with ⟨_, written, writes, succeeds⟩
  rcases exists_of_bind_ok succeeds with ⟨id, between, finishes, pushes⟩
  refine ⟨id, between, nested name (Records.functionCode inner) ?_, pushes⟩
  rw [bind_of_ok begins, bind_of_ok writes, finishes]

omit operands in
instance function (name : String) (role : Role) : Has Joins (inner.function name role) := by
  refine of_ok fun succeeds => ?_
  rcases exists_of_function succeeds with ⟨id, between, ⟨compiled, -⟩, pushes⟩
  exact compiled.andThen (progresses pushes)

/-- The position of a constant, found again as the operand of an instruction. -/
theorem toNat_of_lt_maxConstants {position : Nat} (room : position < maxConstants) :
    (UInt16.ofNat position).toNat = position := by
  rw [UInt16.toNat_ofNat']
  exact Nat.mod_eq_of_lt room

omit operands code in
/-- The instruction that pushes a constant is appended when the constant has been added. -/
theorem exists_of_emitConstant
    {value : Value}
    {state after : Compilation}
    {result : Unit}
    (succeeds : emitConstant value state = (.ok result, after)) :
    ∃ position chunk instruction,
      state.draft.chunk.addConstant (.ofValue value) = (.ok position, chunk) ∧
        after = (state.withChunk chunk).withChunk (chunk.emit instruction state.previous.line) ∧
        ∀ constants : Array Value,
          constants[position]? = some value →
          position < maxConstants →
            instruction.Pushes constants value := by
  unfold emitConstant constantIndex at succeeds
  rcases exists_of_bind_ok succeeds with ⟨position, _, changes, emits⟩
  rcases limitedChunk_eq_ok changes with ⟨chunk, adds, rfl⟩
  split at emits
  · rename_i short
    cases emits
    refine ⟨position, chunk, _, adds, rfl, fun constants found _ => .constant ?_⟩
    rw [UInt8.toNat_ofNat', Nat.mod_eq_of_lt short]
    exact found
  · cases emits
    refine ⟨position, chunk, _, adds, rfl, fun constants found room => .constantLong ?_⟩
    rw [toNat_of_lt_maxConstants room]
    exact found

omit operands in
/-- A function is pushed and attached. -/
theorem attaches
    {name : String}
    {index : UInt16}
    {state named pushed : Compilation}
    {result : Unit}
    (names : nameIndex name state = (.ok index, named))
    (compiles :
      inner.function name (Inner.methodRole false name) named = (.ok result, pushed)) :
    Progresses state
      (pushed.withChunk (pushed.draft.chunk.emit (.method index) pushed.previous.line)) [] [] := by
  unfold nameIndex constantIndex at names
  rcases exists_of_bind_ok names with ⟨place, _, changes, given⟩
  rcases limitedChunk_eq_ok changes with ⟨withName, adds, rfl⟩
  cases given
  rcases exists_of_function compiles with ⟨id, between, ⟨compiled, sameDraft, yields⟩, pushes⟩
  rcases exists_of_emitConstant pushes with
    ⟨position, chunk, instruction, addsFunction, rfl, isPush⟩
  refine ⟨compiled.enclosing, ?_, compiled.first, compiled.finished, ?_, compiled.attaches⟩
  · show between.draft.role = state.draft.role
    rw [sameDraft]
    rfl
  · intro pieces waiting laidOut
    rcases laidOut.addConstant adds with ⟨namedOut, -, nameFound, room⟩
    have inside : between.draft.LaidOut between.Yields pieces waiting := by
      rw [sameDraft]
      exact namedOut.mono compiled.yields
    rcases inside.addConstant addsFunction with ⟨functionOut, grows, functionFound, functionRoom⟩
    have stillNamed : chunk.constants[place]? = some (.string name) := by
      apply grows
      rw [sameDraft]
      exact nameFound
    refine ⟨[{ first := instruction, rest := [.method (UInt16.ofNat place)] }], ?_,
      List.forall_mem_nil _, List.forall_mem_nil _⟩
    have push := isPush chunk.constants functionFound functionRoom
    have straight : ∀ offset, instruction.landings offset = [] := by
      cases push <;> exact fun _ => rfl
    have attached : Piece.Fits between.draft.role chunk.constants between.Yields
        { first := instruction, rest := [.method (UInt16.ofNat place)] } := by
      refine .attaches push ⟨name, ?_, ?_⟩
      · rw [toNat_of_lt_maxConstants room]
        exact stillNamed
      · rintro rfl
        exact yields rfl
    have written :=
      functionOut.write
        ((chunk.emit instruction between.previous.line).emit (.method (UInt16.ofNat place))
          between.previous.line)
        (by simp) _ attached
        (fun other member => by
          rcases List.mem_cons.mp member with rfl | isMethod
          · exact straight
          · rcases List.mem_singleton.mp isMethod with rfl
            exact fun _ => rfl)
        (by simp [Piece.instructions])
    exact written

instance method : Has Joins inner.method := by
  refine of_ok fun {state after _} succeeds => ?_
  unfold Inner.method at succeeds
  rcases exists_of_bind_ok succeeds with ⟨isStatic, _, looks, succeeds⟩
  rcases exists_of_bind_ok succeeds with ⟨name, _, reads, succeeds⟩
  rcases exists_of_bind_ok succeeds with ⟨index, _, names, succeeds⟩
  rcases exists_of_bind_ok succeeds with ⟨_, _, compiles, emits⟩
  have before := (progresses looks).andThen (progresses reads)
  cases isStatic with
  | false =>
      cases emits
      exact before.andThen (attaches names compiles)
  | true =>
      have standsAlone : Instruction.StandsAlone (.staticMethod index) := ⟨rfl⟩
      have written := (before.andThen (progresses names)).andThen (progresses compiles)
      have ends : emit (.staticMethod index) _ = (.ok _, _) := emits
      exact written.andThen (progresses ends)

/-! ## Statements -/

omit code in
instance returnStatement : Has Joins inner.returnStatement := by
  refine of_ok fun {state after _} succeeds => ?_
  unfold Inner.returnStatement at succeeds
  rcases exists_of_bind_ok succeeds with ⟨isBare, matched, looks, succeeds⟩
  have before := progresses looks
  split at succeeds
  · exact before.andThen (progresses succeeds)
  · rcases exists_of_bind_ok succeeds with ⟨_, _, isRole, rest⟩
    cases isRole
    split at rest
    · cases rest
    · rename_i other
      rcases exists_of_bind_ok rest with ⟨_, _, compiles, rest⟩
      rcases exists_of_bind_ok rest with ⟨_, read, consumes, emits⟩
      have written := (progresses compiles).andThen (progresses consumes)
      cases emits
      refine (before.andThen written).andThen (emitted_leave read read.previous.line ?_)
      rw [written.role]
      exact other

instance ifStatement : Has Joins inner.ifStatement := by
  refine of_ok fun {state after _} succeeds => ?_
  unfold Inner.ifStatement at succeeds
  rcases exists_of_bind_ok succeeds with ⟨_, _, opensBracket, succeeds⟩
  rcases exists_of_bind_ok succeeds with ⟨_, _, compiles, succeeds⟩
  rcases exists_of_bind_ok succeeds with ⟨_, _, closesBracket, succeeds⟩
  rcases exists_of_bind_ok succeeds with ⟨otherwise, _, opensFirst, succeeds⟩
  rcases exists_of_bind_ok succeeds with ⟨_, _, pops, succeeds⟩
  rcases exists_of_bind_ok succeeds with ⟨_, _, compilesFirst, succeeds⟩
  rcases exists_of_bind_ok succeeds with ⟨finish, _, opensSecond, succeeds⟩
  rcases exists_of_bind_ok succeeds with ⟨_, _, closesFirst, succeeds⟩
  rcases exists_of_bind_ok succeeds with ⟨_, _, popsAgain, succeeds⟩
  rcases exists_of_bind_ok succeeds with ⟨hasElse, _, looks, succeeds⟩
  have condition :=
    ((progresses opensBracket).andThen (progresses compiles)).andThen (progresses closesBracket)
  have first :=
    ((condition.openJump .ifFalse opensFirst).andThen (progresses pops)).andThen
      (progresses compilesFirst)
  have second :=
    ((closeOuter (first.openJump .always opensSecond) closesFirst).andThen
      (progresses popsAgain)).andThen (progresses looks)
  split at succeeds
  · rcases exists_of_bind_ok succeeds with ⟨_, _, compilesSecond, closes⟩
    exact closeOnly (second.andThen (progresses compilesSecond)) closes
  · rcases exists_of_bind_ok succeeds with ⟨_, _, isDone, closes⟩
    cases isDone
    exact closeOnly second closes

instance whileStatement : Has Joins inner.whileStatement := by
  refine of_ok fun {state after _} succeeds => ?_
  unfold Inner.whileStatement at succeeds
  rcases exists_of_bind_ok succeeds with ⟨start, _, marks, succeeds⟩
  cases marks
  rcases exists_of_bind_ok succeeds with ⟨_, _, opensBracket, succeeds⟩
  rcases exists_of_bind_ok succeeds with ⟨_, _, compiles, succeeds⟩
  rcases exists_of_bind_ok succeeds with ⟨_, _, closesBracket, succeeds⟩
  rcases exists_of_bind_ok succeeds with ⟨leave, _, opens, succeeds⟩
  rcases exists_of_bind_ok succeeds with ⟨_, _, pops, succeeds⟩
  rcases exists_of_bind_ok succeeds with ⟨_, _, compilesBody, succeeds⟩
  rcases exists_of_bind_ok succeeds with ⟨_, _, loops, succeeds⟩
  rcases exists_of_bind_ok succeeds with ⟨_, _, closes, popsAgain⟩
  have condition :=
    (((nothing state).mark.andThen (progresses opensBracket)).andThen
      (progresses compiles)).andThen (progresses closesBracket)
  have round :=
    ((condition.openJump .ifFalse opens).andThen (progresses pops)).andThen
      (progresses compilesBody)
  have closed := closeOnly (round.loop List.mem_cons_self loops) closes
  exact (closed.andThen (progresses popsAgain)).forget

omit code in
/-- The jump out of a loop, if there is one, has been opened. -/
theorem forCondition
    {state between after : Compilation}
    {cuts : List Nat}
    {leave? : Option PendingJump}
    (begins : Progresses state between [] cuts)
    (succeeds : inner.forCondition between = (.ok leave?, after)) :
    Progresses state after leave?.toList cuts := by
  unfold Inner.forCondition at succeeds
  rcases exists_of_bind_ok succeeds with ⟨isBare, _, looks, succeeds⟩
  have before := begins.andThen (progresses looks)
  split at succeeds
  · cases succeeds
    exact before
  · rcases exists_of_bind_ok succeeds with ⟨_, _, compiles, succeeds⟩
    rcases exists_of_bind_ok succeeds with ⟨_, _, consumes, succeeds⟩
    rcases exists_of_bind_ok succeeds with ⟨leave, _, opens, succeeds⟩
    rcases exists_of_bind_ok succeeds with ⟨_, _, pops, isDone⟩
    cases isDone
    have condition := (before.andThen (progresses compiles)).andThen (progresses consumes)
    exact (condition.openJump .ifFalse opens).andThen (progresses pops)

omit code in
/-- The offset at which a round goes on is a cut. -/
theorem forIncrement
    {state between after : Compilation}
    {opened : List PendingJump}
    {cuts : List Nat}
    {start again : Nat}
    (begins : Progresses state between opened cuts)
    (known : start ∈ cuts)
    (succeeds : inner.forIncrement start between = (.ok again, after)) :
    ∃ more, again ∈ more ∧ Progresses state after opened more := by
  unfold Inner.forIncrement at succeeds
  rcases exists_of_bind_ok succeeds with ⟨isBare, _, looks, succeeds⟩
  have before := begins.andThen (progresses looks)
  split at succeeds
  · cases succeeds
    exact ⟨cuts, known, before⟩
  · rcases exists_of_bind_ok succeeds with ⟨body, _, opens, succeeds⟩
    rcases exists_of_bind_ok succeeds with ⟨increment, _, marks, succeeds⟩
    cases marks
    rcases exists_of_bind_ok succeeds with ⟨_, _, compiles, succeeds⟩
    rcases exists_of_bind_ok succeeds with ⟨_, _, pops, succeeds⟩
    rcases exists_of_bind_ok succeeds with ⟨_, _, consumes, succeeds⟩
    rcases exists_of_bind_ok succeeds with ⟨_, _, loops, succeeds⟩
    rcases exists_of_bind_ok succeeds with ⟨_, _, closes, isDone⟩
    cases isDone
    have step :=
      (((before.openJump .always opens).mark.andThen (progresses compiles)).andThen
        (progresses pops)).andThen (progresses consumes)
    have looped := step.loop (List.mem_cons_of_mem _ known) loops
    exact ⟨_, List.mem_cons_self,
      looped.closeJump List.mem_cons_self (fun other member => List.mem_cons.mp member)
        (fun other => List.mem_cons_of_mem _) closes⟩

instance forStatement : Has Joins inner.forStatement := by
  refine of_ok fun {state after _} succeeds => ?_
  unfold Inner.forStatement at succeeds
  rcases exists_of_bind_ok succeeds with ⟨_, _, enters, succeeds⟩
  rcases exists_of_bind_ok succeeds with ⟨_, _, opensBracket, succeeds⟩
  rcases exists_of_bind_ok succeeds with ⟨_, _, begins, succeeds⟩
  rcases exists_of_bind_ok succeeds with ⟨start, _, marks, succeeds⟩
  cases marks
  rcases exists_of_bind_ok succeeds with ⟨leave?, _, checks, succeeds⟩
  rcases exists_of_bind_ok succeeds with ⟨again, _, steps, succeeds⟩
  rcases exists_of_bind_ok succeeds with ⟨_, _, compiles, succeeds⟩
  rcases exists_of_bind_ok succeeds with ⟨_, _, loops, succeeds⟩
  have first :=
    ((progresses enters).andThen (progresses opensBracket)).andThen (progresses begins)
  rcases forIncrement (forCondition first.mark checks) List.mem_cons_self steps with
    ⟨cuts, known, clauses⟩
  have looped := (clauses.andThen (progresses compiles)).loop known loops
  cases leave? with
  | none =>
      have leaves : leaveBlock _ = (.ok _, _) := succeeds
      exact (looped.andThen (progresses leaves)).forget
  | some leave =>
      rcases exists_of_bind_ok succeeds with ⟨_, _, closes, succeeds⟩
      rcases exists_of_bind_ok succeeds with ⟨_, _, pops, leaves⟩
      have closed := (closeOnly looped closes).andThen (progresses pops)
      have leaves : leaveBlock _ = (.ok _, _) := leaves
      exact (closed.andThen (progresses leaves)).forget

end Statements

/-! ## All routines -/

instance structured : Joins.Structured where
  conjunction _ := conjunction
  disjunction _ := disjunction
  ifStatement _ _ := ifStatement
  whileStatement _ _ := whileStatement
  forStatement _ _ := forStatement
  function _ _ name role := function name role
  method _ _ := method
  returnStatement _ := returnStatement

instance expressionWithin (levels : Nat) (least : Precedence) :
    Has Joins (expressionWithin levels least) := by
  induction levels generalizing least with
  | zero => exact ⟨fun _ => nofun⟩
  | succ levels induction => exact Has.operators least

instance codeWithin (levels : Nat) (form : CodeForm) : Has Joins (codeWithin levels form) := by
  induction levels generalizing form with
  | zero => exact ⟨fun _ => nofun⟩
  | succ levels induction => exact Has.body form

/-- The body of a text is finished last. -/
theorem finish_body
    {state between after : Compilation}
    {result : Unit}
    (outermost : state.enclosing = [])
    (blank : state.draft.LaidOut state.Yields [] [])
    (earlier : state.finished = #[])
    (written : Progresses state between [] [])
    (finishes : (do let _ ← finishFunction : Compiler Unit) between = (.ok result, after)) :
    after.firstFunction = state.firstFunction ∧
      ∀ function ∈ after.finished, function.AttachesInitializers after.Yields := by
  rcases exists_of_bind_ok finishes with ⟨id, last, closes, isDone⟩
  cases isDone
  unfold Compiler.finishFunction at closes
  simp only [written.enclosing, outermost] at closes
  generalize isBody :
    ({ name := between.draft.name, arity := between.draft.arity, chunk := between.draft.chunk,
        home := between.home } : Function) = body at closes
  have sameChunk : body.chunk = between.draft.chunk := by
    rw [← isBody]
  cases closes
  rcases written.laid [] [] blank with ⟨pieces, laidOut, -⟩
  rw [List.nil_append] at laidOut
  have attaches := written.attaches (by rw [earlier]; nofun)
  have known :
      ∀ id, between.Yields id →
        Compilation.Yields
          { between with enclosing := [], finished := between.finished.push body } id := by
    rintro id ⟨place, other, rfl, found, yields⟩
    refine ⟨place, other, rfl, ?_, yields⟩
    have inside := (Array.getElem?_eq_some_iff.mp found).1
    show (between.finished.push body)[place]? = some other
    rw [Array.getElem?_push, if_neg (Nat.ne_of_lt inside), found]
  refine ⟨written.first, fun function member => ?_⟩
  rcases Array.mem_push.mp member with old | rfl
  · exact (attaches function old).mono known
  · have laid : function.chunk.Laid pieces [] := by
      rw [sameChunk]
      exact laidOut.laid
    apply laid.attachesInitializers
    rw [sameChunk]
    exact fun piece isPiece => (laidOut.fits piece isPiece).mono (fun _ _ => id) known

theorem script
    {levels : Nat}
    {mode : CompileMode}
    {state after : Compilation}
    {result : Unit}
    (outermost : state.enclosing = [])
    (blank : state.draft.LaidOut state.Yields [] [])
    (isScript : state.draft.role = .script)
    (earlier : state.finished = #[])
    (succeeds : script levels mode state = (.ok result, after)) :
    after.firstFunction = state.firstFunction ∧
      ∀ function ∈ after.finished, function.AttachesInitializers after.Yields := by
  unfold Compiler.script at succeeds
  rcases exists_of_bind_ok succeeds with ⟨pending, read, reads, rest⟩
  have kept := progresses reads
  have notInitializer : read.draft.role ≠ .initializer := by
    rw [kept.role, isScript]
    nofun
  split at rest
  · rcases exists_of_bind_ok rest with ⟨_, ended, leaves, finishes⟩
    cases leaves
    have left := emitted_leave read read.previous.line notInitializer
    exact finish_body outermost blank earlier (kept.andThen left) finishes
  · rcases exists_of_bind_ok rest with ⟨_, ended, returns, finishes⟩
    exact finish_body outermost blank earlier (kept.andThen (progresses returns)) finishes

end Joins

end Compiler

/-- In the functions of a text that compiles, what is attached as an initialiser is one. -/
theorem attachesInitializers_of_compile
    {mode : CompileMode}
    {source : String}
    {table : Module}
    {home firstFunction : Nat}
    {functions : Array Function}
    (success : (compile mode source table home firstFunction).functions = .ok functions) :
    ∀ function ∈ functions,
      function.AttachesInitializers fun id =>
        ∃ place other,
          id = firstFunction + place ∧ functions[place]? = some other ∧ other.YieldsReceiver := by
  unfold compile at success
  split at success
  · cases success
  · rename_i tokens _
    unfold Compiler.compileTokens at success
    split at success
    · rename_i final outcome
      cases success
      have blank :
          (Compiler.start tokens table home firstFunction).draft.LaidOut
            (Compiler.start tokens table home firstFunction).Yields [] [] :=
        Draft.laidOut_blank _ none .script
      rcases Compiler.Joins.script rfl blank rfl rfl outcome with ⟨first, attaches⟩
      intro function member
      refine (attaches function member).mono ?_
      rintro id ⟨place, other, rfl, found, yields⟩
      exact ⟨place, other, by rw [first]; rfl, found, yields⟩
    · cases success

end ScriptEngine
