import ScriptEngine.Proofs.Imperative.Site

/-!
# Single instructions of imperative programs

What the machine does with each instruction that the code of an imperative program
consists of, as rules for `Site.Leads` and `Site.Performs`.
-/

namespace ScriptEngine.Imperative.Site

open Action

variable
  {site : Site}
  {scope : Scope}
  {offset : Nat}
  {instruction : Instruction}
  {value : Value}
  {values temporaries : List Value}
  {contents : Array Value}
  {texts steps : Array String}
  {store : Store}
  {state : State}

theorem run_bind (action : Action α) (next : α → Action β) (state : State) :
    (action >>= next) state =
      match action state with
      | (.ok value, after) => next value after
      | (.error interruption, after) => (.error interruption, after) := by
  rcases outcome : action state with ⟨interruption | value, after⟩
  · exact bind_of_error outcome next
  · exact bind_of_ok outcome next

theorem run_pure (value : α) (state : State) :
    (pure value : Action α) state = (.ok value, state) :=
  Prod.ext rfl rfl

theorem recordStep_state (present : Present) :
    ∃ recorded,
      recordStep (site.state present) = (.ok (), site.state { present with steps := recorded }) :=
  ⟨(recordStep (site.state present)).2.journal.steps, rfl⟩

/-- A step moves the frame and carries out the instruction; the journal may record it. -/
theorem step_state
    (codeAt : site.function.CodeAt offset [instruction])
    (plain : ∀ index count, instruction ≠ .invoke index count) :
    ∃ recorded,
      Action.step site.environment site.depth
          (site.state ⟨offset, values, contents, texts, steps⟩) =
        execute site.environment site.depth instruction
          (site.state ⟨offset + instruction.length, values, contents, texts, recorded⟩) := by
  have moves :
      ∀ recorded,
        fetch offset instruction (site.state ⟨offset, values, contents, texts, recorded⟩) =
          (.ok (), site.state ⟨offset + instruction.length, values, contents,
            texts, recorded⟩) := by
    intro recorded
    unfold fetch
    split
    · exact absurd rfl (plain _ _)
    · exact moveTo_state _
  unfold Action.step
  split
  · rcases @recordStep_state site ⟨offset, values, contents, texts, steps⟩ with
      ⟨recorded, records⟩
    refine ⟨recorded, ?_⟩
    rw [bind_of_ok records]
    dsimp only
    rw [bind_of_ok (frame_state _)]
    simp only [frame, codeAt.decode]
    rw [bind_of_ok (moves _)]
  · refine ⟨steps, ?_⟩
    dsimp only
    rw [bind_of_ok (frame_state _)]
    simp only [frame, codeAt.decode]
    rw [bind_of_ok (moves _)]

/-- An instruction after which the body goes on. -/
theorem leads_of_proceeds
    {goal : State → Prop}
    {next : Array String → Present}
    (codeAt : site.function.CodeAt offset [instruction])
    (plain : ∀ index count, instruction ≠ .invoke index count)
    (executes :
      ∀ recorded,
        execute site.environment site.depth instruction
            (site.state ⟨offset + instruction.length, values, contents, texts, recorded⟩) =
          (.ok .proceed, site.state (next recorded)))
    (reached : ∀ recorded, goal (site.state (next recorded))) :
    site.Leads goal (site.state ⟨offset, values, contents, texts, steps⟩) := by
  rcases @step_state site offset instruction values contents texts steps codeAt plain with
    ⟨recorded, steps⟩
  rw [executes] at steps
  refine .step steps ?_ (.here (reached recorded))
  simp [Site.state, depth]

/-- An instruction that fails. -/
theorem leads_of_fails
    {fault : Fault}
    {target : Nat}
    {left : List Value}
    (codeAt : site.function.CodeAt offset [instruction])
    (plain : ∀ index count, instruction ≠ .invoke index count)
    (mirrors : site.Mirrors store.globals contents)
    (executes :
      ∀ recorded,
        execute site.environment site.depth instruction
            (site.state
              ⟨offset + instruction.length, values, contents, site.written store.texts, recorded⟩) =
          (.error (.fault fault),
            site.state ⟨target, left, contents, site.written store.texts, recorded⟩)) :
    site.Leads (site.Fails fault store)
      (site.state ⟨offset, values, contents, site.written store.texts, steps⟩) := by
  rcases @step_state site offset instruction values contents (site.written store.texts) steps
    codeAt plain with ⟨recorded, steps⟩
  rw [executes] at steps
  exact .here ⟨_, steps, rfl, contents, mirrors, rfl⟩

/-! ## Moving and dropping values -/

theorem At.room_of_cons
    (isAt : site.At scope offset (value :: temporaries) store state) :
    site.height (temporaries ++ valuesOf store.blocks) ≤ site.capacity := by
  have room := isAt.room
  rw [List.cons_append, height_cons] at room
  exact Nat.le_of_succ_le room

/-- An instruction that moves the frame and drops values from the top. -/
theorem At.moves
    {target : Nat}
    {left : List Value}
    (isAt : site.At scope offset temporaries store state)
    (codeAt : site.function.CodeAt offset [instruction])
    (plain : ∀ index count, instruction ≠ .invoke index count)
    (kept : left <:+ temporaries)
    (executes :
      ∀ below contents texts recorded,
        execute site.environment site.depth instruction
            (site.state
              ⟨offset + instruction.length, temporaries ++ below, contents, texts, recorded⟩) =
          (.ok .proceed, site.state ⟨target, left ++ below, contents, texts, recorded⟩)) :
    site.Leads (site.At scope target left store) state := by
  rcases isAt.present with ⟨contents, steps, mirrors, rfl⟩
  refine leads_of_proceeds codeAt plain (executes _ _ _) fun recorded => ?_
  rcases kept with ⟨dropped, rfl⟩
  refine ⟨isAt.inScope, isAt.few, ?_, ?_, contents, recorded, mirrors, rfl⟩
  · intro value member
    apply isAt.assigned
    rw [List.append_assoc]
    exact List.mem_append_right _ member
  · refine Nat.le_trans ?_ isAt.room
    simp only [height, List.length_append]
    omega

theorem At.pop
    (isAt : site.At scope offset (value :: temporaries) store state)
    (codeAt : site.function.CodeAt offset [.pop]) :
    site.Leads (site.At scope (offset + 1) temporaries store) state := by
  refine isAt.moves codeAt nofun (List.suffix_cons _ _) fun below contents texts recorded => ?_
  simp only [List.cons_append, execute, andProceed, run_bind, run_pure, pop_state]
  rfl

/-- Several values are dropped one after the other. -/
theorem At.popAll
    {dropped : List Value}
    (isAt : site.At scope offset (dropped ++ temporaries) store state)
    (codeAt : site.function.CodeAt offset (List.replicate dropped.length .pop)) :
    site.Leads (site.At scope (offset + dropped.length) temporaries store) state := by
  induction dropped generalizing offset state with
  | nil => exact .here isAt
  | cons value dropped induction =>
      refine (isAt.pop codeAt.head).bind fun next isNext => ?_
      refine (induction isNext codeAt.tail).mono fun final isFinal => ?_
      rwa [List.length_cons, Nat.add_comm dropped.length, ← Nat.add_assoc]

theorem At.jump
    {distance : Nat}
    (isAt : site.At scope offset temporaries store state)
    (codeAt : site.function.CodeAt offset [.jump (UInt16.ofNat distance)])
    (near : distance ≤ Chunk.maxDistance) :
    site.Leads (site.At scope (offset + 3 + distance) temporaries store) state := by
  refine isAt.moves codeAt nofun (List.suffix_refl _) fun below contents texts recorded => ?_
  simp only [execute, andProceed, skip, run_bind, run_pure, frame_state, moveTo_state, frame,
    toNat_ofNat_of_near near]
  rfl

theorem At.loop
    {target distance : Nat}
    (isAt : site.At scope offset temporaries store state)
    (codeAt : site.function.CodeAt offset [.loop (UInt16.ofNat distance)])
    (near : distance ≤ Chunk.maxDistance)
    (back : target + distance = offset + 3) :
    site.Leads (site.At scope target temporaries store) state := by
  refine isAt.moves codeAt nofun (List.suffix_refl _) fun below contents texts recorded => ?_
  have length : (Instruction.loop (UInt16.ofNat distance)).length = 3 := rfl
  have inside : distance ≤ offset + 3 := by omega
  have isTarget : offset + 3 - distance = target := by omega
  simp only [execute, andProceed, skipBack, run_bind, run_pure, frame_state, frame,
    toNat_ofNat_of_near near, length, if_pos inside, moveTo_state, isTarget]

theorem isFalsey_eq (value : Value) : value.isFalsey = !holds value := by
  cases value with
  | bool content => cases content <;> rfl
  | _ => rfl

theorem At.jumpIfFalse
    {distance : Nat}
    (isAt : site.At scope offset (value :: temporaries) store state)
    (codeAt : site.function.CodeAt offset [.jumpIfFalse (UInt16.ofNat distance)])
    (near : distance ≤ Chunk.maxDistance) :
    site.Leads
      (site.At scope (offset + 3 + if holds value then 0 else distance) (value :: temporaries)
        store) state := by
  refine isAt.moves codeAt nofun (List.suffix_refl _) fun below contents texts recorded => ?_
  simp only [List.cons_append, execute, andProceed, skip, run_bind, run_pure, peek_state,
    isFalsey_eq]
  cases holds value with
  | true => rfl
  | false =>
      simp only [Bool.not_false, if_true, run_bind, frame_state, moveTo_state, frame,
        toNat_ofNat_of_near near, Bool.false_eq_true, if_false]
      rfl

/-! ## Pushing values -/

/-- An instruction that pushes a value, if there is room. -/
theorem At.push
    (isAt : site.At scope offset temporaries store state)
    (codeAt : site.function.CodeAt offset [instruction])
    (plain : ∀ index count, instruction ≠ .invoke index count)
    (isAssigned : value.isUndefined = false)
    (pushes :
      ∀ contents recorded,
        site.Mirrors store.globals contents →
          execute site.environment site.depth instruction
              (site.state
                ⟨offset + instruction.length, temporaries ++ valuesOf store.blocks, contents,
                  site.written store.texts, recorded⟩) =
            andProceed (Action.push site.environment.settings.limits value)
              (site.state
                ⟨offset + instruction.length, temporaries ++ valuesOf store.blocks, contents,
                  site.written store.texts, recorded⟩)) :
    site.Leads (site.At scope (offset + instruction.length) (value :: temporaries) store)
      state := by
  rcases isAt.present with ⟨contents, steps, mirrors, rfl⟩
  by_cases free : site.height (temporaries ++ valuesOf store.blocks) < site.capacity
  · have executes :
        ∀ recorded,
          execute site.environment site.depth instruction
              (site.state
                ⟨offset + instruction.length, temporaries ++ valuesOf store.blocks, contents,
                  site.written store.texts, recorded⟩) =
            (.ok .proceed,
              site.state
                ⟨offset + instruction.length, value :: temporaries ++ valuesOf store.blocks,
                  contents, site.written store.texts, recorded⟩) := by
      intro recorded
      rw [pushes contents recorded mirrors]
      simp only [andProceed, run_bind, run_pure, push_state free, List.cons_append]
    refine leads_of_proceeds codeAt plain executes fun recorded => ?_
    refine ⟨isAt.inScope, isAt.few, ?_, ?_, contents, recorded, mirrors, rfl⟩
    · intro other member
      rcases List.mem_cons.mp member with rfl | old
      · exact isAssigned
      · exact isAt.assigned other old
    · rw [List.cons_append, height_cons]
      exact free
  · rcases @step_state site offset instruction (temporaries ++ valuesOf store.blocks) contents
      (site.written store.texts) steps codeAt plain with ⟨recorded, faults⟩
    rw [pushes contents recorded mirrors] at faults
    simp only [andProceed, run_bind, push_state_of_full (Nat.not_lt.mp free)] at faults
    exact .overflow (Nat.le_of_not_lt (by rwa [size_stack])) faults

theorem At.literal
    (isAt : site.At scope offset temporaries store state)
    {word : Syntax.Literal}
    (codeAt : site.function.CodeAt offset [word.instruction]) :
    site.Leads
      (site.At scope (offset + word.instruction.length) (wordValue word :: temporaries) store)
      state := by
  cases word with
  | trueWord | falseWord | nullWord => exact isAt.push codeAt nofun rfl fun _ _ _ => rfl

theorem At.null
    (isAt : site.At scope offset temporaries store state)
    (codeAt : site.function.CodeAt offset [.pushNull]) :
    site.Leads (site.At scope (offset + 1) (.null :: temporaries) store) state :=
  isAt.push codeAt nofun rfl fun _ _ _ => rfl

theorem constant_state
    {index : Nat}
    (found : site.book.pool.constants[index]? = some value)
    (present : Present) :
    constant index (site.state present) = (.ok value, site.state present) := by
  have isConstant : site.function.chunk.constant? index = some value :=
    (Chunk.constant?_eq_getElem? _ index).trans found
  simp only [constant, run_bind, frame_state, frame, isConstant, run_pure]

theorem At.constant
    (isAt : site.At scope offset temporaries store state)
    (pushes : Pushes site.book value instruction)
    (isAssigned : value.isUndefined = false)
    (codeAt : site.function.CodeAt offset [instruction]) :
    site.Leads (site.At scope (offset + instruction.length) (value :: temporaries) store)
      state := by
  rcases pushes with ⟨index, found, bound, rfl⟩
  unfold Syntax.Generator.pushConstant at codeAt ⊢
  split at codeAt
  · rename_i small
    have isIndex : (UInt8.ofNat index).toNat = index := by
      rw [UInt8.toNat_ofNat', Nat.mod_eq_of_lt small]
    rw [if_pos small]
    refine isAt.push codeAt nofun isAssigned fun contents recorded _ => ?_
    simp only [execute, andProceed, run_bind, isIndex, constant_state found]
  · rename_i large
    have isIndex : (UInt16.ofNat index).toNat = index := by
      rw [UInt16.toNat_ofNat']
      exact Nat.mod_eq_of_lt bound
    rw [if_neg large]
    refine isAt.push codeAt nofun isAssigned fun contents recorded _ => ?_
    simp only [execute, andProceed, run_bind, isIndex, constant_state found]

/-! ## Operators -/

/-- The machine after an operator: the result is on the stack, or the operation has failed. -/
def operated (site : Site) (present : Present) :
    Except Fault Value → Except Interruption Transition × State
  | .ok value => (.ok .proceed, site.state { present with values := value :: present.values })
  | .error fault => (.error (.fault fault), site.state present)

/-- An instruction that replaces operands by a result, or fails. -/
theorem At.operates
    {result : Except Fault Value}
    (operands : List Value)
    (isAt : site.At scope offset (operands ++ temporaries) store state)
    (some : 0 < operands.length)
    (codeAt : site.function.CodeAt offset [instruction])
    (plain : ∀ index count, instruction ≠ .invoke index count)
    (isAssigned : ∀ value, result = .ok value → value.isUndefined = false)
    (operates :
      ∀ below contents texts recorded,
        site.height below < site.capacity →
          execute site.environment site.depth instruction
              (site.state
                ⟨offset + instruction.length, operands ++ below, contents, texts, recorded⟩) =
            site.operated ⟨offset + instruction.length, below, contents, texts, recorded⟩ result) :
    site.Leads
      (site.Ends (fun value => site.At scope (offset + instruction.length) (value :: temporaries))
        result store) state := by
  rcases isAt.present with ⟨contents, steps, mirrors, rfl⟩
  have room : site.height (temporaries ++ valuesOf store.blocks) < site.capacity := by
    refine Nat.lt_of_lt_of_le ?_ isAt.room
    simp only [height, List.length_append]
    omega
  rw [List.append_assoc]
  cases result with
  | ok value =>
      refine leads_of_proceeds codeAt plain (fun recorded => operates _ _ _ recorded room)
        fun recorded => ?_
      refine ⟨isAt.inScope, isAt.few, ?_, ?_, contents, recorded, mirrors, rfl⟩
      · intro other member
        rcases List.mem_cons.mp member with rfl | old
        · exact isAssigned other rfl
        · apply isAt.assigned
          rw [List.append_assoc]
          exact List.mem_append_right _ old
      · rw [List.cons_append, height_cons]
        exact room
  | error fault =>
      exact leads_of_fails codeAt plain mirrors fun recorded => operates _ _ _ recorded room

theorem binaryNumeric_state
    {left right : Value}
    (operation : Float → Float → Value)
    (room : site.height values < site.capacity) :
    andProceed (binaryNumeric site.environment operation)
        (site.state ⟨offset, right :: left :: values, contents, texts, steps⟩) =
      site.operated ⟨offset, values, contents, texts, steps⟩ (numeric operation left right) := by
  simp only [andProceed, binaryNumeric, run_bind, run_pure, pop_state]
  cases left with
  | number leftNumber =>
      cases right with
      | number rightNumber =>
          simp only [push_state room]
          rfl
      | _ => rfl
  | _ => rfl

theorem add_state
    {left right : Value}
    (room : site.height values < site.capacity) :
    andProceed (add site.environment)
        (site.state ⟨offset, right :: left :: values, contents, texts, steps⟩) =
      site.operated ⟨offset, values, contents, texts, steps⟩ (sum left right) := by
  have same : sum left right = (sum? left right).elim (.error .operandsNotNumbers) .ok := by
    unfold sum sum?
    split <;> simp_all
  simp only [andProceed, add, run_bind, run_pure, pop_state]
  rw [same]
  cases sum? left right with
  | some value =>
      simp only [push_state room]
      rfl
  | none => rfl

theorem equal_state
    {left right : Value}
    (room : site.height values < site.capacity) :
    execute site.environment site.depth .equal
        (site.state ⟨offset, right :: left :: values, contents, texts, steps⟩) =
      site.operated ⟨offset, values, contents, texts, steps⟩
        (.ok (.bool (left.equals right))) := by
  simp only [execute, andProceed, run_bind, run_pure, pop_state, push_state room]
  rfl

theorem isUndefined_of_numeric
    {operation : Float → Float → Value}
    {left right : Value}
    (each : ∀ left right, (operation left right).isUndefined = false)
    (isValue : numeric operation left right = .ok value) :
    value.isUndefined = false := by
  unfold numeric at isValue
  split at isValue
  · cases isValue
    exact each _ _
  · cases isValue

theorem isUndefined_of_sum
    {left right : Value}
    (isValue : sum left right = .ok value) :
    value.isUndefined = false := by
  unfold sum at isValue
  split at isValue <;> cases isValue <;> rfl

theorem performs_unary
    {operator : UnaryOperator}
    (codeAt : site.function.CodeAt offset [operator.instruction]) :
    site.Performs (site.At scope offset (value :: temporaries))
      (Interpreter.result (unaryValue operator value))
      (fun result =>
        site.At scope (offset + operator.instruction.length) (result :: temporaries)) := by
  intro store state isAt outcome final ends
  cases ends
  cases operator with
  | negative =>
      refine At.operates [value] isAt Nat.one_pos codeAt nofun ?_ ?_
      · intro result isResult
        cases value <;> cases isResult
        rfl
      · intro below contents texts recorded room
        simp only [List.nil_append, List.cons_append, UnaryOperator.instruction, execute,
          andProceed, run_bind, run_pure, pop_state]
        cases value with
        | number number =>
            simp only [push_state room]
            rfl
        | _ => rfl
  | complement =>
      refine At.operates [value] isAt Nat.one_pos codeAt nofun ?_ ?_
      · intro result isResult
        cases isResult
        rfl
      · intro below contents texts recorded room
        simp only [List.nil_append, List.cons_append, UnaryOperator.instruction, execute,
          andProceed, run_bind, run_pure, pop_state, isFalsey_eq, push_state room]
        rfl

/-- An operator whose result is negated. -/
theorem negates
    {result : Except Fault Value}
    (leads :
      site.Leads (site.Ends (fun value => site.At scope offset (value :: temporaries)) result store)
        state)
    (codeAt : site.function.CodeAt offset [.negateTruth]) :
    site.Leads
      (site.Ends (fun value => site.At scope (offset + 1) (value :: temporaries))
        (result.map fun value => .bool !(holds value)) store) state := by
  refine leads.bind ?_
  cases result with
  | ok value =>
      intro next isAt
      exact @performs_unary site scope offset value temporaries .complement codeAt store next isAt _
        _ rfl
  | error fault => exact fun next fails => .here fails

theorem numeric_not
    (test : Float → Float → Bool)
    (left right : Value) :
    numeric (fun left right => .bool !(test left right)) left right =
      (numeric (fun left right => .bool (test left right)) left right).map
        fun value => .bool !(holds value) := by
  cases left with
  | number leftNumber =>
      cases right with
      | number rightNumber =>
          simp only [numeric, Except.map]
          cases test leftNumber rightNumber <;> rfl
      | _ => rfl
  | _ => rfl

/-- An operation on two numbers. -/
theorem At.calculates
    {left right : Value}
    {operation : Float → Float → Value}
    (isAt : site.At scope offset (right :: left :: temporaries) store state)
    (codeAt : site.function.CodeAt offset [instruction])
    (each : ∀ left right, (operation left right).isUndefined = false)
    (plain : ∀ index count, instruction ≠ .invoke index count)
    (executes :
      execute site.environment site.depth instruction =
        andProceed (binaryNumeric site.environment operation)) :
    site.Leads
      (site.Ends (fun value => site.At scope (offset + instruction.length) (value :: temporaries))
        (numeric operation left right) store) state := by
  refine At.operates [right, left] isAt Nat.two_pos codeAt plain
    (fun value isValue => isUndefined_of_numeric each isValue) ?_
  intro below contents texts recorded room
  rw [executes]
  exact binaryNumeric_state operation room

theorem At.equates
    {left right : Value}
    (isAt : site.At scope offset (right :: left :: temporaries) store state)
    (codeAt : site.function.CodeAt offset [.equal]) :
    site.Leads
      (site.Ends (fun value => site.At scope (offset + 1) (value :: temporaries))
        (.ok (.bool (left.equals right))) store) state := by
  refine At.operates [right, left] isAt Nat.two_pos codeAt nofun ?_ ?_
  · rintro value isValue
    cases isValue
    rfl
  · exact fun below contents texts recorded room => equal_state room

theorem performs_binary
    {operator : BinaryOperator}
    {left right : Value}
    (codeAt : site.function.CodeAt offset operator.instructions) :
    site.Performs (site.At scope offset (right :: left :: temporaries))
      (Interpreter.result (binaryValue operator left right))
      (fun result =>
        site.At scope (offset + Instruction.totalLength operator.instructions)
          (result :: temporaries)) := by
  intro store state isAt outcome final ends
  cases ends
  cases operator with
  | plus =>
      refine At.operates [right, left] isAt Nat.two_pos codeAt nofun ?_ ?_
      · exact fun value isValue => isUndefined_of_sum isValue
      · exact fun below contents texts recorded room => add_state room
  | minus | times | dividedBy | remainder | greater | less =>
      exact isAt.calculates codeAt (fun _ _ => rfl) nofun rfl
  | equal => exact isAt.equates codeAt
  | notEqual =>
      have negated := negates (isAt.equates codeAt.head) codeAt.tail
      have same :
          Except.map (fun value => Value.bool !(holds value))
              (.ok (.bool (left.equals right)) : Except Fault Value) =
            .ok (.bool !(left.equals right)) := by
        cases left.equals right <;> rfl
      rwa [same] at negated
  | greaterEqual =>
      have negated := negates
        (isAt.calculates codeAt.head (fun _ _ => rfl) nofun rfl :
          site.Leads
            (site.Ends (fun value => site.At scope (offset + 1) (value :: temporaries))
              (numeric (fun left right => .bool (left < right)) left right) store) state)
        codeAt.tail
      rwa [← numeric_not (fun left right => left < right)] at negated
  | lessEqual =>
      have negated := negates
        (isAt.calculates codeAt.head (fun _ _ => rfl) nofun rfl :
          site.Leads
            (site.Ends (fun value => site.At scope (offset + 1) (value :: temporaries))
              (numeric (fun left right => .bool (left > right)) left right) store) state)
        codeAt.tail
      rwa [← numeric_not (fun left right => left > right)] at negated

/-! ## Variables -/

theorem getLocal_state
    {upper lower : List Value} :
    getLocal site.environment (lower.length + 1)
        (site.state ⟨offset, upper ++ value :: lower, contents, texts, steps⟩) =
      push site.environment.settings.limits value
        (site.state ⟨offset, upper ++ value :: lower, contents, texts, steps⟩) := by
  have found := getElem?_stackOf upper value (lower ++ site.callee :: site.ground)
  have position :
      (lower ++ site.callee :: site.ground).length = site.ground.length + (lower.length + 1) := by
    simp only [List.length_append, List.length_cons]
    omega
  have isValue :
      (site.state ⟨offset, upper ++ value :: lower, contents, texts, steps⟩).stack[
        site.ground.length + (lower.length + 1)]? = some value := by
    rw [← position]
    simpa [Site.state] using found
  simp only [getLocal, run_bind, frame_state, look, frame, isValue]

theorem setLocal_state
    {upper lower : List Value}
    (new : Value) :
    setLocal (lower.length + 1)
        (site.state ⟨offset, new :: (upper ++ value :: lower), contents, texts, steps⟩) =
      (.ok (), site.state ⟨offset, new :: (upper ++ new :: lower), contents, texts, steps⟩) := by
  have changed := set_stackOf (new :: upper) value new (lower ++ site.callee :: site.ground)
  have position :
      (lower ++ site.callee :: site.ground).length = site.ground.length + (lower.length + 1) := by
    simp only [List.length_append, List.length_cons]
    omega
  rw [position] at changed
  have inside :
      site.ground.length + (lower.length + 1) <
        (site.state ⟨offset, new :: (upper ++ value :: lower), contents,
          texts, steps⟩).stack.size := by
    rw [size_stack]
    simp only [height, List.length_append, List.length_cons]
    omega
  simp only [setLocal, run_bind, frame_state, peek_state, look, frame,
    if_pos inside, setSlot, change]
  simp only [List.cons_append] at changed
  simp only [Site.state, List.cons_append, List.append_assoc, changed]

theorem moduleSlot_state
    {slot : Nat}
    (isAssigned : (site.tableWith contents).assigned? slot = some value) :
    moduleSlot slot (site.state ⟨offset, values, contents, texts, steps⟩) =
      (.ok value, site.state ⟨offset, values, contents, texts, steps⟩) := by
  simp only [moduleSlot, run_bind, home_state, look, moduleAt_state, isAssigned, run_pure]

theorem moduleSlot_state_of_none
    {name : String}
    {slot : Nat}
    (found : site.table.find? name = some slot)
    (unassigned : (site.tableWith contents).assigned? slot = none) :
    moduleSlot slot (site.state ⟨offset, values, contents, texts, steps⟩) =
      (.error (.fault (.undefinedVariable name)),
        site.state ⟨offset, values, contents, texts, steps⟩) := by
  have named : (site.tableWith contents).variableName? slot = some name :=
    site.indexed.named name slot found
  simp only [moduleSlot, raiseUndefined, run_bind, home_state, look, moduleAt_state, unassigned,
    named, Option.getD_some, raise]

theorem setModuleSlot_state (slot : Nat) (new : Value) :
    setModuleSlot slot new (site.state ⟨offset, values, contents, texts, steps⟩) =
      (.ok (),
        site.state ⟨offset, values, contents.setIfInBounds slot new, texts, steps⟩) := by
  have changed :
      (site.registry.replace site.function.home (site.tableWith contents)).modify
          site.function.home (fun table => table.set slot new) =
        site.registry.replace site.function.home
          (site.tableWith (contents.setIfInBounds slot new)) := by
    simp only [Registry.modify, Registry.replace]
    congr 1
    apply Array.ext
    · simp
    · intro position _ bound
      rw [Array.size_setIfInBounds] at bound
      rw [Array.getElem_modify]
      by_cases same : site.function.home = position
      · subst same
        simp [Module.set, tableWith]
      · rw [if_neg same, Array.getElem_setIfInBounds_ne bound same,
          Array.getElem_setIfInBounds_ne bound same]
  simp only [setModuleSlot, run_bind, home_state, changeRegistry, change]
  simp only [Site.state, changed]

theorem toNat_of_found
    {name : String}
    {slot : Nat}
    (found : site.table.find? name = some slot) :
    (UInt16.ofNat slot).toNat = slot := by
  have inside : slot < site.table.size := site.indexed.inside name slot found
  have bounded : site.table.size ≤ Module.maxVariables := site.indexed.bounded
  rw [UInt16.toNat_ofNat']
  exact Nat.mod_eq_of_lt (Nat.lt_of_lt_of_le inside bounded)

/-- The slot of a local variable fits into an operand. -/
theorem At.toNat_slot
    {name : String}
    {upper lower : List Value}
    (isAt : site.At scope offset temporaries store state)
    (isLocal : IsLocal name store.blocks upper value lower) :
    (UInt8.ofNat (lower.length + 1)).toNat = lower.length + 1 := by
  have few := isAt.few
  rw [← isAt.inScope, length_locals_scopeOf, isLocal.values] at few
  simp only [List.length_append, List.length_cons, Scope.maxLocals] at few
  rw [UInt8.toNat_ofNat']
  exact Nat.mod_eq_of_lt (by omega)

/-- A variable of the module that has not been defined can be neither read nor assigned. -/
theorem At.fails_undefined
    {name : String}
    {slot : Nat}
    (isAt : site.At scope offset temporaries store state)
    (codeAt : site.function.CodeAt offset [instruction])
    (plain : ∀ index count, instruction ≠ .invoke index count)
    (found : site.table.find? name = some slot)
    (missing : store.globals name = none)
    (executes :
      ∀ present {interruption},
        moduleSlot slot (site.state present) = (.error interruption, site.state present) →
          execute site.environment site.depth instruction (site.state present) =
            (.error interruption, site.state present)) :
    site.Leads (site.Fails (.undefinedVariable name) store) state := by
  rcases isAt.present with ⟨contents, steps, mirrors, rfl⟩
  have unassigned := mirrors.assigned found
  rw [missing] at unassigned
  exact leads_of_fails codeAt plain mirrors fun recorded =>
    executes _ (moduleSlot_state_of_none found unassigned)

/-- A name that is a local variable is compiled to the slot of the variable. -/
theorem At.reference_of_isLocal
    {name : String}
    {upper lower : List Value}
    {reference : Compiler.Reference}
    (isAt : site.At scope offset temporaries store state)
    (isLocal : IsLocal name store.blocks upper value lower)
    (refers : Refers site.book scope name reference) :
    reference = .localSlot (lower.length + 1) := by
  have resolves := isLocal.resolved
  rw [isAt.inScope] at resolves
  cases refers with
  | moduleSlot resolved =>
      rw [resolved] at resolves
      cases resolves
  | localSlot resolved =>
      rw [resolved] at resolves
      cases resolves
      rfl

/-- Any other name is compiled to a slot of the module. -/
theorem At.reference_of_isNotLocal
    {name : String}
    {reference : Compiler.Reference}
    (isAt : site.At scope offset temporaries store state)
    (isNotLocal : IsNotLocal name store.blocks)
    (refers : Refers site.book scope name reference) :
    ∃ slot, reference = .moduleSlot slot ∧ site.table.find? name = some slot := by
  have resolves := isNotLocal.resolved
  rw [isAt.inScope] at resolves
  cases refers with
  | localSlot resolved =>
      rw [resolved] at resolves
      cases resolves
  | moduleSlot _ found => exact ⟨_, rfl, found⟩

theorem At.readLocal
    {name : String}
    {upper lower : List Value}
    (isAt : site.At scope offset temporaries store state)
    (isLocal : IsLocal name store.blocks upper value lower)
    (codeAt :
      site.function.CodeAt offset [(Compiler.Reference.localSlot (lower.length + 1)).read]) :
    site.Leads (site.At scope (offset + 2) (value :: temporaries) store) state := by
  have slot := isAt.toNat_slot isLocal
  refine isAt.push codeAt nofun ?_ fun contents recorded _ => ?_
  · apply isAt.assigned
    rw [isLocal.values]
    simp
  · simp only [Compiler.Reference.read, execute, slot, isLocal.values]
    rw [← List.append_assoc, andProceed, andProceed, run_bind, run_bind, getLocal_state]

theorem At.readModule
    {name : String}
    {slot : Nat}
    (isAt : site.At scope offset temporaries store state)
    (found : site.table.find? name = some slot)
    (isValue : store.globals name = some value)
    (codeAt : site.function.CodeAt offset [(Compiler.Reference.moduleSlot slot).read]) :
    site.Leads (site.At scope (offset + 3) (value :: temporaries) store) state := by
  rcases isAt.present with ⟨_, _, mirrored, -⟩
  refine isAt.push codeAt nofun (mirrored.defined isValue) fun contents recorded mirrors => ?_
  have isAssigned := mirrors.assigned found
  rw [isValue] at isAssigned
  simp only [Compiler.Reference.read, execute, toNat_of_found found, andProceed, run_bind,
    moduleSlot_state isAssigned]

/-- Reading a variable. -/
theorem performs_read
    {name : Name}
    {reference : Compiler.Reference}
    (refers : Refers site.book scope name.spelling reference)
    (codeAt : site.function.CodeAt offset [reference.read]) :
    site.Performs (site.At scope offset temporaries) (Interpreter.readVariable name.spelling)
      (fun value =>
        site.At scope (offset + reference.read.length) (value :: temporaries)) := by
  intro store state isAt outcome final ends
  unfold Interpreter.readVariable Store.lookup? at ends
  rcases isLocal_or_isNotLocal name.isName store.blocks with
    ⟨upper, value, lower, isLocal⟩ | isNotLocal
  · rcases isAt.reference_of_isLocal isLocal refers with rfl
    rw [isLocal.found, Option.some_or] at ends
    cases ends
    exact isAt.readLocal isLocal codeAt
  · rcases isAt.reference_of_isNotLocal isNotLocal refers with ⟨slot, rfl, found⟩
    rw [isNotLocal.found, Option.none_or] at ends
    cases isValue : store.globals name.spelling with
    | some value =>
        rw [isValue] at ends
        cases ends
        exact isAt.readModule found isValue codeAt
    | none =>
        rw [isValue] at ends
        cases ends
        refine isAt.fails_undefined codeAt nofun found isValue fun present _ fails => ?_
        simp only [Compiler.Reference.read, execute, toNat_of_found found, andProceed, run_bind,
          fails]

theorem At.assignLocal
    {name : String}
    {old : Value}
    {upper lower : List Value}
    {changed : List Block}
    (isAt : site.At scope offset (value :: temporaries) store state)
    (isLocal : IsLocal name store.blocks upper old lower)
    (sameScope : scopeOf changed = scopeOf store.blocks)
    (newValues : valuesOf changed = upper ++ value :: lower)
    (codeAt :
      site.function.CodeAt offset [(Compiler.Reference.localSlot (lower.length + 1)).write]) :
    site.Leads
      (site.At scope (offset + 2) (value :: temporaries) { store with blocks := changed })
      state := by
  have slot := isAt.toNat_slot isLocal
  have isAssigned : value.isUndefined = false := isAt.assigned value List.mem_cons_self
  have allAssigned := isAt.assigned
  have room := isAt.room
  rcases isAt.present with ⟨contents, steps, mirrors, rfl⟩
  rw [isLocal.values] at allAssigned room ⊢
  have executes :
      ∀ recorded,
        execute site.environment site.depth
            (Compiler.Reference.localSlot (lower.length + 1)).write
            (site.state
              ⟨offset + 2, value :: temporaries ++ (upper ++ old :: lower), contents,
                site.written store.texts, recorded⟩) =
          (.ok .proceed,
            site.state
              ⟨offset + 2, value :: temporaries ++ (upper ++ value :: lower), contents,
                site.written store.texts, recorded⟩) := by
    intro recorded
    simp only [Compiler.Reference.write, execute, slot, andProceed, run_bind, run_pure,
      List.cons_append, ← List.append_assoc, setLocal_state]
  refine leads_of_proceeds codeAt nofun executes fun recorded => ?_
  refine ⟨sameScope.trans isAt.inScope, isAt.few, ?_, ?_, contents, recorded, mirrors, ?_⟩
  · intro other member
    rw [newValues] at member
    simp only [List.mem_append, List.mem_cons] at member allAssigned
    rcases member with (rfl | temporary) | above | rfl | below
    · exact isAssigned
    · exact allAssigned other (.inl (.inr temporary))
    · exact allAssigned other (.inr (.inl above))
    · exact isAssigned
    · exact allAssigned other (.inr (.inr (.inr below)))
  · rw [newValues]
    simpa [height] using room
  · rw [newValues]

theorem At.assignModule
    {name : String}
    {slot : Nat}
    {old : Value}
    (isAt : site.At scope offset (value :: temporaries) store state)
    (found : site.table.find? name = some slot)
    (isValue : store.globals name = some old)
    (codeAt : site.function.CodeAt offset [(Compiler.Reference.moduleSlot slot).write]) :
    site.Leads (site.At scope (offset + 3) (value :: temporaries) (store.define name value))
      state := by
  have isAssigned : value.isUndefined = false := isAt.assigned value List.mem_cons_self
  rcases isAt.present with ⟨contents, steps, mirrors, rfl⟩
  have current := mirrors.assigned found
  rw [isValue] at current
  have executes :
      ∀ recorded,
        execute site.environment site.depth (Compiler.Reference.moduleSlot slot).write
            (site.state
              ⟨offset + 3, value :: temporaries ++ valuesOf store.blocks, contents,
                site.written store.texts, recorded⟩) =
          (.ok .proceed,
            site.state
              ⟨offset + 3, value :: temporaries ++ valuesOf store.blocks,
                contents.setIfInBounds slot value, site.written store.texts, recorded⟩) := by
    intro recorded
    simp only [Compiler.Reference.write, execute, toNat_of_found found, andProceed, run_bind,
      run_pure, moduleSlot_state current, List.cons_append, peek_state, setModuleSlot_state]
  refine leads_of_proceeds codeAt nofun executes fun recorded => ?_
  exact ⟨isAt.inScope, isAt.few, isAt.assigned, isAt.room, _, recorded,
    mirrors.define found isAssigned, rfl⟩

/-- Assigning the value on top of the stack, which stays there. -/
theorem performs_assign
    {name : Name}
    {reference : Compiler.Reference}
    (refers : Refers site.book scope name.spelling reference)
    (codeAt : site.function.CodeAt offset [reference.write]) :
    site.Performs (site.At scope offset (value :: temporaries))
      (Interpreter.assignVariable name.spelling value)
      (fun _ => site.At scope (offset + reference.write.length) (value :: temporaries)) := by
  intro store state isAt outcome final ends
  unfold Interpreter.assignVariable Store.assign? at ends
  rcases isLocal_or_isNotLocal name.isName store.blocks with
    ⟨upper, old, lower, isLocal⟩ | isNotLocal
  · rcases isAt.reference_of_isLocal isLocal refers with rfl
    rcases isLocal.assigned value with ⟨changed, assigns, sameScope, newValues⟩
    rw [assigns] at ends
    cases ends
    exact isAt.assignLocal isLocal sameScope newValues codeAt
  · rcases isAt.reference_of_isNotLocal isNotLocal refers with ⟨slot, rfl, found⟩
    rw [isNotLocal.assigned] at ends
    cases isValue : store.globals name.spelling with
    | some old =>
        rw [isValue] at ends
        cases ends
        exact isAt.assignModule found isValue codeAt
    | none =>
        rw [isValue] at ends
        cases ends
        refine isAt.fails_undefined codeAt nofun found isValue fun present _ fails => ?_
        simp only [Compiler.Reference.write, execute, toNat_of_found found, andProceed, run_bind,
          fails]

/-- Outside all blocks a declaration defines a variable of the module. -/
theorem performs_define
    {name : String}
    {slot : Nat}
    (outside : scope.depth = 0)
    (found : site.table.find? name = some slot)
    (codeAt : site.function.CodeAt offset [.defineModule (UInt16.ofNat slot)]) :
    site.Performs (site.At scope offset [value])
      (Interpreter.change fun store => store.declare name value)
      (fun _ => site.At scope (offset + 3) []) := by
  intro store state isAt outcome final ends
  cases ends
  have noBlocks : store.blocks = [] := by
    have depth := congrArg Scope.depth isAt.inScope
    rw [outside] at depth
    exact List.length_eq_zero_iff.mp depth
  have declares : store.declare name value = store.define name value := by
    unfold Store.declare
    rw [noBlocks]
  rcases isAt.present with ⟨contents, steps, mirrors, rfl⟩
  have executes :
      ∀ recorded,
        execute site.environment site.depth (.defineModule (UInt16.ofNat slot))
            (site.state
              ⟨offset + 3, value :: valuesOf store.blocks, contents, site.written store.texts,
                recorded⟩) =
          (.ok .proceed,
            site.state
              ⟨offset + 3, valuesOf store.blocks, contents.setIfInBounds slot value,
                site.written store.texts, recorded⟩) := by
    intro recorded
    simp only [execute, toNat_of_found found, andProceed, run_bind, run_pure, pop_state,
      setModuleSlot_state]
  refine leads_of_proceeds codeAt nofun executes fun recorded => ?_
  show site.At scope (offset + 3) [] (store.declare name value) _
  rw [declares]
  refine ⟨isAt.inScope, isAt.few, ?_, isAt.room_of_cons, _, recorded, mirrors.define found ?_, rfl⟩
  · exact fun other member => isAt.assigned other (List.mem_cons_of_mem _ member)
  · exact isAt.assigned value List.mem_cons_self

/-- In a block the value on top of the stack becomes a local variable where it is. -/
theorem At.declare
    (isAt : site.At scope offset [value] store state)
    (inside : 0 < scope.depth)
    (room : scope.locals.length < Scope.maxLocals)
    (name : String) :
    site.At (scope.declared name) offset [] (store.declare name value) state := by
  rcases isAt with ⟨inScope, few, assigned, fits, contents, steps, mirrors, isState⟩
  rcases store with ⟨blocks, globals, texts⟩
  cases blocks with
  | nil =>
      subst inScope
      cases inside
  | cons block outer =>
      refine ⟨?_, room, assigned, fits, contents, steps, mirrors, isState⟩
      subst inScope
      rfl

/-! ## Output -/

theorem performs_print
    (codeAt : site.function.CodeAt offset [.print]) :
    site.Performs (site.At scope offset (value :: temporaries))
      (Interpreter.change fun store => store.write (site.heap.display value ++ "\n"))
      (fun _ => site.At scope (offset + 1) temporaries) := by
  intro store state isAt outcome final ends
  cases ends
  rcases isAt.present with ⟨contents, steps, mirrors, rfl⟩
  have writes :
      (site.written store.texts).push (site.heap.display value ++ "\n") =
        site.written (store.write (site.heap.display value ++ "\n")).texts := by
    simp [written, Store.write]
  have executes :
      ∀ recorded,
        execute site.environment site.depth .print
            (site.state
              ⟨offset + 1, value :: temporaries ++ valuesOf store.blocks, contents,
                site.written store.texts, recorded⟩) =
          (.ok .proceed,
            site.state
              ⟨offset + 1, temporaries ++ valuesOf store.blocks, contents,
                site.written (store.write (site.heap.display value ++ "\n")).texts, recorded⟩) := by
    intro recorded
    simp only [List.cons_append, execute, andProceed, run_bind, run_pure, pop_state, look, write,
      change, ← writes]
    rfl
  refine leads_of_proceeds codeAt (fun _ _ => Instruction.noConfusion) executes fun recorded => ?_
  refine ⟨isAt.inScope, isAt.few, ?_, isAt.room_of_cons, contents, recorded, mirrors, rfl⟩
  exact fun other member => isAt.assigned other (List.mem_cons_of_mem _ member)

/-! ## Blocks -/

theorem At.enter
    (isAt : site.At scope offset temporaries store state) :
    site.At scope.enter offset temporaries store.enter state where
  inScope := by
    rw [← isAt.inScope]
    rfl
  few := isAt.few
  assigned := isAt.assigned
  room := isAt.room
  present := isAt.present

/-- When a block is left, its variables are popped. -/
theorem performs_leave
    {inner : Scope}
    {count : Nat}
    (leaves : inner.leave = (count, scope))
    (inside : 0 < inner.depth)
    (codeAt : site.function.CodeAt offset (List.replicate count .pop)) :
    site.Performs (site.At inner offset []) (Interpreter.change Store.leave)
      (fun _ => site.At scope (offset + count) []) := by
  intro store state isAt outcome final ends
  cases ends
  rcases isAt with ⟨inScope, few, assigned, fits, contents, steps, mirrors, rfl⟩
  rcases store with ⟨blocks, globals, texts⟩
  cases blocks with
  | nil =>
      subst inScope
      cases inside
  | cons block outer =>
      subst inScope
      rw [leave_scopeOf] at leaves
      cases leaves
      have split := valuesOf_cons block outer
      have dropping :
          site.At (scopeOf outer) offset (block.map Prod.snd ++ [])
            ⟨outer, globals, texts⟩
            (site.state ⟨offset, valuesOf (block :: outer), contents,
              site.written texts, steps⟩) := by
        rw [List.append_nil]
        refine ⟨rfl, ?_, ?_, ?_, contents, steps, mirrors, ?_⟩
        · rw [length_locals_scopeOf] at few ⊢
          simp only [split, List.length_append] at few
          omega
        · rw [← split]
          exact assigned
        · rw [← split]
          exact fits
        · rw [split]
      have length : (block.map Prod.snd).length = block.length := List.length_map _
      rw [← length] at codeAt ⊢
      exact dropping.popAll codeAt

end ScriptEngine.Imperative.Site
