import ScriptEngine.Proofs.Collection.Container
import ScriptEngine.Proofs.Number.Exact

/-!
# Arrays are lists

What can be done with an array is a `Sequence.Use`: a call of one of its methods or a
subscript.  `Sequence.Amounts` says what a use amounts to for a list of values, without
reference to how an index is checked: an index denotes a position if it is a number with that
value, so the two zeros denote the same position.  The check compares exact integers; it accepts
the indices that a comparison of doubles accepts (`Sequence.checkedPosition_eq`).

The main theorem says that any number of uses, one after the other and with any arguments,
does with the contents of an array what it amounts to for the list (`sequences_are_lists`).
-/

namespace ScriptEngine

/-- An index denotes a position if it is a number with that value. -/
def Value.Denotes (index : Value) (position : Nat) : Prop :=
  ∃ number, index = .number number ∧ Number.value? number = some (position : ℚ)

/-- What is wrong with an index that denotes no position of an array. -/
inductive Value.Fails : Value → IndexProblem → Prop where
  | notANumber {index : Value} (other : index.number? = none) : Fails index .notANumber
  /-- The number is infinite, not a number at all, or has a fraction. -/
  | notAnInteger {number : Float}
      (other : ∀ integer : Int, Number.value? number ≠ some (integer : ℚ)) :
      Fails (.number number) .notAnInteger
  | outOfBounds {number : Float} {integer : Int}
      (isInteger : Number.value? number = some (integer : ℚ)) :
      Fails (.number number) .outOfBounds

/-- An index below `2 ^ 53` is denoted by what equals its number. -/
theorem Value.denotes_iff_equals {index : Value} {position : Nat} (small : position < 2 ^ 53) :
    index.Denotes position ↔ index.equals (countValue position) = true := by
  have isCount := Number.value?_count small
  constructor
  · rintro ⟨number, rfl, isPosition⟩
    exact (Number.beq_iff_of_value? isPosition isCount).mpr rfl
  · intro equal
    cases index with
    | number number => exact ⟨number, rfl, Number.value?_of_beq isCount equal⟩
    | _ => cases equal

theorem Value.Denotes.unique
    {index : Value}
    {first second : Nat}
    (denotesFirst : index.Denotes first)
    (denotesSecond : index.Denotes second) :
    first = second := by
  obtain ⟨number, rfl, isFirst⟩ := denotesFirst
  obtain ⟨_, ⟨rfl⟩, isSecond⟩ := denotesSecond
  exact_mod_cast Option.some.inj (isFirst.symm.trans isSecond)

theorem Value.Fails.unique
    {index : Value}
    {first second : IndexProblem}
    (failsFirst : index.Fails first)
    (failsSecond : index.Fails second) :
    first = second := by
  cases failsFirst with
  | notANumber other =>
      cases failsSecond with
      | notANumber => rfl
      | notAnInteger => cases other
      | outOfBounds => cases other
  | notAnInteger other =>
      cases failsSecond with
      | notANumber noNumber => cases noNumber
      | notAnInteger => rfl
      | outOfBounds isInteger => exact absurd isInteger (other _)
  | outOfBounds isInteger =>
      cases failsSecond with
      | notANumber noNumber => cases noNumber
      | notAnInteger other => exact absurd isInteger (other _)
      | outOfBounds => rfl

/-- The callable of a method of arrays. -/
def SequenceMethod.native (method : SequenceMethod) : Native where
  name := method.name
  arity := .exactly method.arity
  routine := .sequence method

/-- These callables are the methods of the class of arrays. -/
theorem Blueprint.methods_array :
    Blueprint.array.methods = SequenceMethod.all.map SequenceMethod.native :=
  rfl

namespace Sequence

/-! ## Positions -/

/--
The check of an index with comparisons of doubles: the number must have no fraction, not lie
below zero, and not lie above the last position or, where it is allowed, the end.  An empty
array has no last position, so it is refused on its own.
-/
def checkedPosition (size : Nat) (allowEnd : Bool) (index : Value) : Except IndexProblem Nat :=
  match index with
  | .number number =>
    match Number.integer? number with
    | none => .error .notAnInteger
    | some integer =>
      let limit := if allowEnd then size else size - 1
      if number < 0 ∨ (UInt64.ofNat limit).toFloat < number ∨ allowEnd = false ∧ size = 0 then
        .error .outOfBounds
      else
        .ok integer.toNat
  | _ => .error .notANumber

/-- As long as the limit is a double, both checks accept the same indices. -/
theorem checkedPosition_eq
    {size : Nat}
    (small : size < 2 ^ 53)
    (allowEnd : Bool)
    (index : Value) :
    checkedPosition size allowEnd index =
      positionBelow (if allowEnd then size + 1 else size) index := by
  cases index with
  | number number =>
      unfold checkedPosition positionBelow
      rcases isInteger : Number.integer? number with _ | integer
      · simp only [isInteger]
      · have isValue := Number.integer?_eq_some_iff.mp isInteger
        have belowZero : number < 0 ↔ integer < 0 := by
          rw [Number.lt_iff_of_value? isValue Number.value?_zero]
          exact_mod_cast Iff.rfl
        obtain ⟨limit, isLimit⟩ : ∃ limit, limit = if allowEnd then size else size - 1 := ⟨_, rfl⟩
        have bounded : limit < 2 ^ 53 := by
          split at isLimit <;> omega
        have aboveLimit : (UInt64.ofNat limit).toFloat < number ↔ (limit : Int) < integer := by
          rw [Number.lt_iff_of_value? (Number.value?_count bounded) isValue]
          exact_mod_cast Iff.rfl
        have inside_iff :
            (0 ≤ integer ∧ integer < Int.ofNat (if allowEnd then size + 1 else size)) ↔
              ¬ (number < 0 ∨ (UInt64.ofNat limit).toFloat < number ∨
                allowEnd = false ∧ size = 0) := by
          rw [belowZero, aboveLimit, isLimit]
          cases allowEnd with
          | false =>
              simp only [Bool.false_eq_true, if_false, Int.ofNat_eq_natCast, true_and]
              omega
          | true =>
              simp only [if_true, Int.ofNat_eq_natCast, reduceCtorEq, false_and, or_false]
              omega
        rw [isLimit] at inside_iff
        by_cases inside : 0 ≤ integer ∧ integer < Int.ofNat (if allowEnd then size + 1 else size)
        · simp only [isInteger]
          rw [if_pos inside, if_neg (inside_iff.mp inside)]
        · simp only [isInteger]
          rw [if_neg inside, if_pos (not_not.mp (inside_iff.not.mp inside))]
  | _ => rfl

/--
The check of an index finds the position below the bound that the index denotes, or says what
is wrong with an index that denotes none.
-/
theorem positionBelow_cases (bound : Nat) (index : Value) :
    (∃ position,
      positionBelow bound index = .ok position ∧ index.Denotes position ∧ position < bound) ∨
      ∃ problem,
        positionBelow bound index = .error problem ∧ index.Fails problem ∧
          ∀ position, position < bound → ¬ index.Denotes position := by
  cases index with
  | number number =>
      rcases isInteger : Number.integer? number with _ | integer
      · have noInteger (integer : Int) : Number.value? number ≠ some (integer : ℚ) := by
          rw [Ne, ← Number.integer?_eq_some_iff, isInteger]
          exact nofun
        refine .inr ⟨.notAnInteger, ?_, .notAnInteger noInteger, ?_⟩
        · unfold positionBelow
          simp only [isInteger]
        · rintro position - ⟨_, ⟨rfl⟩, isPosition⟩
          exact noInteger position (by exact_mod_cast isPosition)
      · have isValue := Number.integer?_eq_some_iff.mp isInteger
        have denotes_iff (position : Nat) :
            (Value.number number).Denotes position ↔ integer = position := by
          constructor
          · rintro ⟨_, ⟨rfl⟩, isPosition⟩
            exact_mod_cast Option.some.inj (isValue.symm.trans isPosition)
          · rintro rfl
            exact ⟨number, rfl, by exact_mod_cast isValue⟩
        by_cases inside : 0 ≤ integer ∧ integer < Int.ofNat bound
        · refine .inl ⟨integer.toNat, ?_, (denotes_iff _).mpr ?_, ?_⟩
          · unfold positionBelow
            simp only [isInteger, if_pos inside]
          · omega
          · have := inside.2
            simp only [Int.ofNat_eq_natCast] at this
            omega
        · refine .inr ⟨.outOfBounds, ?_, .outOfBounds isValue, fun position below denotes => ?_⟩
          · unfold positionBelow
            simp only [isInteger, if_neg inside]
          · rw [denotes_iff] at denotes
            simp only [Int.ofNat_eq_natCast] at inside
            omega
  | _ => exact .inr ⟨.notANumber, rfl, .notANumber rfl, fun _ _ => nofun⟩

/-! ## Uses of an array -/

/-- What can be done with an array. -/
inductive Use where
  | push (value : Value)
  | pop
  | len
  | insert (index value : Value)
  | removeAt (index : Value)
  | clear
  | read (index : Value)
  | write (index value : Value)

/-- Uses the array at a position of the heap. -/
def Use.act (environment : Environment) (id : Nat) : Use → Action Value
  | push value => Container.call environment SequenceMethod.push.native (.object id) [value]
  | pop => Container.call environment SequenceMethod.pop.native (.object id) []
  | len => Container.call environment SequenceMethod.len.native (.object id) []
  | insert index value =>
    Container.call environment SequenceMethod.insert.native (.object id) [index, value]
  | removeAt index =>
    Container.call environment SequenceMethod.removeAt.native (.object id) [index]
  | clear => Container.call environment SequenceMethod.clear.native (.object id) []
  | read index => Action.getIndex (.object id) index
  | write index value => do
    Action.setIndex (.object id) index value
    return value

/--
What a use of the array at a position of the heap amounts to: with the values in the array
before, the outcome and the values in the array afterwards.
-/
inductive Amounts (id : Nat) :
    Use → List Value → Except Interruption Value → List Value → Prop where
  | push {values : List Value} {value : Value} :
      Amounts id (.push value) values (.ok (.object id)) (values ++ [value])
  | pop {values : List Value} :
      Amounts id .pop values (.ok (values.getLast?.getD .null)) values.dropLast
  | len {values : List Value} :
      Amounts id .len values (.ok (countValue values.length)) values
  | insert {values : List Value} {index value : Value} {position : Nat}
      (denotes : index.Denotes position)
      (inside : position ≤ values.length) :
      Amounts id (.insert index value) values (.ok .null) (values.insertIdx position value)
  | insertNowhere {values : List Value} {index value : Value} {problem : IndexProblem}
      (fails : index.Fails problem)
      (outside : ∀ position, position ≤ values.length → ¬ index.Denotes position) :
      Amounts id (.insert index value) values (.error (.fault (.host problem.message))) values
  | removeAt {values : List Value} {index : Value} {position : Nat}
      (denotes : index.Denotes position)
      (inside : position < values.length) :
      Amounts id (.removeAt index) values (.ok values[position]) (values.eraseIdx position)
  | removeNowhere {values : List Value} {index : Value} {problem : IndexProblem}
      (fails : index.Fails problem)
      (outside : ∀ position, position < values.length → ¬ index.Denotes position) :
      Amounts id (.removeAt index) values (.error (.fault (.host problem.message))) values
  | clear {values : List Value} : Amounts id .clear values (.ok .null) []
  | read {values : List Value} {index : Value} {position : Nat}
      (denotes : index.Denotes position)
      (inside : position < values.length) :
      Amounts id (.read index) values (.ok values[position]) values
  | readNowhere {values : List Value} {index : Value} {problem : IndexProblem}
      (fails : index.Fails problem)
      (outside : ∀ position, position < values.length → ¬ index.Denotes position) :
      Amounts id (.read index) values (.error (.fault (.badIndex problem.message))) values
  | write {values : List Value} {index value : Value} {position : Nat}
      (denotes : index.Denotes position)
      (inside : position < values.length) :
      Amounts id (.write index value) values (.ok value) (values.set position value)
  | writeNowhere {values : List Value} {index value : Value} {problem : IndexProblem}
      (fails : index.Fails problem)
      (outside : ∀ position, position < values.length → ¬ index.Denotes position) :
      Amounts id (.write index value) values (.error (.fault (.badIndex problem.message))) values

/-- What a use amounts to depends on nothing but the values in the array. -/
theorem Amounts.unique
    {id : Nat}
    {use : Use}
    {values contents contents' : List Value}
    {outcome outcome' : Except Interruption Value}
    (first : Amounts id use values outcome contents)
    (second : Amounts id use values outcome' contents') :
    outcome = outcome' ∧ contents = contents' := by
  cases first with
  | push | pop | len | clear => cases second; exact ⟨rfl, rfl⟩
  | insert denotes inside | removeAt denotes inside | read denotes inside
  | write denotes inside =>
      cases second
      next other _ =>
        obtain rfl := denotes.unique other
        exact ⟨rfl, rfl⟩
      next _ outside => exact absurd denotes (outside _ inside)
  | insertNowhere fails outside | removeNowhere fails outside | readNowhere fails outside
  | writeNowhere fails outside =>
      cases second
      next denotes inside => exact absurd denotes (outside _ inside)
      next other _ =>
        obtain rfl := fails.unique other
        exact ⟨rfl, rfl⟩

/-! ## One use -/

variable {environment : Environment} {state : State} {id : Nat} {values : List Value}

/-- A method works on the elements of the array. -/
theorem call_of_carries
    (carries : state.heap.Carries id (.sequence values.toArray))
    (method : SequenceMethod)
    (arguments : List Value)
    (accepts : arguments.length = method.arity)
    (room : state.stack.size + 3 ≤ environment.settings.limits.stackCapacity) :
    Container.attempt (Container.call environment method.native (.object id) arguments) state =
      (Container.outcome .host
          (method.apply (.object id) (arguments.headD .null) (arguments.tail.headD .null)
            values.toArray).1,
        state.setData id
          (.sequence
            (method.apply (.object id) (arguments.headD .null) (arguments.tail.headD .null)
              values.toArray).2)) := by
  have few : method.arity ≤ 2 := by cases method <;> decide
  have calls :
      Container.attempt (Container.call environment method.native (.object id) arguments) state =
        _ :=
    Container.attempt_call (.object id) arguments rfl (congrArg Arity.exactly accepts.symm)
      (by omega)
  simp only [Container.runSequence, carries.updateData] at calls
  exact calls

theorem getD_of_lt {position : Nat} (inside : position < values.length) :
    values.toArray.getD position .null = values[position] := by
  simp [inside]

/-- A use of an array does with its contents what it amounts to. -/
theorem act_amounts
    (carries : state.heap.Carries id (.sequence values.toArray))
    (room : state.stack.size + 3 ≤ environment.settings.limits.stackCapacity)
    (use : Use) :
    ∃ outcome contents,
      Amounts id use values outcome contents ∧
        Container.attempt (use.act environment id) state =
          (outcome, state.setData id (.sequence contents.toArray)) := by
  have same := State.setData_self carries
  cases use with
  | push value =>
      have calls := call_of_carries carries .push [value] rfl room
      simp only [SequenceMethod.apply, List.push_toArray] at calls
      exact ⟨_, _, .push, calls⟩
  | pop =>
      have calls := call_of_carries carries .pop [] rfl room
      simp only [SequenceMethod.apply, Sequence.pop, List.back?_toArray, List.pop_toArray] at calls
      exact ⟨_, _, .pop, calls⟩
  | len => exact ⟨_, _, .len, call_of_carries carries .len [] rfl room⟩
  | clear => exact ⟨_, _, .clear, call_of_carries carries .clear [] rfl room⟩
  | insert index value =>
      have calls := call_of_carries carries .insert [index, value] rfl room
      rcases positionBelow_cases (values.toArray.size + 1) index with
        ⟨position, isPosition, denotes, below⟩ | ⟨problem, isProblem, fails, outside⟩
      · simp only [SequenceMethod.apply, List.headD_cons, List.tail_cons, Sequence.insert,
          isPosition, List.insertIdxIfInBounds_toArray] at calls
        exact ⟨_, _, .insert denotes (Nat.le_of_lt_succ below), calls⟩
      · simp only [SequenceMethod.apply, List.headD_cons, Sequence.insert, isProblem] at calls
        refine ⟨_, _, .insertNowhere fails fun position below => ?_, calls⟩
        exact outside position (Nat.lt_succ_of_le below)
  | removeAt index =>
      have calls := call_of_carries carries .removeAt [index] rfl room
      rcases positionBelow_cases values.toArray.size index with
        ⟨position, isPosition, denotes, below⟩ | ⟨problem, isProblem, fails, outside⟩
      · simp only [SequenceMethod.apply, List.headD_cons, Sequence.removeAt, isPosition,
          getD_of_lt below, List.eraseIdxIfInBounds_toArray] at calls
        exact ⟨_, _, .removeAt denotes below, calls⟩
      · simp only [SequenceMethod.apply, List.headD_cons, Sequence.removeAt, isProblem] at calls
        exact ⟨_, _, .removeNowhere fails outside, calls⟩
  | read index =>
      have reads := Action.getIndex_of_carries carries rfl index
      rcases positionBelow_cases values.toArray.size index with
        ⟨position, isPosition, denotes, below⟩ | ⟨problem, isProblem, fails, outside⟩
      · refine ⟨.ok values[position], values, .read denotes below, ?_⟩
        simp only [NativeData.readIndex, Sequence.read, isPosition] at reads
        refine Container.attempt_of_setData ?_
        rw [← getD_of_lt below, same]
        exact reads
      · refine ⟨.error (.fault (.badIndex problem.message)), values, .readNowhere fails outside, ?_⟩
        simp only [NativeData.readIndex, Sequence.read, isProblem] at reads
        refine Container.attempt_of_setData ?_
        rw [same]
        exact reads
  | write index value =>
      have writes := Action.setIndex_of_carries carries rfl index value
      rcases positionBelow_cases values.toArray.size index with
        ⟨position, isPosition, denotes, below⟩ | ⟨problem, isProblem, fails, outside⟩
      · refine ⟨_, _, .write denotes below, ?_⟩
        simp only [NativeData.writeIndex, Sequence.write, isPosition,
          List.setIfInBounds_toArray] at writes
        refine Container.attempt_of_setData ?_
        simp only [Use.act, bind, ExceptT.bind, ExceptT.mk, StateT.bind, ExceptT.bindCont, writes]
        rfl
      · refine ⟨_, _, .writeNowhere fails outside, ?_⟩
        simp only [NativeData.writeIndex, Sequence.write, isProblem] at writes
        refine Container.attempt_of_setData ?_
        simp only [Use.act, bind, ExceptT.bind, ExceptT.mk, StateT.bind, ExceptT.bindCont, writes]
        rfl

end Sequence

/-- The heap with one array, which is empty. -/
def Heap.ofOneArray : Heap where
  objects := #[{ classId := 0, data := some (.sequence #[]) }]

theorem Heap.ofOneArray_carries : Heap.ofOneArray.Carries 0 (.sequence #[]) where
  isObject := by decide
  isData := rfl
  isFree := rfl

/--
Whatever is done with an array, one use after the other, has the outcomes and leaves the
contents that it amounts to for a list, and nothing else changes.  An index that denotes no
position is refused, whatever it is, and leaves the contents alone.  Below `2 ^ 53` the number
of a position denotes it, and so does every value that equals this number.
-/
theorem sequences_are_lists
    (environment : Environment)
    (state : State)
    (id : Nat)
    (elements : Array Value)
    (carries : state.heap.Carries id (.sequence elements))
    (room : state.stack.size + 3 ≤ environment.settings.limits.stackCapacity)
    (uses : List Sequence.Use) :
    (∃ outcomes contents,
      Container.useAll (Sequence.Use.act environment id) uses state =
          (outcomes, state.setData id (.sequence contents.toArray)) ∧
        ∀ outcomes' contents',
          Container.AmountsAll (Sequence.Amounts id) uses elements.toList outcomes' contents' ↔
            outcomes' = outcomes ∧ contents' = contents) ∧
      ∀ position, position < 2 ^ 53 →
        ∀ index : Value,
          index.Denotes position ↔ index.equals (countValue position) = true := by
  refine ⟨?_, fun _ small _ => Value.denotes_iff_equals small⟩
  -- The array holds the values of a list, and nothing else has changed.
  have one {after : State} {values : List Value} (use : Sequence.Use)
      (isAfter : after = state.setData id (.sequence values.toArray)) :
      ∃ outcome last contents,
        Sequence.Amounts id use values outcome contents ∧
          Container.attempt (use.act environment id) after = (outcome, last) ∧
            last = state.setData id (.sequence contents.toArray) := by
    subst isAfter
    have carriesAfter :
        (state.setData id (.sequence values.toArray)).heap.Carries id
          (.sequence values.toArray) :=
      carries.setData _
    obtain ⟨outcome, contents, amounts, acts⟩ := Sequence.act_amounts carriesAfter room use
    rw [State.setData_setData] at acts
    exact ⟨outcome, _, contents, amounts, acts, rfl⟩
  obtain ⟨outcomes, after, contents, amounts, actAll, rfl⟩ :=
    Container.useAll_amounts
      (fun after (values : List Value) => after = state.setData id (.sequence values.toArray))
      one (State.setData_self carries).symm uses
  refine ⟨outcomes, contents, actAll, fun outcomes' contents' => ⟨fun others => ?_, ?_⟩⟩
  · exact others.unique amounts Sequence.Amounts.unique
  · rintro ⟨rfl, rfl⟩
    exact amounts

/-- The two zeros denote the same position, and a text denotes none. -/
theorem useAll_ofOneArray :
    Heap.ofOneArray.Carries 0 (.sequence #[]) ∧
      Container.useAll (Sequence.Use.act { settings := {}, host := Host.empty } 0)
          [.push (.bool true), .read (.number (-0)), .insert (.string "0") .null, .pop]
          { heap := Heap.ofOneArray } =
        ([.ok (.object 0), .ok (.bool true),
            .error (.fault (.host "Array index must be a number.")), .ok (.bool true)],
          State.setData { heap := Heap.ofOneArray } 0 (.sequence #[])) := by
  obtain ⟨⟨outcomes, contents, acts, amounts⟩, -⟩ :=
    sequences_are_lists { settings := {}, host := Host.empty } { heap := Heap.ofOneArray } 0 #[]
      Heap.ofOneArray_carries (by decide)
      [.push (.bool true), .read (.number (-0)), .insert (.string "0") .null, .pop]
  have zero : (Value.number (-0)).Denotes 0 := ⟨-0, rfl, Number.value?_negativeZero⟩
  have nowhere (position : Nat) : ¬ (Value.string "0").Denotes position := nofun
  obtain ⟨rfl, rfl⟩ :=
    (amounts _ _).mp
      (.next .push
        (.next (.read zero (by decide))
          (.next (.insertNowhere (.notANumber rfl) fun position _ => nowhere position)
            (.next .pop .nothing))))
  exact ⟨Heap.ofOneArray_carries, acts⟩

end ScriptEngine
