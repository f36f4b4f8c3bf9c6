import Mathlib
import ScriptEngine.Blueprint
import ScriptEngine.Machine.Run

/-!
# Containers in the heap

An instance that carries native data which nobody has locked is a container
(`Heap.Carries`).  A change of the data replaces the data and nothing else, so whatever is
done to a container is described by its data alone.

A method of arrays or maps is called as compiled code does it (`Container.call`): receiver and
arguments are on the stack, and the result takes their place.
-/

namespace ScriptEngine

namespace Heap

/-- An instance carries data that is not in the hands of a host routine. -/
structure Carries (heap : Heap) (id : Nat) (data : NativeData) : Prop where
  isObject : id < heap.objects.size
  isData : (heap.objectAt id).data = some data
  isFree : (heap.objectAt id).locked = false

variable {heap : Heap} {id : Nat} {data : NativeData}

theorem objectAt_eq_getElem (isObject : id < heap.objects.size) :
    heap.objectAt id = heap.objects[id] := by
  unfold objectAt
  rw [Array.getD_eq_getD_getElem?, Array.getElem?_eq_getElem isObject, Option.getD_some]

theorem Carries.getElem?_eq (carries : heap.Carries id data) :
    heap.objects[id]? = some (heap.objectAt id) := by
  rw [objectAt_eq_getElem carries.isObject, Array.getElem?_eq_getElem carries.isObject]

/-- The object that is left when the data is replaced. -/
theorem objectAt_setData (isObject : id < heap.objects.size) (other : NativeData) :
    (heap.setData id other).objectAt id = { heap.objectAt id with data := some other } := by
  have inside : id < (heap.setData id other).objects.size := by
    simpa [setData] using isObject
  rw [objectAt_eq_getElem inside, objectAt_eq_getElem isObject]
  exact Array.getElem_modify_self _ _

theorem Carries.setData (carries : heap.Carries id data) (other : NativeData) :
    (heap.setData id other).Carries id other where
  isObject := by simpa [Heap.setData] using carries.isObject
  isData := by rw [objectAt_setData carries.isObject]
  isFree := by
    rw [objectAt_setData carries.isObject]
    exact carries.isFree

/-- Data that is replaced by itself stays. -/
theorem Carries.setData_self (carries : heap.Carries id data) : heap.setData id data = heap := by
  have same : heap.objects.modify id (fun object => { object with data := some data }) =
      heap.objects := by
    apply Array.ext (Array.size_modify ..)
    intro position inside _
    rw [Array.getElem_modify]
    split
    · rename_i isId
      subst isId
      rw [← objectAt_eq_getElem carries.isObject, ← carries.isData]
    · rfl
  unfold Heap.setData
  rw [same]

/-- Only the last replacement counts. -/
theorem setData_setData (first second : NativeData) :
    (heap.setData id first).setData id second = heap.setData id second := by
  have same :
      (heap.objects.modify id fun object => { object with data := some first }).modify id
          (fun object => { object with data := some second }) =
        heap.objects.modify id fun object => { object with data := some second } := by
    apply Array.ext (by simp)
    intro position inside _
    simp only [Array.getElem_modify]
    split <;> rfl
  unfold setData
  rw [same]

/-- A change of the data replaces the data. -/
theorem Carries.updateData
    {α : Type}
    (carries : heap.Carries id data)
    (refused : α)
    (change : NativeData → α × NativeData) :
    heap.updateData id refused change = ((change data).1, heap.setData id (change data).2) := by
  have isElement := objectAt_eq_getElem carries.isObject
  have isData := carries.isData
  have isFree := carries.isFree
  rcases object : heap.objectAt id with ⟨classId, fields, carried, locked⟩
  rw [object] at isElement isData isFree
  subst isData isFree
  have replaced (other : NativeData) :
      (heap.objects.setIfInBounds id default).setIfInBounds id
          { classId, fields, data := some other, locked := false } =
        heap.objects.modify id (fun object => { object with data := some other }) := by
    apply Array.ext (by simp)
    intro position inside _
    rw [Array.getElem_modify]
    split
    · rename_i isId
      subst isId
      rw [← isElement]
      simp
    · rename_i isOther
      have inBounds : position < heap.objects.size := by simpa using inside
      simp only [Array.setIfInBounds_setIfInBounds]
      exact Array.getElem_setIfInBounds_ne inBounds isOther
  unfold Heap.updateData Heap.setData
  rw [object]
  simp only [replaced]

end Heap

namespace State

/-- The state with other data in an instance. -/
def setData (state : State) (id : Nat) (data : NativeData) : State :=
  { state with heap := state.heap.setData id data }

variable {state : State} {id : Nat} {data : NativeData}

theorem setData_setData (first second : NativeData) :
    (state.setData id first).setData id second = state.setData id second := by
  unfold setData
  rw [Heap.setData_setData]

theorem setData_self (carries : state.heap.Carries id data) : state.setData id data = state := by
  unfold setData
  rw [carries.setData_self]

/-- The state without what was pushed onto a stack of a size. -/
theorem cut_append (state : State) (values : List Value) :
    { state with stack := (state.stack ++ values.toArray).shrink state.stack.size } = state := by
  have same : (state.stack ++ values.toArray).shrink state.stack.size = state.stack := by
    simp [Array.shrink_eq_take]
  rw [same]

end State

/-- A refusal of a routine of a container as the fault of the call. -/
def Container.outcome (toFault : String → Fault) : Except String α → Except Interruption α
  | .ok value => .ok value
  | .error message => .error (.fault (toFault message))

namespace Action

open Container (outcome)

variable {state : State} {id : Nat} {data : NativeData}

/-- A container that can be subscripted is found. -/
theorem indexable_of_carries
    (carries : state.heap.Carries id data)
    (subscripted : data.isIndexable = true) :
    indexable (.object id) state = (.ok (id, data), state) := by
  have isData := carries.isData
  have isFree := carries.isFree
  simp only [indexable, bind, ExceptT.bind, ExceptT.mk, StateT.bind, ExceptT.bindCont, look,
    isData, isFree, subscripted]
  rfl

/-- A subscript reads from the data and changes nothing. -/
theorem getIndex_of_carries
    (carries : state.heap.Carries id data)
    (subscripted : data.isIndexable = true)
    (index : Value) :
    getIndex (.object id) index state = (outcome .badIndex (data.readIndex index), state) := by
  unfold getIndex
  simp only [bind, ExceptT.bind, ExceptT.mk, StateT.bind, ExceptT.bindCont,
    indexable_of_carries carries subscripted]
  rcases data.readIndex index with message | value <;> rfl

/-- An assignment to a subscript replaces the data by what it makes of them. -/
theorem setIndex_of_carries
    (carries : state.heap.Carries id data)
    (subscripted : data.isIndexable = true)
    (index value : Value) :
    setIndex (.object id) index value state =
      (outcome .badIndex (data.writeIndex index value).1,
        state.setData id (data.writeIndex index value).2) := by
  unfold setIndex
  simp only [bind, ExceptT.bind, ExceptT.mk, StateT.bind, ExceptT.bindCont,
    indexable_of_carries carries subscripted, updateHeap, update, carries.updateData]
  rcases data.writeIndex index value with ⟨message | value, changed⟩ <;> rfl

end Action

/-! ## Calls of methods -/

namespace Container

/-- What a native callable does if it is carried out at once. -/
def work? : Routine → Option (Value → List Value → Heap → Except String Value × Heap)
  | .sequence method => some (runSequence method)
  | .dictionary method => some (runDictionary method)
  | .host _ => none

/-- Calls a native callable with a receiver and arguments. -/
def call (environment : Environment) (native : Native) (receiver : Value)
    (arguments : List Value) : Action Value := do
  Machine.pushAll environment (receiver :: arguments)
  let _ ← Action.callNative environment native arguments.length none
  Action.pop

/-- Carries out an action and removes what it leaves on the stack, as the end of a run does. -/
def attempt {α : Type} (action : Action α) (state : State) : Except Interruption α × State :=
  let (outcome, after) := action state
  (outcome, { after with stack := after.stack.shrink state.stack.size })

/-- Nothing is removed if the action leaves the stack as it was. -/
theorem attempt_of_setData
    {α : Type}
    {action : Action α}
    {state : State}
    {id : Nat}
    {data : NativeData}
    {outcome : Except Interruption α}
    (leaves : action state = (outcome, state.setData id data)) :
    attempt action state = (outcome, state.setData id data) := by
  unfold attempt
  rw [leaves]
  exact congrArg (Prod.mk outcome)
    (by simp [State.setData])

variable {environment : Environment}

theorem pushAll_of_room
    {state : State}
    (values : List Value)
    (room : state.stack.size + values.length ≤ environment.settings.limits.stackCapacity) :
    Machine.pushAll environment values state =
      (.ok (), { state with stack := state.stack ++ values.toArray }) := by
  induction values generalizing state with
  | nil => simp [Machine.pushAll, pure, ExceptT.pure, ExceptT.mk, StateT.pure]
  | cons value rest induction =>
      rw [List.length_cons] at room
      have roomHere : state.stack.size < environment.settings.limits.stackCapacity := by omega
      have roomThere :
          ({ state with stack := state.stack.push value } : State).stack.size + rest.length ≤
            environment.settings.limits.stackCapacity := by
        simp only [Array.size_push]
        omega
      simp only [Machine.pushAll, bind, ExceptT.bind, ExceptT.mk, StateT.bind, ExceptT.bindCont,
        Action.push, if_pos roomHere, induction roomThere]
      simp

variable (environment) in
/-- The result of a routine that was carried out at once takes the place of its call. -/
theorem completeAtOnce_of_room
    (state : State)
    (values : List Value)
    (room : state.stack.size < environment.settings.limits.stackCapacity)
    (result : Except String Value) :
    ∃ left : List Value,
      (do
          let _ ← Action.completeAtOnce environment ⟨state.stack.size, none⟩ result
          Action.pop)
          { state with stack := state.stack ++ values.toArray } =
        (outcome .host result, { state with stack := state.stack ++ left.toArray }) := by
  cases result with
  | error message => exact ⟨values, rfl⟩
  | ok value =>
      have cut : (state.stack ++ values.toArray).shrink state.stack.size = state.stack := by
        simp [Array.shrink_eq_take]
      refine ⟨[], ?_⟩
      simp only [bind, ExceptT.bind, ExceptT.mk, StateT.bind, ExceptT.bindCont,
        Action.completeAtOnce, Action.completeHostCall, Action.cutStack, Action.change, cut,
        Action.push, if_pos room, pure, ExceptT.pure, StateT.pure, Action.pop, outcome]
      simp

/-- A call of a method works on the heap and leaves the rest of the state alone. -/
theorem attempt_call
    {state : State}
    {native : Native}
    {work : Value → List Value → Heap → Except String Value × Heap}
    (receiver : Value)
    (arguments : List Value)
    (isWork : work? native.routine = some work)
    (accepts : native.arity = .exactly arguments.length)
    (room : state.stack.size + (arguments.length + 1) ≤
      environment.settings.limits.stackCapacity) :
    attempt (call environment native receiver arguments) state =
      (outcome .host (work receiver arguments state.heap).1,
        { state with heap := (work receiver arguments state.heap).2 }) := by
  obtain ⟨name, arity, routine⟩ := native
  obtain rfl : arity = .exactly arguments.length := accepts
  have pushed := pushAll_of_room (receiver :: arguments) room
  have slot :
      (state.stack ++ (receiver :: arguments).toArray).size - arguments.length - 1 =
        state.stack.size := by
    simp
    omega
  have isReceiver :
      (state.stack ++ (receiver :: arguments).toArray).getD state.stack.size .null = receiver := by
    simp
  have areArguments :
      ((state.stack ++ (receiver :: arguments).toArray).extract (state.stack.size + 1)
        (state.stack ++ (receiver :: arguments).toArray).size).toList = arguments := by
    simp
  have found :
      Action.callNative environment ⟨name, .exactly arguments.length, routine⟩ arguments.length none
          { state with stack := state.stack ++ (receiver :: arguments).toArray } =
        (Action.completeAtOnce environment ⟨state.stack.size, none⟩
            (work receiver arguments state.heap).1)
          { state with
            stack := state.stack ++ (receiver :: arguments).toArray
            heap := (work receiver arguments state.heap).2 } := by
    cases routine with
    | host key => cases isWork
    | _ method =>
        cases isWork
        simp only [Action.callNative, Action.calleeSlot, Action.look, Action.updateHeap,
          Action.update, bind, ExceptT.bind, ExceptT.mk, StateT.bind, ExceptT.bindCont, slot,
          isReceiver, areArguments, ne_eq, not_true_eq_false, if_false]
  have roomForOne : state.stack.size < environment.settings.limits.stackCapacity := by omega
  obtain ⟨left, completes⟩ :=
    completeAtOnce_of_room environment
      { state with heap := (work receiver arguments state.heap).2 }
      (receiver :: arguments) roomForOne (work receiver arguments state.heap).1
  have calls :
      call environment ⟨name, .exactly arguments.length, routine⟩ receiver arguments state =
        (outcome .host (work receiver arguments state.heap).1,
          { state with
            heap := (work receiver arguments state.heap).2
            stack := state.stack ++ left.toArray }) := by
    rw [← completes]
    unfold call
    simp only [bind, ExceptT.bind, ExceptT.mk, StateT.bind, ExceptT.bindCont, pushed, found]
  unfold attempt
  rw [calls]
  exact congrArg (Prod.mk _)
    (State.cut_append { state with heap := (work receiver arguments state.heap).2 } left)

/-! ## One use after the other -/

section Uses

variable {Use Contents : Type}

/-- Uses a container several times, whatever the outcomes are. -/
def useAll (act : Use → Action Value) :
    List Use → State → List (Except Interruption Value) × State
  | [], state => ([], state)
  | use :: later, state =>
    let (outcome, between) := attempt (act use) state
    let (outcomes, after) := useAll act later between
    (outcome :: outcomes, after)

/-- What several uses amount to, if what one amounts to is known. -/
inductive AmountsAll (amounts : Use → Contents → Except Interruption Value → Contents → Prop) :
    List Use → Contents → List (Except Interruption Value) → Contents → Prop where
  | nothing {contents : Contents} : AmountsAll amounts [] contents [] contents
  | next {use : Use} {later : List Use} {before between after : Contents}
      {outcome : Except Interruption Value} {outcomes : List (Except Interruption Value)}
      (first : amounts use before outcome between)
      (rest : AmountsAll amounts later between outcomes after) :
      AmountsAll amounts (use :: later) before (outcome :: outcomes) after

variable {act : Use → Action Value}
  {amounts : Use → Contents → Except Interruption Value → Contents → Prop}

theorem AmountsAll.unique
    {uses : List Use}
    {before after after' : Contents}
    {outcomes outcomes' : List (Except Interruption Value)}
    (first : AmountsAll amounts uses before outcomes after)
    (second : AmountsAll amounts uses before outcomes' after')
    (unique :
      ∀ {use before outcome outcome' after after'},
        amounts use before outcome after →
          amounts use before outcome' after' → outcome = outcome' ∧ after = after') :
    outcomes = outcomes' ∧ after = after' := by
  induction first generalizing outcomes' after' with
  | nothing => cases second; exact ⟨rfl, rfl⟩
  | next one _ induction =>
      cases second with
      | next other more =>
          obtain ⟨rfl, rfl⟩ := unique one other
          obtain ⟨rfl, rfl⟩ := induction more
          exact ⟨rfl, rfl⟩

/-- If every use does what it amounts to wherever contents stand, so do several. -/
theorem useAll_amounts
    (stands : State → Contents → Prop)
    (one :
      ∀ {state before} (use : Use),
        stands state before →
          ∃ outcome after contents,
            amounts use before outcome contents ∧
              attempt (act use) state = (outcome, after) ∧ stands after contents)
    {state : State}
    {before : Contents}
    (standsBefore : stands state before)
    (uses : List Use) :
    ∃ outcomes after contents,
      AmountsAll amounts uses before outcomes contents ∧
        useAll act uses state = (outcomes, after) ∧ stands after contents := by
  induction uses generalizing state before with
  | nil => exact ⟨[], state, before, .nothing, rfl, standsBefore⟩
  | cons use later induction =>
      obtain ⟨outcome, between, contents, first, acts, standsBetween⟩ := one use standsBefore
      obtain ⟨outcomes, after, last, rest, actAll, standsAfter⟩ := induction standsBetween
      refine ⟨outcome :: outcomes, after, last, .next first rest, ?_, standsAfter⟩
      simp only [useAll, acts, actAll]

end Uses

end Container

end ScriptEngine
