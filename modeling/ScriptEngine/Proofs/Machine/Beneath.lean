import ScriptEngine.Proofs.Code.Flow
import ScriptEngine.Proofs.Machine.Framing

/-!
# What lies beneath the operands

An action that finds its operands above a level of the stack leaves the values beneath the
level as they are, and it does the same whatever values lie there (`Action.WorksAbove`).  If
it is a call, what it enters stands above the level too (`Action.CallsAbove`).  An instruction
whose operands lie above slot zero of its function therefore leaves slot zero alone, and
everything beneath it (`Action.execute_above`); a return leaves what lies beneath slot zero
(`Action.leave_above`).

A slot beneath the operands of an instruction that does not address it can hold anything: the
instruction does not notice (`Action.execute_ignores`).
-/

namespace ScriptEngine

/-- The instructions that address a slot of their function, or give up all its slots. -/
def Instruction.usesSlots : Instruction → Bool
  | getLocal _ | setLocal _ | leave => true
  | _ => false

namespace State

/-- The values beneath a level of the stack are the same. -/
def SameBeneath (level : Nat) (before after : State) : Prop :=
  ∀ slot < level, after.stack[slot]? = before.stack[slot]?

namespace SameBeneath

variable {level lower : Nat} {before between after : State} {stack : Array Value}

theorem refl (level : Nat) (state : State) : state.SameBeneath level state :=
  fun _ _ => rfl

theorem trans
    (first : before.SameBeneath level between)
    (second : between.SameBeneath level after) :
    before.SameBeneath level after :=
  fun slot beneath => (second slot beneath).trans (first slot beneath)

theorem mono (same : before.SameBeneath level after) (bound : lower ≤ level) :
    before.SameBeneath lower after :=
  fun slot beneath => same slot (Nat.lt_of_lt_of_le beneath bound)

theorem of_stack (same : after.stack = before.stack) : before.SameBeneath level after := by
  intro slot _
  rw [same]

theorem push (state : State) (value : Value) (bound : level ≤ state.stack.size) :
    state.SameBeneath level { state with stack := state.stack.push value } := by
  intro slot beneath
  show (state.stack.push value)[slot]? = _
  rw [Array.getElem?_push, if_neg (by omega)]

theorem pop (state : State) (bound : level < state.stack.size) :
    state.SameBeneath level { state with stack := state.stack.pop } := by
  intro slot beneath
  show state.stack.pop[slot]? = _
  rw [Array.getElem?_pop, if_pos (by omega)]

theorem setSlot (state : State) {slot : Nat} (value : Value) (bound : level ≤ slot) :
    state.SameBeneath level { state with stack := state.stack.setIfInBounds slot value } := by
  intro place beneath
  show (state.stack.setIfInBounds slot value)[place]? = _
  rw [Array.getElem?_setIfInBounds_ne (by omega)]

theorem cut (state : State) {size : Nat} (bound : level ≤ size) :
    state.SameBeneath level { state with stack := state.stack.shrink size } := by
  intro slot beneath
  show (state.stack.shrink size)[slot]? = _
  rw [← Array.getElem?_toList, Array.toList_shrink, List.getElem?_take_of_lt (by omega),
    Array.getElem?_toList]

end SameBeneath

/-- The state with another value in a slot. -/
def veiled (slot : Nat) (value : Value) (state : State) : State :=
  { state with stack := state.stack.setIfInBounds slot value }

variable {slot : Nat} {value : Value} {state : State}

@[simp]
theorem size_veiled : (state.veiled slot value).stack.size = state.stack.size :=
  Array.size_setIfInBounds

/-- The other slots hold what they held. -/
theorem getElem?_veiled
    {other : Nat}
    (differs : slot ≠ other) :
    (state.veiled slot value).stack[other]? = state.stack[other]? :=
  Array.getElem?_setIfInBounds_ne differs

theorem push_setIfInBounds
    {stack : Array Value}
    (inside : slot < stack.size)
    (value other : Value) :
    (stack.setIfInBounds slot value).push other = (stack.push other).setIfInBounds slot value := by
  rw [← Array.toList_inj]
  simp only [Array.toList_push, Array.toList_setIfInBounds]
  rw [List.set_append_left _ _ (by simpa using inside)]

theorem pop_setIfInBounds (stack : Array Value) (slot : Nat) (value : Value) :
    (stack.setIfInBounds slot value).pop = stack.pop.setIfInBounds slot value := by
  rw [← Array.toList_inj]
  simp only [Array.toList_pop, Array.toList_setIfInBounds, List.dropLast_eq_take, List.take_set,
    List.length_set]

theorem shrink_setIfInBounds (stack : Array Value) (slot size : Nat) (value : Value) :
    (stack.setIfInBounds slot value).shrink size =
      (stack.shrink size).setIfInBounds slot value := by
  rw [← Array.toList_inj]
  simp only [Array.toList_shrink, Array.toList_setIfInBounds, List.take_set]

/-- A text is compiled in the same way. -/
theorem addSource_veiled
    (state : State)
    (mode : CompileMode)
    (id : Nat)
    (source : String) :
    (state.veiled slot value).addSource mode id source =
      ((state.addSource mode id source).1,
        (state.addSource mode id source).2.veiled slot value) := by
  unfold addSource
  simp only [veiled]
  split <;> rfl

end State

open State

/-- The value that a function gives, which has an outcome on top of the stack. -/
def Frame.gives (frame : Frame) (stack : Array Value) (outcome : Value) : Value :=
  if frame.initializer then stack.pop.getD frame.base outcome else outcome

/-- Frames that have been added, and what has been begun, stand above a level. -/
structure Transition.Above (level : Nat) (before after : State) (transition : Transition) :
    Prop where
  frames :
    ∀ place frame,
      before.frames.size ≤ place → after.frames[place]? = some frame → level ≤ frame.base
  host : ∀ call program, transition = .enterHost call program → level ≤ call.slot

theorem Transition.above_of_frames
    {level : Nat}
    {before after : State}
    (same : after.frames = before.frames)
    {transition : Transition}
    (host : ∀ call program, transition = .enterHost call program → level ≤ call.slot) :
    transition.Above level before after := by
  refine ⟨fun place frame outside found => ?_, host⟩
  rw [same, Array.getElem?_eq_none outside] at found
  cases found

/-- Nothing has been entered. -/
theorem Transition.above_proceed
    {level : Nat}
    {before after : State}
    (same : after.frames = before.frames) :
    Transition.Above level before after .proceed :=
  above_of_frames same fun _ _ begins => by cases begins

namespace Action

/-- Whatever value is in a slot, an action does the same and leaves it there. -/
def Ignores (slot : Nat) (action : Action α) (state : State) : Prop :=
  ∀ value,
    action (state.veiled slot value) = ((action state).1, (action state).2.veiled slot value)

/--
An action works on values above a level, `height` before and `later` after it at least, and
leaves the frames as they are.  It does not depend on what lies beneath the level.
-/
structure WorksAbove (level height later : Nat) (action : Action α) : Prop where
  ensures :
    ∀ state : State,
      level + height ≤ state.stack.size →
        action.Ensures state
          (fun _ after =>
            state.SameBeneath level after ∧
              after.frames = state.frames ∧ level + later ≤ after.stack.size)
          fun _ after => state.SameBeneath level after ∧ after.frames = state.frames
  ignores :
    ∀ (state : State) (slot : Nat),
      level + height ≤ state.stack.size → slot < level → action.Ignores slot state

/-- An action touches nothing beneath a level and enters nothing there. -/
def StaysAbove (level : Nat) (action : Action Transition) (state : State) : Prop :=
  action.Ensures state
    (fun transition after => state.SameBeneath level after ∧ transition.Above level state after)
    fun _ after => state.SameBeneath level after

theorem StaysAbove.mono
    {level higher : Nat}
    {action : Action Transition}
    {state : State}
    (stays : action.StaysAbove higher state)
    (bound : level ≤ higher) :
    action.StaysAbove level state := by
  unfold StaysAbove Ensures at stays ⊢
  split <;> rename_i ends <;> rw [ends] at stays
  · rcases stays with ⟨same, above⟩
    refine ⟨same.mono bound, ?_, ?_⟩
    · exact fun place frame outside found =>
        Nat.le_trans bound (above.frames place frame outside found)
    · exact fun call program begins => Nat.le_trans bound (above.host call program begins)
  · exact stays.mono bound

namespace Ignores

variable {slot : Nat} {state : State}

theorem bind
    {first : Action α}
    {next : α → Action β}
    (begins : first.Ignores slot state)
    (goesOn :
      ∀ result after, first state = (.ok result, after) → (next result).Ignores slot after) :
    (first >>= next).Ignores slot state := by
  intro value
  have same := begins value
  rcases outcome : first state with ⟨interruption | result, after⟩
  · rw [outcome] at same
    rw [bind_of_error outcome, bind_of_error same]
  · rw [outcome] at same
    rw [bind_of_ok outcome, bind_of_ok same]
    exact goesOn result after outcome value

/-- What is looked at does not show the slot. -/
theorem look
    {view : State → α}
    {next : α → Action β}
    (hides : ∀ value, view (state.veiled slot value) = view state)
    (goesOn : (next (view state)).Ignores slot state) :
    (Action.look view >>= next).Ignores slot state := by
  intro value
  rw [look_bind, look_bind, hides]
  exact goesOn value

theorem push (limits : Limits) (pushed : Value) (inside : slot < state.stack.size) :
    (push limits pushed).Ignores slot state := by
  intro value
  unfold Action.push
  rw [size_veiled]
  by_cases room : state.stack.size < limits.stackCapacity
  · rw [if_pos room, if_pos room]
    exact Prod.ext rfl
      (congrArg (fun stack => { state with stack }) (push_setIfInBounds inside value pushed))
  · rw [if_neg room, if_neg room]

theorem pop (inside : slot + 1 < state.stack.size) : pop.Ignores slot state := by
  intro value
  have top : (state.veiled slot value).stack.back? = state.stack.back? := by
    rw [Array.back?_eq_getElem?, Array.back?_eq_getElem?, size_veiled]
    exact getElem?_veiled (by omega)
  unfold Action.pop
  rw [top]
  rcases state.stack.back? with _ | popped
  · rfl
  · exact Prod.ext rfl
      (congrArg (fun stack => { state with stack }) (pop_setIfInBounds state.stack slot value))

theorem peek {distance : Nat} (inside : slot + 1 + distance < state.stack.size) :
    (peek distance).Ignores slot state := by
  intro value
  unfold Action.peek
  rw [size_veiled, if_pos (by omega), if_pos (by omega), Array.getD_eq_getD_getElem?,
    Array.getD_eq_getD_getElem?, getElem?_veiled (by omega)]

theorem setSlot {other : Nat} (differs : other ≠ slot) (assigned : Value) :
    (setSlot other assigned).Ignores slot state := by
  intro value
  exact Prod.ext rfl (congrArg (fun stack => { state with stack })
    (Array.setIfInBounds_comm _ _ differs.symm))

theorem cutStack (size : Nat) : (cutStack size).Ignores slot state := by
  intro value
  exact Prod.ext rfl
    (congrArg (fun stack => { state with stack })
      (shrink_setIfInBounds state.stack slot size value))

theorem moveTo (offset : Nat) : (moveTo offset).Ignores slot state :=
  fun _ => rfl

end Ignores

namespace WorksAbove

variable {level height later : Nat} {action : Action α}

theorem bind
    {next : α → Action β}
    {last : Nat}
    (first : WorksAbove level height later action)
    (second : ∀ result, WorksAbove level later last (next result)) :
    WorksAbove level height last (action >>= next) where
  ensures state room := by
    have begins := first.ensures state room
    unfold Ensures at begins ⊢
    rcases outcome : action state with ⟨interruption | result, between⟩
    · rw [outcome] at begins
      rw [bind_of_error outcome]
      exact begins
    · rw [outcome] at begins
      rw [bind_of_ok outcome]
      rcases begins with ⟨same, frames, enough⟩
      have goesOn := (second result).ensures between enough
      unfold Ensures at goesOn
      rw [frames] at goesOn
      split <;> rename_i ends <;> rw [ends] at goesOn
      · exact ⟨same.trans goesOn.1, goesOn.2⟩
      · exact ⟨same.trans goesOn.1, goesOn.2⟩
  ignores state slot room beneath := by
    refine .bind (first.ignores state slot room beneath) fun result between outcome => ?_
    have begins := first.ensures state room
    unfold Ensures at begins
    rw [outcome] at begins
    exact (second result).ignores between slot begins.2.2 beneath

theorem pure (result : α) : WorksAbove level height height (Pure.pure result : Action α) :=
  ⟨fun state room => ⟨.refl level state, rfl, room⟩, fun _ _ _ _ _ => rfl⟩

theorem raise (fault : Fault) : WorksAbove level height later (Action.raise fault : Action α) :=
  ⟨fun state _ => ⟨.refl level state, rfl⟩, fun _ _ _ _ _ => rfl⟩

theorem stuck : WorksAbove level height later (getStuck : Action α) :=
  ⟨fun state _ => ⟨.refl level state, rfl⟩, fun _ _ _ _ _ => rfl⟩

theorem look
    (view : State → α)
    (hides :
      ∀ (state : State) (slot : Nat) (value : Value),
        slot < level → view (state.veiled slot value) = view state) :
    WorksAbove level height height (Action.look view) where
  ensures state room := ⟨.refl level state, rfl, room⟩
  ignores state slot _ beneath value :=
    Prod.ext (congrArg Except.ok (hides state slot value beneath)) rfl

theorem update
    {step : State → α × State}
    (stack : ∀ state, (step state).2.stack = state.stack)
    (frames : ∀ state, (step state).2.frames = state.frames)
    (hides :
      ∀ (state : State) (slot : Nat) (value : Value),
        step (state.veiled slot value) = ((step state).1, (step state).2.veiled slot value)) :
    WorksAbove level height height (Action.update step) where
  ensures state room := ⟨.of_stack (stack state), frames state, by rw [stack]; exact room⟩
  ignores state slot _ _ value := by
    unfold Action.update
    rw [hides]

theorem change
    {step : State → State}
    (stack : ∀ state, (step state).stack = state.stack)
    (frames : ∀ state, (step state).frames = state.frames)
    (hides :
      ∀ (state : State) (slot : Nat) (value : Value),
        step (state.veiled slot value) = (step state).veiled slot value) :
    WorksAbove level height height (Action.change step) where
  ensures state room := ⟨.of_stack (stack state), frames state, by rw [stack]; exact room⟩
  ignores state slot _ _ value := by
    unfold Action.change
    rw [hides]

theorem updateHeap (step : Heap → α × Heap) :
    WorksAbove level height height (Action.updateHeap step) :=
  update (fun _ => rfl) (fun _ => rfl) fun _ _ _ => rfl

theorem changeHeap (step : Heap → Heap) :
    WorksAbove level height height (Action.changeHeap step) :=
  change (fun _ => rfl) (fun _ => rfl) fun _ _ _ => rfl

theorem changeRegistry (step : Registry → Registry) :
    WorksAbove level height height (Action.changeRegistry step) :=
  change (fun _ => rfl) (fun _ => rfl) fun _ _ _ => rfl

theorem push (limits : Limits) (value : Value) :
    WorksAbove level height (height + 1) (push limits value) where
  ensures state room := by
    unfold Ensures Action.push
    by_cases fits : state.stack.size < limits.stackCapacity
    · rw [if_pos fits]
      refine ⟨.push state value (Nat.le_of_add_right_le room), rfl, ?_⟩
      rw [Array.size_push]
      omega
    · rw [if_neg fits]
      exact ⟨.refl level state, rfl⟩
  ignores _ _ _ _ := .push _ _ (by omega)

theorem pop : WorksAbove level (height + 1) height pop where
  ensures state room := by
    have top : state.stack.back? = some state.stack[state.stack.size - 1] := by
      rw [Array.back?_eq_getElem?, Array.getElem?_eq_getElem]
    unfold Ensures Action.pop
    simp only [top]
    refine ⟨.pop state (by omega), trivial, ?_⟩
    rw [Array.size_pop]
    omega
  ignores _ _ _ _ := .pop (by omega)

theorem peek {distance : Nat} (enough : distance < height) :
    WorksAbove level height height (peek distance) where
  ensures state room := by
    unfold Ensures
    rcases peek_cases distance state with ⟨value, outcome⟩ | outcome <;> rw [outcome]
    · exact ⟨.refl level state, rfl, room⟩
    · exact ⟨.refl level state, rfl⟩
  ignores _ _ _ _ := .peek (by omega)

theorem setSlot {slot : Nat} (bound : level ≤ slot) (value : Value) :
    WorksAbove level height height (setSlot slot value) where
  ensures state room := by
    refine ⟨.setSlot state value bound, rfl, ?_⟩
    show _ ≤ (state.stack.setIfInBounds slot value).size
    rwa [Array.size_setIfInBounds]
  ignores _ _ _ _ := .setSlot (by omega) _

theorem constant (index : Nat) : WorksAbove level height height (constant index) := by
  unfold Action.constant frame
  refine bind (look _ fun _ _ _ _ => rfl) fun frame => ?_
  split
  · exact pure _
  · exact raise _

theorem name (index : UInt16) : WorksAbove level height height (name index) := by
  unfold Action.name
  refine bind (constant _) fun value => ?_
  split
  · exact pure _
  · exact raise _

/-! ### Variables and properties -/

theorem moduleSlot (slot : Nat) : WorksAbove level height height (moduleSlot slot) := by
  unfold Action.moduleSlot home raiseUndefined
  refine bind (look _ fun _ _ _ _ => rfl) fun home =>
    bind (look _ fun _ _ _ _ => rfl) fun value? => ?_
  split
  · exact pure _
  · exact bind (look _ fun _ _ _ _ => rfl) fun home =>
      bind (look _ fun _ _ _ _ => rfl) fun name? => raise _

theorem setModuleSlot (slot : Nat) (value : Value) :
    WorksAbove level height height (setModuleSlot slot value) := by
  unfold Action.setModuleSlot home
  exact bind (look _ fun _ _ _ _ => rfl) fun home => changeRegistry _

theorem moduleVariable (moduleId : Nat) (name : String) :
    WorksAbove level height height (moduleVariable moduleId name) := by
  unfold Action.moduleVariable
  refine bind (look _ fun _ _ _ _ => rfl) fun value? => ?_
  split
  · exact pure _
  · exact raise _

theorem property (receiver : Value) (name : String) :
    WorksAbove level height height (property receiver name) := by
  unfold Action.property
  split
  · refine bind (look _ fun _ _ _ _ => rfl) fun value? => ?_
    split
    · exact pure _
    · refine bind (look _ fun _ _ _ _ => rfl) fun method? => ?_
      split
      · exact updateHeap _
      · exact raise _
  · refine bind (look _ fun _ _ _ _ => rfl) fun method? => ?_
    split
    · exact updateHeap _
    · exact raise _
  · exact moduleVariable _ _
  · exact raise _

theorem indexable (receiver : Value) : WorksAbove level height height (indexable receiver) := by
  unfold Action.indexable
  split
  · refine bind (look _ fun _ _ _ _ => rfl) fun data? => ?_
    split
    · exact raise _
    · refine bind (look _ fun _ _ _ _ => rfl) fun locked => ?_
      split
      · exact raise _
      · split
        · exact pure _
        · exact raise _
  · exact raise _

theorem getIndex (receiver index : Value) :
    WorksAbove level height height (getIndex receiver index) := by
  unfold Action.getIndex
  refine bind (indexable receiver) fun found => ?_
  split
  split
  · exact pure _
  · exact raise _

theorem setIndex (receiver index value : Value) :
    WorksAbove level height height (setIndex receiver index value) := by
  unfold Action.setIndex
  refine bind (indexable receiver) fun found => bind (updateHeap _) fun result => ?_
  split
  · exact pure _
  · exact raise _

/-! ### Operators -/

variable {environment : Environment}

theorem binaryNumeric (operation : Float → Float → Value) :
    WorksAbove level (height + 2) (height + 1) (binaryNumeric environment operation) := by
  unfold Action.binaryNumeric
  refine bind pop fun right => bind pop fun left => ?_
  split
  · exact push _ _
  · exact raise _

theorem add : WorksAbove level (height + 2) (height + 1) (add environment) := by
  unfold Action.add
  refine bind pop fun right => bind pop fun left => ?_
  split
  · exact push _ _
  · exact raise _

theorem attach (store : Heap → Nat → String → Value → Heap) (name : String) :
    WorksAbove level (height + 2) (height + 1) (attach store name) := by
  unfold Action.attach
  refine bind pop fun method => bind (peek (by omega)) fun owner => ?_
  split
  · exact changeHeap _
  · exact raise _

theorem setProperty (name : String) :
    WorksAbove level (height + 2) (height + 1) (setProperty environment name) := by
  unfold Action.setProperty
  refine bind pop fun value => bind pop fun receiver => ?_
  split
  · exact bind (changeHeap _) fun _ => push _ _
  · exact raise _

theorem requestSource (name : String) :
    WorksAbove level height height (requestSource environment name) := by
  unfold Action.requestSource
  split
  · exact pure _
  · exact bind (change (fun _ => rfl) (fun _ => rfl) fun _ _ _ => rfl) fun _ => pure _

end WorksAbove

/-! ## Calls -/

/--
A call finds its callee and arguments above a level, and what it gives at once stands there
as well.  It does not depend on what lies beneath the level.
-/
structure CallsAbove (level height : Nat) (action : Action Transition) : Prop where
  stays :
    ∀ state : State,
      level + height ≤ state.stack.size →
        action.StaysAbove level state ∧
          ∀ after, action state = (.ok .proceed, after) → level < after.stack.size
  ignores :
    ∀ (state : State) (slot : Nat),
      level + height ≤ state.stack.size → slot < level → action.Ignores slot state

namespace CallsAbove

variable {level height later : Nat} {environment : Environment}

theorem andThen
    {action : Action α}
    {next : α → Action Transition}
    (first : WorksAbove level height later action)
    (second : ∀ result, CallsAbove level later (next result)) :
    CallsAbove level height (action >>= next) where
  stays state room := by
    have begins := first.ensures state room
    unfold StaysAbove
    unfold Ensures at begins ⊢
    rcases outcome : action state with ⟨interruption | result, between⟩
    · rw [outcome] at begins
      rw [bind_of_error outcome]
      exact ⟨begins.1, nofun⟩
    · rw [outcome] at begins
      rw [bind_of_ok outcome]
      rcases begins with ⟨same, frames, enough⟩
      rcases (second result).stays between enough with ⟨goesOn, stands⟩
      refine ⟨?_, stands⟩
      unfold StaysAbove Ensures at goesOn
      split <;> rename_i ends <;> rw [ends] at goesOn
      · rcases goesOn with ⟨sameAfter, above⟩
        refine ⟨same.trans sameAfter, ?_, above.host⟩
        rw [← frames]
        exact above.frames
      · exact same.trans goesOn
  ignores state slot room beneath := by
    refine .bind (first.ignores state slot room beneath) fun result between outcome => ?_
    have begins := first.ensures state room
    unfold Ensures at begins
    rw [outcome] at begins
    exact (second result).ignores between slot begins.2.2 beneath

theorem raise (fault : Fault) : CallsAbove level height (Action.raise fault) :=
  ⟨fun state _ => ⟨.refl level state, nofun⟩, fun _ _ _ _ _ => rfl⟩

/-- The callee lies above the level; the rest of the call works from there. -/
theorem slot
    {argumentCount : Nat}
    {next : Nat → Action Transition}
    (goesOn :
      ∀ slot, level ≤ slot → CallsAbove slot (argumentCount + 1) (next slot)) :
    CallsAbove level (argumentCount + 1) (calleeSlot argumentCount >>= next) where
  stays state room := by
    have bound : level ≤ state.stack.size - argumentCount - 1 := by omega
    rcases (goesOn _ bound).stays state (by omega) with ⟨stays, stands⟩
    exact ⟨stays.mono bound, fun after done => Nat.lt_of_le_of_lt bound (stands after done)⟩
  ignores state slot room beneath := by
    refine .look (fun value => by rw [size_veiled]) ?_
    exact (goesOn _ (by omega)).ignores state slot (by omega) (by omega)

theorem proceed (enough : 0 < height) : CallsAbove level height (pure .proceed) := by
  refine ⟨fun state room => ⟨⟨.refl level state, Transition.above_proceed rfl⟩, ?_⟩,
    fun _ _ _ _ _ => rfl⟩
  rintro after ⟨⟩
  omega

theorem enterFunction (function : Function) (argumentCount : Nat) (initializer : Bool) :
    CallsAbove level (argumentCount + 1) (do
      pushFrame environment.settings.limits function argumentCount initializer
      return .proceed) := by
  unfold pushFrame
  simp only [raise_bind]
  split
  · exact raise _
  · rw [bind_assoc]
    refine andThen (.look _ fun _ _ _ _ => rfl) fun size => ?_
    split
    · exact raise _
    · rw [bind_assoc]
      refine slot fun slot bound => ⟨fun state room => ⟨⟨.refl slot state, ?_, nofun⟩, ?_⟩,
        fun _ _ _ _ _ => rfl⟩
      · intro place frame outside found
        change (state.frames.push _)[place]? = some frame at found
        rw [Array.getElem?_push] at found
        split at found
        · cases found
          exact Nat.le_refl slot
        · rw [Array.getElem?_eq_none outside] at found
          cases found
      · rintro after ⟨⟩
        show slot < state.stack.size
        omega

/-- A result takes the place of a callee that lies above the level. -/
theorem completeHostCall
    (environment : Environment)
    {call : HostCall}
    (bound : level ≤ call.slot)
    (state : State)
    (inside : call.slot ≤ state.stack.size)
    (value : Value) :
    let completes : Action Transition := do
      completeHostCall environment call value
      return .proceed
    completes.StaysAbove level state ∧
      ∀ after, completes state = (.ok .proceed, after) → level < after.stack.size := by
  have cut := SameBeneath.cut state bound
  have size : level ≤ (state.stack.shrink call.slot).size := by
    rw [Array.size_shrink]
    omega
  have pushes :
      WorksAbove level 0 1 (push environment.settings.limits value) := .push _ _
  have pushed := pushes.ensures { state with stack := state.stack.shrink call.slot } size
  unfold Action.completeHostCall StaysAbove
  simp only [bind_assoc]
  unfold Ensures at pushed ⊢
  rcases outcome :
      push environment.settings.limits value
        { state with stack := state.stack.shrink call.slot } with ⟨interruption | _, after⟩
  · rw [outcome] at pushed
    rw [bind_of_ok (rfl : cutStack call.slot state = _), bind_of_error outcome]
    refine ⟨cut.trans pushed.1, ?_⟩
    rintro final ⟨⟩
  · rw [outcome] at pushed
    rw [bind_of_ok (rfl : cutStack call.slot state = _), bind_of_ok outcome]
    rcases pushed with ⟨same, frames, enough⟩
    have proceeds {final : State} (kept : final.frames = after.frames) :
        Transition.Above level state final .proceed :=
      Transition.above_proceed (kept.trans frames)
    rcases call.constructed with _ | created
    · refine ⟨⟨cut.trans same, proceeds rfl⟩, ?_⟩
      rintro final ⟨⟩
      omega
    · refine ⟨⟨(cut.trans same).trans (.setSlot after created (by omega)), proceeds rfl⟩, ?_⟩
      rintro final ⟨⟩
      show level < (after.stack.setIfInBounds _ created).size
      rw [Array.size_setIfInBounds]
      omega

/-- What lies beneath the callee does not matter for the result. -/
theorem completeHostCall_ignores
    (environment : Environment)
    {call : HostCall}
    {slot : Nat}
    (beneath : slot < call.slot)
    (state : State)
    (inside : call.slot ≤ state.stack.size)
    (value : Value) :
    (do
      Action.completeHostCall environment call value
      return .proceed : Action Transition).Ignores slot state := by
  unfold Action.completeHostCall
  simp only [bind_assoc]
  refine .bind (.cutStack _) fun _ cut isCut => ?_
  cases isCut
  have room : slot < (state.stack.shrink call.slot).size := by
    rw [Array.size_shrink]
    omega
  refine .bind (.push _ _ room) fun _ pushed isPushed => ?_
  have larger : slot + 1 < pushed.stack.size := by
    unfold Action.push at isPushed
    split at isPushed
    · cases isPushed
      simp only [Array.size_push]
      omega
    · cases isPushed
  split
  · intro other
    unfold setTop Action.change
    have differs : (pushed.veiled slot other).stack.size - 1 ≠ slot := by
      rw [size_veiled]
      omega
    refine Prod.ext rfl (congrArg (fun stack => { pushed with stack }) ?_)
    rw [size_veiled] at differs ⊢
    exact Array.setIfInBounds_comm _ _ differs.symm
  · exact fun _ => rfl

theorem completeAtOnce (slot : Nat) (constructed : Option Value) (result : Except String Value) :
    CallsAbove slot height (completeAtOnce environment { slot, constructed } result) := by
  unfold Action.completeAtOnce
  split
  · exact ⟨fun state room =>
      completeHostCall _ (Nat.le_refl _) state (Nat.le_of_add_right_le room) _,
      fun state other room beneath =>
        completeHostCall_ignores _ beneath state (Nat.le_of_add_right_le room) _⟩
  · exact raise _

theorem callNative (native : Native) (argumentCount : Nat) (constructed : Option Value) :
    CallsAbove level (argumentCount + 1)
      (callNative environment native argumentCount constructed) := by
  unfold Action.callNative
  extract_lets goOn
  have goesOn : CallsAbove level (argumentCount + 1) (goOn ()) := by
    refine slot fun slot bound => ?_
    refine andThen (.look _ fun state other value beneath => ?_) fun receiver =>
      andThen (.look _ fun state other value beneath => ?_) fun arguments => ?_
    · rw [Array.getD_eq_getD_getElem?, Array.getD_eq_getD_getElem?, getElem?_veiled (by omega)]
    · refine congrArg Array.toList (Array.ext_getElem? fun place => ?_)
      rw [size_veiled, Array.getElem?_extract, Array.getElem?_extract, size_veiled]
      split
      · exact getElem?_veiled (by omega)
      · rfl
    simp only
    split
    · exact andThen (.updateHeap _) fun result => completeAtOnce _ _ _
    · exact andThen (.updateHeap _) fun result => completeAtOnce _ _ _
    · refine ⟨fun between room => ⟨⟨.refl _ between, Transition.above_of_frames rfl ?_⟩, ?_⟩,
        fun _ _ _ _ _ => rfl⟩
      · rintro call program ⟨⟩
        exact Nat.le_refl _
      · rintro final ⟨⟩
  split
  · simp only [raise_bind]
    split
    · exact raise _
    · exact goesOn
  · exact goesOn

theorem construct (classId argumentCount : Nat) :
    CallsAbove level (argumentCount + 1) (construct environment classId argumentCount) := by
  unfold Action.construct
  refine slot fun slot _ => ?_
  refine andThen (.updateHeap _) fun id => andThen (.setSlot (Nat.le_refl _) _) fun _ => ?_
  refine andThen (.look _ fun _ _ _ _ => rfl) fun initializer? => ?_
  split
  · exact andThen (.look _ fun _ _ _ _ => rfl) fun function => enterFunction _ _ _
  · exact andThen (.look _ fun _ _ _ _ => rfl) fun native => callNative _ _ _
  · exact raise _
  · simp only [raise_bind]
    split
    · exact raise _
    · exact proceed (Nat.succ_pos _)

theorem callValue (callee : Value) (argumentCount : Nat) :
    CallsAbove level (argumentCount + 1) (callValue environment callee argumentCount) := by
  induction callee generalizing level with
  | function id =>
      unfold Action.callValue
      exact andThen (.look _ fun _ _ _ _ => rfl) fun function => enterFunction _ _ _
  | boundMethod id receiver method _ induction =>
      unfold Action.callValue
      exact slot fun slot _ => andThen (.setSlot (Nat.le_refl _) receiver) fun _ => induction
  | classObject id =>
      unfold Action.callValue
      exact construct id argumentCount
  | hostFunction id | hostMethod id =>
      unfold Action.callValue
      exact andThen (.look _ fun _ _ _ _ => rfl) fun native => callNative _ _ _
  | _ =>
      unfold Action.callValue
      exact raise _

theorem invoke (name : String) (argumentCount : Nat) :
    CallsAbove level (argumentCount + 1) (invoke environment name argumentCount) := by
  unfold Action.invoke
  refine andThen (.peek (Nat.lt_succ_self _)) fun receiver => slot fun slot _ => ?_
  split
  · refine andThen (.look _ fun _ _ _ _ => rfl) fun value? => ?_
    split
    · exact andThen (.setSlot (Nat.le_refl _) _) fun _ => callValue _ _
    · refine andThen (.look _ fun _ _ _ _ => rfl) fun method? => ?_
      split
      · exact callValue _ _
      · exact raise _
  · refine andThen (.look _ fun _ _ _ _ => rfl) fun method? => ?_
    split
    · exact callValue _ _
    · exact raise _
  · exact andThen (.moduleVariable _ _) fun value =>
      andThen (.setSlot (Nat.le_refl _) _) fun _ => callValue _ _
  · exact raise _

theorem importModule (name : String) : CallsAbove level 0 (importModule environment name) := by
  have pushes (value : Value) :
      CallsAbove level 0 (do push environment.settings.limits value; return .proceed) :=
    andThen (.push _ value) fun _ => proceed Nat.one_pos
  unfold Action.importModule
  refine andThen (.look _ fun _ _ _ _ => rfl) fun existing? =>
    andThen (.look _ fun _ _ _ _ => rfl) fun loaded? => ?_
  split
  · exact pushes _
  · refine andThen (.requestSource name) fun source? => ?_
    split
    · split
      · exact andThen (.changeRegistry _) fun _ => pushes _
      · exact raise _
    · refine andThen (.update (fun _ => rfl) (fun _ => rfl) fun _ _ _ => rfl) fun id => ?_
      have compiles (source : String) : WorksAbove level 0 0 (compileModule .run id source) :=
        .update (fun state => (state.frames_addSource _ _ _).1)
          (fun state => (state.frames_addSource _ _ _).2)
          fun state _ _ => state.addSource_veiled _ _ _
      refine andThen (compiles _) fun compiled => ?_
      split
      · exact raise _
      · exact andThen (.changeRegistry _) fun _ =>
          andThen (.push _ _) fun _ => callValue _ 0

/-- What a call from outside pushes and calls stands above the values that were there. -/
theorem enter
    (environment : Environment)
    (depth : Nat)
    (callee : Value)
    (arguments : List Value) :
    CallsAbove level 0 (Machine.enter environment depth callee arguments) := by
  have pushes :
      ∀ (values : List Value) (height : Nat),
        WorksAbove level height (height + values.length) (Machine.pushAll environment values) := by
    intro values
    induction values with
    | nil => exact fun height => .pure ()
    | cons value rest induction =>
        intro height
        unfold Machine.pushAll
        rw [List.length_cons, Nat.add_comm rest.length 1, ← Nat.add_assoc]
        exact .bind (.push _ value) fun _ => induction (height + 1)
  unfold Machine.enter
  simp only [raise_bind]
  split
  · exact raise _
  · split
    · exact raise _
    · refine andThen (.push _ callee) fun _ => ?_
      refine andThen (pushes arguments (0 + 1)) fun _ => ?_
      rw [Nat.zero_add, Nat.add_comm]
      exact callValue callee arguments.length

end CallsAbove

/-! ## Instructions -/

section Instructions

variable {environment : Environment} {level height later entryDepth : Nat} {state : State}

/--
An action with `height` operands above a level touches nothing beneath the level, enters
nothing there and does not depend on it.
-/
def Confined (level height : Nat) (action : Action Transition) : Prop :=
  ∀ state : State,
    level + height ≤ state.stack.size →
      action.StaysAbove level state ∧ ∀ slot < level, action.Ignores slot state

theorem CallsAbove.confined
    {action : Action Transition}
    (calls : CallsAbove level height action) :
    Confined level height action :=
  fun state room =>
    ⟨(calls.stays state room).1, fun slot beneath => calls.ignores state slot room beneath⟩

/-- An action after which the innermost function goes on. -/
theorem WorksAbove.confined
    {action : Action Unit}
    (works : WorksAbove level height later action) :
    Confined level height (andProceed action) := by
  refine fun state room =>
    ⟨?_, fun slot beneath => .bind (works.ignores state slot room beneath) fun _ _ _ _ => rfl⟩
  have outcome := works.ensures state room
  unfold StaysAbove andProceed
  unfold Ensures at outcome ⊢
  rcases done : action state with ⟨interruption | _, after⟩
  · rw [done] at outcome
    rw [bind_of_error done]
    exact outcome.1
  · rw [done] at outcome
    rw [bind_of_ok done]
    exact ⟨outcome.1, Transition.above_proceed outcome.2.1⟩

theorem moveTo_confined (offset : Nat) : Confined level height (andProceed (moveTo offset)) := by
  refine fun state room =>
    ⟨⟨.refl level state, fun place frame outside found => ?_, nofun⟩, fun _ _ _ => rfl⟩
  have moved : (moveTo offset state).2.frames.size = state.frames.size := Array.size_modify
  have inside := (Array.getElem?_eq_some_iff.mp found).1
  change place < (moveTo offset state).2.frames.size at inside
  omega

theorem skipBack_confined (distance : Nat) :
    Confined level height (andProceed (skipBack distance)) := by
  intro state room
  have moves (offset : Nat) : Confined level height (andProceed (moveTo offset)) :=
    moveTo_confined offset
  unfold skipBack frame andProceed StaysAbove
  rw [bind_assoc]
  refine ⟨.bind (.look ?_), fun slot beneath => .look (fun _ => rfl) ?_⟩ <;> dsimp only <;> split
  · exact (moves _ state room).1
  · exact .refl level state
  · exact (moveTo_confined _ state room).2 slot beneath
  · exact fun _ => rfl

theorem skipIfFalse_confined (distance : Nat) :
    Confined level (height + 1)
      (andProceed do if (← peek 0).isFalsey then skip distance) := by
  intro state room
  have moves (offset : Nat) : Confined level (height + 1) (andProceed (moveTo offset)) :=
    moveTo_confined offset
  unfold andProceed StaysAbove
  rw [bind_assoc]
  refine ⟨?_, fun slot beneath => .bind (.peek (by omega)) fun value between outcome => ?_⟩
  · unfold Ensures
    rcases peek_cases 0 state with ⟨value, outcome⟩ | outcome
    · rw [bind_of_ok outcome]
      by_cases isFalse : value.isFalsey = true
      · rw [if_pos isFalse]
        exact (moves _ state room).1
      · rw [if_neg isFalse]
        exact ⟨.refl level state, Transition.above_proceed rfl⟩
    · rw [bind_of_error outcome]
      exact .refl level state
  · split
    · exact fun _ => rfl
    · exact fun _ => rfl

/-- An instruction that uses no slots works on its operands only. -/
theorem execute_confined
    (level : Nat)
    {instruction : Instruction}
    (confined : instruction.usesSlots = false) :
    Confined level instruction.takes (execute environment entryDepth instruction) := by
  have works {action : Action Unit} {later : Nat} :
      WorksAbove level instruction.takes later action →
        Confined level instruction.takes (andProceed action) :=
    WorksAbove.confined
  cases instruction with
  | constant | constantLong => exact works (.bind (.constant _) fun _ => .push _ _)
  | pushNull | pushTrue | pushFalse => exact works (.push _ _)
  | pop => exact works (.bind .pop fun _ => .pure ())
  | getModule slot => exact works (.bind (.moduleSlot _) fun _ => .push _ _)
  | setModule slot =>
      exact works
        (.bind (.moduleSlot _) fun _ => .bind (.peek Nat.one_pos) fun _ => .setModuleSlot _ _)
  | defineModule slot => exact works (.bind .pop fun _ => .setModuleSlot _ _)
  | equal => exact works (.bind .pop fun _ => .bind .pop fun _ => .push _ _)
  | greater | less | subtract | multiply | divide | modulo => exact works (.binaryNumeric _)
  | add => exact works .add
  | negateTruth => exact works (.bind .pop fun _ => .push _ _)
  | negate =>
      suffices negates : WorksAbove level 1 1 _ from works negates
      refine .bind .pop fun value => ?_
      split
      · exact .push _ _
      · exact .raise _
  | print =>
      suffices prints : WorksAbove level 1 0 _ from works prints
      exact .bind .pop fun _ => .bind (.look _ fun _ _ _ _ => rfl) fun _ =>
        .change (fun _ => rfl) (fun _ => rfl) fun _ _ _ => rfl
  | jump distance => exact fun state room => moveTo_confined _ state room
  | jumpIfFalse distance => exact skipIfFalse_confined _
  | loop distance => exact skipBack_confined _
  | call argumentCount =>
      exact (CallsAbove.andThen (.peek (Nat.lt_succ_self _)) fun callee =>
        .callValue _ _).confined
  | invoke index argumentCount =>
      exact (CallsAbove.andThen (.name _) fun name => .invoke _ _).confined
  | getLocal | setLocal | leave => cases confined
  | makeClass index =>
      exact works (.bind (.name _) fun _ => .bind (.updateHeap _) fun _ => .push _ _)
  | method index => exact works (.bind (.name _) fun _ => .attach _ _)
  | staticMethod index => exact works (.bind (.name _) fun _ => .attach _ _)
  | getProperty index =>
      exact works
        (.bind (.name _) fun _ => .bind .pop fun _ => .bind (.property _ _) fun _ => .push _ _)
  | setProperty index => exact works (.bind (.name _) fun _ => .setProperty _)
  | getIndex =>
      exact works
        (.bind .pop fun _ => .bind .pop fun _ => .bind (.getIndex _ _) fun _ => .push _ _)
  | setIndex =>
      exact works
        (.bind .pop fun _ => .bind .pop fun _ => .bind .pop fun _ =>
          .bind (.setIndex _ _ _) fun _ => .push _ _)
  | importModule index =>
      exact (CallsAbove.andThen (.name _) fun name => .importModule _).confined

/-- A local variable that is read goes on top. -/
theorem getLocal_stays
    (slot : Nat)
    (room : level ≤ state.stack.size) :
    (andProceed (getLocal environment slot)).StaysAbove level state := by
  unfold getLocal Action.frame andProceed StaysAbove
  simp only [bind_assoc]
  refine .bind (.look (.bind (.look ?_)))
  split
  · have pushes (value : Value) :
        WorksAbove level 0 1 (push environment.settings.limits value) :=
      .push _ _
    exact ((pushes _).confined state room).1
  · exact .refl level state

/-- A local variable other than slot zero lies above slot zero. -/
theorem setLocal_stays
    {frame : Frame}
    (innermost : state.frames.back? = some frame)
    {slot : Nat}
    (notReceiver : slot ≠ 0) :
    (andProceed (setLocal slot)).StaysAbove (frame.base + 1) state := by
  unfold setLocal Action.frame andProceed StaysAbove
  simp only [bind_assoc]
  apply Ensures.bind
  apply Ensures.look
  rw [innermost, Option.getD_some]
  unfold Ensures
  rcases peek_cases 0 state with ⟨value, outcome⟩ | outcome
  · rw [bind_of_ok outcome, look_bind]
    by_cases inside : frame.base + slot < state.stack.size
    · rw [if_pos inside]
      exact ⟨.setSlot state value (by omega), Transition.above_proceed rfl⟩
    · rw [if_neg inside]
      exact .refl _ state
  · rw [bind_of_error outcome]
    exact .refl _ state

/-- An instruction whose operands lie above slot zero leaves slot zero and the rest alone. -/
theorem execute_above
    {frame : Frame}
    (innermost : state.frames.back? = some frame)
    {instruction : Instruction}
    (room : frame.base + instruction.takes < state.stack.size)
    (stays : instruction ≠ .leave)
    (notReceiver : ∀ slot, instruction = .setLocal slot → slot ≠ 0) :
    (execute environment entryDepth instruction).StaysAbove (frame.base + 1) state := by
  have above : frame.base + 1 + instruction.takes ≤ state.stack.size := by
    omega
  cases instruction with
  | getLocal slot => exact getLocal_stays _ above
  | setLocal slot =>
      refine setLocal_stays innermost fun isZero => notReceiver slot rfl ?_
      exact UInt8.toNat_inj.mp isZero
  | leave => exact absurd rfl stays
  | _ => exact (execute_confined (frame.base + 1) rfl state above).1

/-- An instruction does not depend on a slot beneath its operands that it does not address. -/
theorem execute_ignores
    {frame : Frame}
    (innermost : state.frames.back? = some frame)
    {instruction : Instruction}
    {hidden : Nat}
    (room : hidden + instruction.takes < state.stack.size)
    (stays : instruction ≠ .leave)
    (notRead : ∀ slot, instruction = .getLocal slot → frame.base + slot.toNat ≠ hidden)
    (notWritten : ∀ slot, instruction = .setLocal slot → frame.base + slot.toNat ≠ hidden) :
    (execute environment entryDepth instruction).Ignores hidden state := by
  have above : hidden + 1 + instruction.takes ≤ state.stack.size := by
    omega
  cases instruction with
  | getLocal slot =>
      show (andProceed (getLocal environment slot.toNat)).Ignores hidden state
      unfold getLocal Action.frame andProceed
      simp only [bind_assoc]
      refine .look (fun _ => rfl) ?_
      rw [innermost, Option.getD_some]
      refine .look (fun value => getElem?_veiled (notRead slot rfl).symm) ?_
      split
      · exact .bind (.push _ _ (by omega)) fun _ _ _ _ => rfl
      · exact fun _ => rfl
  | setLocal slot =>
      show (andProceed (setLocal slot.toNat)).Ignores hidden state
      unfold setLocal Action.frame andProceed
      simp only [bind_assoc]
      refine .look (fun _ => rfl) ?_
      rw [innermost, Option.getD_some]
      have room : hidden + 1 + 0 < state.stack.size := room
      refine .bind (.peek room) fun value between outcome => ?_
      have same : between = state := by
        rcases peek_cases 0 state with ⟨_, peeks⟩ | peeks
        · exact congrArg Prod.snd (outcome.symm.trans peeks)
        · cases outcome.symm.trans peeks
      subst same
      refine .look (fun value => by rw [size_veiled]) ?_
      split
      · exact .bind (.setSlot (notWritten slot rfl) _) fun _ _ _ _ => rfl
      · exact fun _ => rfl
  | leave => exact absurd rfl stays
  | _ => exact (execute_confined (hidden + 1) rfl state above).2 hidden (Nat.lt_succ_self _)

/-- A return gives a value to whoever has called the function. -/
theorem leave_eq
    {frame : Frame}
    (innermost : state.frames.back? = some frame)
    {outcome : Value}
    (top : state.stack.back? = some outcome) :
    leave environment entryDepth state =
      (if state.frames.pop.size ≤ entryDepth then
        return .finished (frame.gives state.stack outcome)
      else do
        push environment.settings.limits (frame.gives state.stack outcome)
        return .proceed : Action Transition)
        { state with stack := state.stack.pop.shrink frame.base, frames := state.frames.pop } := by
  have pops : pop state = (.ok outcome, { state with stack := state.stack.pop }) := by
    unfold pop
    rw [top]
  unfold leave Action.frame Frame.gives
  rw [bind_of_ok pops, look_bind]
  simp only [innermost, Option.getD_some]
  by_cases initializer : frame.initializer = true
  · simp only [if_pos initializer]
    rfl
  · simp only [if_neg initializer]
    rfl

/-- A return removes the innermost frame, and the call ends if it was the last one. -/
theorem leave_cases
    (environment : Environment)
    (entryDepth : Nat)
    {frame : Frame}
    (innermost : state.frames.back? = some frame)
    {outcome : Value}
    (top : state.stack.back? = some outcome) :
    (leave environment entryDepth state).2.frames = state.frames.pop ∧
      ((leave environment entryDepth state).1 = .ok (.finished (frame.gives state.stack outcome)) ∧
          state.frames.pop.size ≤ entryDepth ∨
        ((leave environment entryDepth state).1 = .ok .proceed ∨
            ∃ interruption, (leave environment entryDepth state).1 = .error interruption) ∧
          entryDepth < state.frames.pop.size) := by
  rw [leave_eq innermost top]
  by_cases ends : state.frames.pop.size ≤ entryDepth
  · rw [if_pos ends]
    exact ⟨rfl, .inl ⟨rfl, ends⟩⟩
  · rw [if_neg ends]
    have deeper := Nat.lt_of_not_le ends
    rcases push_cases environment.settings.limits (frame.gives state.stack outcome)
      { state with stack := state.stack.pop.shrink frame.base, frames := state.frames.pop }
      with pushed | full
    · rw [bind_of_ok pushed]
      exact ⟨rfl, .inr ⟨.inl rfl, deeper⟩⟩
    · rw [bind_of_error full]
      exact ⟨rfl, .inr ⟨.inr ⟨_, rfl⟩, deeper⟩⟩

/-- A return leaves what lies beneath slot zero alone. -/
theorem leave_above
    (environment : Environment)
    (entryDepth : Nat)
    {frame : Frame}
    (innermost : state.frames.back? = some frame)
    (bound : level ≤ frame.base)
    (room : frame.base < state.stack.size) :
    (leave environment entryDepth).StaysAbove level state := by
  have fewer {after : State} {transition : Transition}
      (frames : after.frames = state.frames.pop)
      (host : ∀ call program, transition = .enterHost call program → level ≤ call.slot) :
      transition.Above level state after := by
    refine ⟨fun place frame outside found => ?_, host⟩
    have inside := (Array.getElem?_eq_some_iff.mp found).1
    rw [frames, Array.size_pop] at inside
    omega
  have top : state.stack.back? = some state.stack[state.stack.size - 1] := by
    rw [Array.back?_eq_getElem?, Array.getElem?_eq_getElem]
  have popped : state.SameBeneath level { state with stack := state.stack.pop } :=
    .pop state (by omega)
  have cut := popped.trans (.cut { state with stack := state.stack.pop } bound)
  unfold StaysAbove Ensures
  rw [leave_eq innermost top]
  generalize frame.gives state.stack _ = value
  by_cases ends : state.frames.pop.size ≤ entryDepth
  · rw [if_pos ends]
    exact ⟨cut, fewer rfl (by rintro _ _ ⟨⟩)⟩
  · rw [if_neg ends]
    have pushes : WorksAbove level 0 1 (push environment.settings.limits value) := .push _ _
    have room : level ≤ (state.stack.pop.shrink frame.base).size := by
      rw [Array.size_shrink, Array.size_pop]
      omega
    have pushed :=
      pushes.ensures
        { state with stack := state.stack.pop.shrink frame.base, frames := state.frames.pop } room
    unfold Ensures at pushed
    rcases outcome :
        push environment.settings.limits value
          { state with
            stack := state.stack.pop.shrink frame.base
            frames := state.frames.pop } with ⟨interruption | _, after⟩
    · rw [outcome] at pushed
      rw [bind_of_error outcome]
      exact cut.trans pushed.1
    · rw [outcome] at pushed
      rw [bind_of_ok outcome]
      exact ⟨cut.trans pushed.1, fewer pushed.2.1 (by rintro _ _ ⟨⟩)⟩

/-- A return does not depend on what lies beneath slot zero. -/
theorem leave_ignores
    (environment : Environment)
    (entryDepth : Nat)
    {frame : Frame}
    (innermost : state.frames.back? = some frame)
    {hidden : Nat}
    (beneath : hidden < frame.base)
    (room : frame.base < state.stack.size) :
    (leave environment entryDepth).Ignores hidden state := by
  intro value
  have top : state.stack.back? = some state.stack[state.stack.size - 1] := by
    rw [Array.back?_eq_getElem?, Array.getElem?_eq_getElem]
  have topVeiled : (state.veiled hidden value).stack.back? = state.stack.back? := by
    rw [Array.back?_eq_getElem?, Array.back?_eq_getElem?, size_veiled]
    exact getElem?_veiled (by omega)
  have given (outcome : Value) :
      frame.gives (state.veiled hidden value).stack outcome =
        frame.gives state.stack outcome := by
    have receiver :
        (state.veiled hidden value).stack.pop[frame.base]? = state.stack.pop[frame.base]? := by
      rw [veiled, pop_setIfInBounds, Array.getElem?_setIfInBounds_ne (Nat.ne_of_lt beneath)]
    unfold Frame.gives
    rw [Array.getD_eq_getD_getElem?, Array.getD_eq_getD_getElem?, receiver]
  let cut : State :=
    { state with stack := state.stack.pop.shrink frame.base, frames := state.frames.pop }
  have cutVeiled :
      (state.veiled hidden value).stack.pop.shrink frame.base =
        cut.stack.setIfInBounds hidden value := by
    simp only [veiled, cut, pop_setIfInBounds, shrink_setIfInBounds]
  have room : hidden < cut.stack.size := by
    simp only [cut, Array.size_shrink, Array.size_pop]
    omega
  have sameFrame : (state.veiled hidden value).frames.back? = some frame := innermost
  rw [leave_eq innermost top, leave_eq sameFrame (topVeiled.trans top), given]
  rw [cutVeiled]
  show (if state.frames.pop.size ≤ entryDepth then _ else _ : Action Transition)
    (cut.veiled hidden value) = _
  by_cases ends : state.frames.pop.size ≤ entryDepth
  · rw [if_pos ends]
    rfl
  · rw [if_neg ends]
    exact Ignores.bind (.push _ _ room) (fun _ _ _ _ => rfl) value

end Instructions

end Action

end ScriptEngine
