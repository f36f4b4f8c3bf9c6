import ScriptEngine.Proofs.Machine.Call

/-!
# Executing well-typed code

An instruction of a well-typed function, executed in a state in which the function
is ready, leads to a state in which the machine can go on, or to a fault of the
program.  There is one lemma for every kind of instruction; those that only push,
pop and combine values share theirs.
-/

namespace ScriptEngine

namespace State

variable
  {state : State}
  {frame : Frame}
  {rest : List Frame}
  {subRuns : List SubRun}
  {height : Nat}
  {shape : Shape}

/-- The innermost function stands at a place where the stack has the height it has. -/
theorem Active.continues
    (active : state.Active frame rest subRuns height)
    (shaped : frame.function.ShapeAt frame.offset shape)
    (same : shape.height = height)
    (mark : state.MarkHolds frame.function shape.mark) :
    Continues subRuns .proceed state := by
  subst same
  exact .inl ⟨frame, rest, shape, active, shaped, mark⟩

/-- Callee and arguments are the topmost values of a function that waits for the result. -/
theorem Active.calling
    {argumentCount : Nat}
    (active : state.Active frame rest subRuns (height + argumentCount + 1))
    (shaped : frame.function.ShapeAt frame.offset (.plain (height + 1))) :
    state.Calling subRuns (frame.base + height) argumentCount where
  sound := active.sound
  below := by
    rw [active.frames]
    exact .function active.runs shaped (Nat.add_assoc _ _ _).symm (Nat.le_add_right _ _)
      active.below
  size := by
    have total := active.height
    omega

/-- More functions and modules do not disturb the innermost function. -/
theorem Active.extend
    (active : state.Active frame rest subRuns height)
    {after : State}
    (sound : after.Sound [])
    (extended : state.Extends after)
    (stack : after.stack = state.stack)
    (frames : after.frames = state.frames) :
    after.Active frame rest subRuns height where
  sound := sound
  frames := by
    rw [activeFrames, frames]
    exact active.frames
  runs := active.runs.mono extended.functions extended.modules
  height := by
    rw [stack]
    exact active.height
  below := active.below.mono extended.functions extended.modules

theorem Active.last
    (active : state.Active frame rest subRuns (height + 1)) :
    ∃ value, state.stack.back? = some value := by
  have total := active.height
  rw [Array.back?_eq_getElem?, Array.getElem?_eq_getElem (by omega)]
  exact ⟨_, rfl⟩

end State

namespace Action

open State

variable
  {environment : Environment}
  {state : State}
  {frame : Frame}
  {rest : List Frame}
  {subRuns : List SubRun}
  {height : Nat}
  {success : α → State → Prop}

/-! ## Elementary actions -/

theorem push_ensures
    {value : Value}
    {limits : Limits}
    {success : Unit → State → Prop}
    (active : state.Active frame rest subRuns height)
    (refers : value.Refers state.known)
    (holds :
      Active { state with stack := state.stack.push value } frame rest subRuns (height + 1) →
        success () { state with stack := state.stack.push value }) :
    (push limits value).Ensures state success (Aborts subRuns) :=
  .push (holds (active.push refers)) (active.aborts rfl)

theorem pop_ensures
    {success : Value → State → Prop}
    {failure : Interruption → State → Prop}
    (active : state.Active frame rest subRuns (height + 1))
    (holds :
      ∀ value,
        state.stack.back? = some value →
        value.Refers state.known →
        Active { state with stack := state.stack.pop } frame rest subRuns height →
          success value { state with stack := state.stack.pop }) :
    pop.Ensures state success failure := by
  rcases active.last with ⟨value, last⟩
  exact .pop last
    (holds value last (active.sound.stack value (Array.mem_of_back? last)) active.pop)

theorem peek_ensures
    {distance : Nat}
    {success : Value → State → Prop}
    {failure : Interruption → State → Prop}
    (active : state.Active frame rest subRuns height)
    (inside : distance < height)
    (holds :
      (state.stack.getD (state.stack.size - 1 - distance) .null).Refers state.known →
        success (state.stack.getD (state.stack.size - 1 - distance) .null) state) :
    (peek distance).Ensures state success failure := by
  have total := active.height
  apply Ensures.peek
  · omega
  · exact holds (holds_getD active.sound.stack (Value.refers_null _) _)

theorem frame_eq (active : state.Active frame rest subRuns height) :
    state.frames.back?.getD default = frame := by
  rw [active.back, Option.getD_some]

theorem frame_ensures
    {success : Frame → State → Prop}
    {failure : Interruption → State → Prop}
    (active : state.Active frame rest subRuns height)
    (holds : success frame state) :
    Action.frame.Ensures state success failure := by
  apply Ensures.look
  rw [frame_eq active]
  exact holds

theorem moveTo_ensures
    {success : Unit → State → Prop}
    {failure : Interruption → State → Prop}
    (active : state.Active frame rest subRuns height)
    {offset : Nat}
    (holds : ∀ after, after.Active { frame with offset } rest subRuns height →
      (after.stack = state.stack ∧ after.registry = state.registry) → success () after) :
    (moveTo offset).Ensures state success failure :=
  holds _ (active.moveTo offset) ⟨rfl, rfl⟩

theorem constant_ensures
    {index : Nat}
    {success : Value → State → Prop}
    {failure : Interruption → State → Prop}
    (active : state.Active frame rest subRuns height)
    (inside : index < frame.function.chunk.constants.size)
    (holds : ∀ value, value.Refers state.known → success value state) :
    (constant index).Ensures state success failure := by
  unfold constant
  apply Ensures.bind
  apply frame_ensures active
  have found := Array.getElem?_eq_getElem inside
  rw [Chunk.constant?_eq_getElem?, found]
  exact holds _ (active.runs.constant found)

theorem name_ensures
    {index : UInt16}
    {success : String → State → Prop}
    {failure : Interruption → State → Prop}
    (active : state.Active frame rest subRuns height)
    {slots : Nat}
    (named : CodeContext.HasName { constants := frame.function.chunk.constants, slots } index)
    (holds : ∀ name, success name state) :
    (name index).Ensures state success failure := by
  rcases named with ⟨content, found⟩
  unfold name constant
  apply Ensures.bind
  apply Ensures.bind
  apply frame_ensures active
  simp only at found
  rw [Chunk.constant?_eq_getElem?, found]
  exact holds content

theorem andProceed_ensures
    {action : Action Unit}
    (ensures :
      action.Ensures state (fun _ after => Continues subRuns .proceed after) (Aborts subRuns)) :
    (andProceed action).Ensures state (Continues subRuns) (Aborts subRuns) := by
  unfold andProceed
  apply Ensures.bind
  apply ensures.mono
  intro _ after continues
  exact .pure continues

section Instructions

variable
  {offset : Nat}
  {shape : Shape}
  {instruction : Instruction}

/-- The shape behind an instruction that is always followed by the next one. -/
theorem shapeAt_next
    (steps : frame.function.Steps offset shape instruction)
    (moved : frame.offset = offset + instruction.length)
    (straight : instruction.isStraight = true) :
    frame.function.ShapeAt frame.offset (instruction.after shape) := by
  apply steps.passes
  rw [Instruction.successors_of_isStraight straight, moved]
  exact List.mem_singleton.mpr rfl

/-- An instruction has pushed its result. -/
theorem settles
    (steps : frame.function.Steps offset shape instruction)
    (moved : frame.offset = offset + instruction.length)
    (straight : instruction.isStraight = true)
    (active : state.Active frame rest subRuns height)
    (heights : shape.height - instruction.takes + instruction.gives = height)
    (mark : state.MarkHolds frame.function (instruction.markAfter shape)) :
    Continues subRuns .proceed state :=
  active.continues (shapeAt_next steps moved straight) heights mark

/-! ## Constants and variables -/

/-- A constant above a class leaves the class below the top. -/
theorem markHolds_constant
    (mark : state.MarkHolds frame.function shape.mark)
    (value : Value) :
    MarkHolds { state with stack := state.stack.push value } frame.function
      (if shape.mark = .classOnTop then .classBelowTop else .plain) := by
  split
  · rename_i onTop
    rw [onTop] at mark
    rcases mark with ⟨id, last⟩
    refine ⟨id, ?_⟩
    rw [Array.back?_eq_getElem?] at last
    have inside : state.stack.size - 1 < state.stack.size :=
      (Array.getElem?_eq_some_iff.mp last).1
    simp only [Array.size_push]
    rw [Array.getElem?_push, if_neg (by omega)]
    exact last
  · trivial

theorem constant_executes
    {index : Nat}
    (limits : Limits)
    (active : state.Active frame rest subRuns shape.height)
    (mark : state.MarkHolds frame.function shape.mark)
    (shaped :
      frame.function.ShapeAt frame.offset
        { height := shape.height + 1,
          mark := if shape.mark = .classOnTop then .classBelowTop else .plain })
    (inside : index < frame.function.chunk.constants.size) :
    (andProceed do push limits (← constant index)).Ensures state (Continues subRuns)
      (Aborts subRuns) := by
  apply andProceed_ensures
  apply Ensures.bind
  apply constant_ensures active inside
  intro value refers
  apply push_ensures active refers
  intro pushed
  exact pushed.continues shaped rfl (markHolds_constant mark value)

/-- An instruction ends with pushing its result. -/
theorem push_continues
    {value : Value}
    {limits : Limits}
    (active : state.Active frame rest subRuns height)
    (shaped : frame.function.ShapeAt frame.offset (.plain (height + 1)))
    (refers : value.Refers state.known) :
    (push limits value).Ensures state (fun _ after => Continues subRuns .proceed after)
      (Aborts subRuns) := by
  apply push_ensures active refers
  intro pushed
  exact pushed.continues shaped rfl trivial

/-- The class on top of the stack is still there when it is copied to the top. -/
theorem getLocal_executes
    {slot : UInt8}
    (active : state.Active frame rest subRuns shape.height)
    (mark : state.MarkHolds frame.function shape.mark)
    (steps : frame.function.Steps offset shape (.getLocal slot))
    (moved : frame.offset = offset + (Instruction.getLocal slot).length) :
    (andProceed (getLocal environment slot.toNat)).Ensures state (Continues subRuns)
      (Aborts subRuns) := by
  rcases steps.operands with ⟨_, inside⟩
  change slot.toNat < shape.height at inside
  have total := active.height
  have found : ∃ value, state.stack[frame.base + slot.toNat]? = some value :=
    ⟨_, Array.getElem?_eq_getElem (by omega)⟩
  rcases found with ⟨value, found⟩
  apply andProceed_ensures
  unfold getLocal
  apply Ensures.bind
  apply frame_ensures active
  apply Ensures.bind
  apply Ensures.look
  rw [found]
  apply push_ensures active (active.sound.stack value (Array.mem_of_getElem? found))
  intro pushed
  apply settles steps moved rfl pushed rfl
  simp only [Instruction.markAfter]
  split
  · rename_i onTop
    rcases onTop with ⟨isOnTop, last⟩
    rw [isOnTop] at mark
    rcases mark with ⟨id, isLast⟩
    refine ⟨id, ?_⟩
    have place : frame.base + slot.toNat = state.stack.size - 1 := by
      omega
    rw [place, ← Array.back?_eq_getElem?, isLast] at found
    rw [Array.back?_push, found]
  · trivial

theorem setLocal_executes
    {slot : UInt8}
    (active : state.Active frame rest subRuns shape.height)
    (steps : frame.function.Steps offset shape (.setLocal slot))
    (moved : frame.offset = offset + (Instruction.setLocal slot).length) :
    (andProceed (setLocal slot.toNat)).Ensures state (Continues subRuns) (Aborts subRuns) := by
  rcases steps.operands with ⟨_, -, inside⟩
  have total := active.height
  have takes : 1 < shape.height := steps.takes
  apply andProceed_ensures
  unfold setLocal
  apply Ensures.bind
  apply frame_ensures active
  apply Ensures.bind
  apply peek_ensures active (by omega)
  intro refers
  apply Ensures.bind
  apply Ensures.look
  rw [if_pos (by omega)]
  apply Ensures.change
  apply settles steps moved rfl (active.setSlot _ refers)
  · show shape.height - 1 + 1 = shape.height
    omega
  · trivial

/-- The content of a module variable, or the fault of a variable that is not assigned. -/
theorem moduleSlot_ensures
    {success : Value → State → Prop}
    (active : state.Active frame rest subRuns height)
    (slot : Nat)
    (holds :
      ∀ value,
        (state.registry.moduleAt frame.function.home).get? slot = some value →
        value.Refers state.known →
          success value state) :
    (moduleSlot slot).Ensures state success (Aborts subRuns) := by
  unfold moduleSlot
  apply Ensures.bind
  apply Ensures.look
  rw [frame_eq active]
  apply Ensures.bind
  apply Ensures.look
  split
  · rename_i value found
    apply Ensures.pure
    apply holds value
    · exact (Option.filter_eq_some_iff.mp found).1
    · exact (active.sound.registry.moduleAt active.runs.home).assigned found
  · unfold raiseUndefined
    apply Ensures.bind
    apply Ensures.look
    apply Ensures.bind
    apply Ensures.look
    exact .raise (active.aborts rfl)

theorem setModuleSlot_ensures
    {success : Unit → State → Prop}
    {failure : Interruption → State → Prop}
    (active : state.Active frame rest subRuns height)
    (slot : Nat)
    {value : Value}
    (refers : value.Refers state.known)
    (holds :
      ∀ after,
        after = { state with
          registry := state.registry.modify frame.function.home fun table =>
            table.set slot value } →
        after.Active frame rest subRuns height →
          success () after) :
    (setModuleSlot slot value).Ensures state success failure := by
  unfold setModuleSlot
  apply Ensures.bind
  apply Ensures.look
  rw [frame_eq active]
  apply Ensures.change
  apply holds _ rfl
  apply active.withRegistry
  · exact active.sound.registry.modify (fun _ old => old.set slot refers) _
  · exact Registry.size_modify _ _ _

theorem getModule_executes
    {slot : UInt16}
    (limits : Limits)
    (active : state.Active frame rest subRuns shape.height)
    (mark : state.MarkHolds frame.function shape.mark)
    (steps : frame.function.Steps offset shape (.getModule slot))
    (moved : frame.offset = offset + (Instruction.getModule slot).length) :
    (andProceed do push limits (← moduleSlot slot.toNat)).Ensures state (Continues subRuns)
      (Aborts subRuns) := by
  apply andProceed_ensures
  apply Ensures.bind
  apply moduleSlot_ensures active
  intro value found refers
  apply push_ensures active refers
  intro pushed
  apply settles steps moved rfl pushed rfl
  simp only [Instruction.markAfter]
  split
  · rename_i inSlot
    rw [inSlot] at mark
    rcases mark value found with ⟨id, rfl⟩
    exact ⟨id, Array.back?_push⟩
  · trivial

theorem setModule_executes
    {slot : UInt16}
    (active : state.Active frame rest subRuns shape.height)
    (steps : frame.function.Steps offset shape (.setModule slot))
    (moved : frame.offset = offset + (Instruction.setModule slot).length) :
    (andProceed do
      let _ ← moduleSlot slot.toNat
      setModuleSlot slot.toNat (← peek 0)).Ensures state (Continues subRuns) (Aborts subRuns) := by
  have takes : 1 < shape.height := steps.takes
  apply andProceed_ensures
  apply Ensures.bind
  apply moduleSlot_ensures active
  intro _ _ _
  apply Ensures.bind
  apply peek_ensures active (by omega)
  intro refers
  apply setModuleSlot_ensures active _ refers
  intro after _ assigned
  apply settles steps moved rfl assigned
  · show shape.height - 1 + 1 = shape.height
    omega
  · trivial

/-- A class that is defined as a module variable is the content of the variable. -/
theorem defineModule_executes
    {slot : UInt16}
    (active : state.Active frame rest subRuns shape.height)
    (mark : state.MarkHolds frame.function shape.mark)
    (steps : frame.function.Steps offset shape (.defineModule slot))
    (moved : frame.offset = offset + (Instruction.defineModule slot).length) :
    (andProceed do setModuleSlot slot.toNat (← pop)).Ensures state (Continues subRuns)
      (Aborts subRuns) := by
  have takes : 1 < shape.height := steps.takes
  have split : ∃ lower, shape.height = lower + 1 := ⟨shape.height - 1, by omega⟩
  rcases split with ⟨lower, height⟩
  rw [height] at active
  apply andProceed_ensures
  apply Ensures.bind
  apply pop_ensures active
  intro value last refers popped
  apply setModuleSlot_ensures popped _ refers
  rintro after rfl assigned
  apply settles steps moved rfl assigned
  · show shape.height - 1 + 0 = lower
    omega
  · simp only [Instruction.markAfter]
    split
    · rename_i onTop
      rw [onTop] at mark
      rcases mark with ⟨id, isLast⟩
      rw [last] at isLast
      cases isLast
      intro content found
      change
        ((state.registry.modify frame.function.home _).moduleAt frame.function.home).get? _ = _
        at found
      rw [Registry.moduleAt_modify active.runs.home] at found
      exact ⟨id, Module.Sound.eq_of_get?_set found⟩
    · trivial

/-! ## Operators -/

variable {lower : Nat}

theorem binaryNumeric_executes
    {operation : Float → Float → Value}
    (active : state.Active frame rest subRuns (lower + 2))
    (shaped : frame.function.ShapeAt frame.offset (.plain (lower + 1)))
    (refers : ∀ left right, (operation left right).Refers state.known) :
    (andProceed (binaryNumeric environment operation)).Ensures state (Continues subRuns)
      (Aborts subRuns) := by
  apply andProceed_ensures
  unfold binaryNumeric
  apply Ensures.bind
  apply pop_ensures active
  intro right _ _ first
  apply Ensures.bind
  apply pop_ensures first
  intro left _ _ second
  split
  · exact push_continues second shaped (refers _ _)
  · exact .raise (second.aborts rfl)

theorem add_executes
    (active : state.Active frame rest subRuns (lower + 2))
    (shaped : frame.function.ShapeAt frame.offset (.plain (lower + 1))) :
    (andProceed (add environment)).Ensures state (Continues subRuns) (Aborts subRuns) := by
  apply andProceed_ensures
  unfold add
  apply Ensures.bind
  apply pop_ensures active
  intro right _ _ first
  apply Ensures.bind
  apply pop_ensures first
  intro left _ _ second
  split
  · rename_i value isSum
    have refers : value.Refers state.known := by
      unfold sum? at isSum
      split at isSum <;> cases isSum <;> trivial
    exact push_continues second shaped refers
  · exact .raise (second.aborts rfl)

theorem equal_executes
    (limits : Limits)
    (active : state.Active frame rest subRuns (lower + 2))
    (shaped : frame.function.ShapeAt frame.offset (.plain (lower + 1))) :
    (andProceed do
      let right ← pop
      let left ← pop
      push limits (.bool (left.equals right))).Ensures state (Continues subRuns)
        (Aborts subRuns) := by
  apply andProceed_ensures
  apply Ensures.bind
  apply pop_ensures active
  intro right _ _ first
  apply Ensures.bind
  apply pop_ensures first
  intro left _ _ second
  exact push_continues second shaped trivial

theorem negateTruth_executes
    (limits : Limits)
    (active : state.Active frame rest subRuns (lower + 1))
    (shaped : frame.function.ShapeAt frame.offset (.plain (lower + 1))) :
    (andProceed do push limits (.bool (← pop).isFalsey)).Ensures state (Continues subRuns)
      (Aborts subRuns) := by
  apply andProceed_ensures
  apply Ensures.bind
  apply pop_ensures active
  intro value _ _ popped
  exact push_continues popped shaped trivial

theorem negate_executes
    (limits : Limits)
    (active : state.Active frame rest subRuns (lower + 1))
    (shaped : frame.function.ShapeAt frame.offset (.plain (lower + 1))) :
    (andProceed do
      match ← pop with
      | .number number => push limits (.number (-number))
      | _ => raise .operandNotNumber).Ensures state (Continues subRuns) (Aborts subRuns) := by
  apply andProceed_ensures
  apply Ensures.bind
  apply pop_ensures active
  intro value _ _ popped
  split
  · exact push_continues popped shaped trivial
  · exact .raise (popped.aborts rfl)

theorem pop_executes
    (active : state.Active frame rest subRuns (lower + 1))
    (shaped : frame.function.ShapeAt frame.offset (.plain lower)) :
    (andProceed do let _ ← pop).Ensures state (Continues subRuns) (Aborts subRuns) := by
  apply andProceed_ensures
  apply Ensures.bind
  apply pop_ensures active
  intro value _ _ popped
  exact .pure (popped.continues shaped rfl trivial)

theorem print_executes
    (active : state.Active frame rest subRuns (lower + 1))
    (shaped : frame.function.ShapeAt frame.offset (.plain lower)) :
    (andProceed do
      let value ← pop
      write ((← look fun state => state.heap.display value) ++ "\n")).Ensures state
        (Continues subRuns) (Aborts subRuns) := by
  apply andProceed_ensures
  apply Ensures.bind
  apply pop_ensures active
  intro value _ _ popped
  apply Ensures.bind
  apply Ensures.look
  apply Ensures.change
  exact (popped.withJournal _).continues shaped rfl trivial

/-! ## Jumps -/

theorem skip_ensures
    {success : Unit → State → Prop}
    {failure : Interruption → State → Prop}
    (active : state.Active frame rest subRuns height)
    (distance : Nat)
    (holds :
      ∀ after,
        after.Active { frame with offset := frame.offset + distance } rest subRuns height →
          success () after) :
    (skip distance).Ensures state success failure := by
  unfold skip
  apply Ensures.bind
  apply frame_ensures active
  apply moveTo_ensures active
  intro after moved _
  exact holds after moved

theorem jump_executes
    {distance : UInt16}
    (active : state.Active frame rest subRuns shape.height)
    (steps : frame.function.Steps offset shape (.jump distance))
    (moved : frame.offset = offset + (Instruction.jump distance).length) :
    (andProceed (skip distance.toNat)).Ensures state (Continues subRuns) (Aborts subRuns) := by
  have target := steps.passes (offset + 3 + distance.toNat) (List.mem_singleton.mpr rfl)
  apply andProceed_ensures
  apply skip_ensures active
  intro after skipped
  apply skipped.continues
  · rw [moved]
    exact target
  · rfl
  · trivial

theorem jumpIfFalse_executes
    {distance : UInt16}
    (active : state.Active frame rest subRuns shape.height)
    (steps : frame.function.Steps offset shape (.jumpIfFalse distance))
    (moved : frame.offset = offset + (Instruction.jumpIfFalse distance).length) :
    (andProceed do
      if (← peek 0).isFalsey then
        skip distance.toNat).Ensures state (Continues subRuns) (Aborts subRuns) := by
  have takes : 1 < shape.height := steps.takes
  have heights : shape.height - 1 + 1 = shape.height := by
    omega
  apply andProceed_ensures
  apply Ensures.bind
  apply peek_ensures active (by omega)
  intro _
  split
  · have target := steps.passes (offset + 3 + distance.toNat)
      (List.mem_cons_of_mem _ (List.mem_singleton.mpr rfl))
    apply skip_ensures active
    intro after skipped
    apply skipped.continues
    · rw [moved]
      exact target
    · exact heights
    · trivial
  · have target := steps.passes (offset + 3) List.mem_cons_self
    apply Ensures.pure
    apply active.continues
    · rw [moved]
      exact target
    · exact heights
    · trivial

/-- A backward jump stays inside the code. -/
theorem loop_executes
    {distance : UInt16}
    (active : state.Active frame rest subRuns shape.height)
    (steps : frame.function.Steps offset shape (.loop distance))
    (moved : frame.offset = offset + (Instruction.loop distance).length) :
    (andProceed (skipBack distance.toNat)).Ensures state (Continues subRuns)
      (Aborts subRuns) := by
  have target := steps.passes (offset + 3 - distance.toNat) (List.mem_singleton.mpr rfl)
  have bound : distance.toNat ≤ frame.offset := by
    rw [moved]
    exact steps.backward distance rfl
  apply andProceed_ensures
  unfold skipBack
  apply Ensures.bind
  apply frame_ensures active
  rw [if_pos bound]
  apply moveTo_ensures active
  intro after skipped _
  apply skipped.continues
  · rw [moved]
    exact target
  · rfl
  · trivial

/-! ## Returning -/

/-- The value of a function takes the place of its callee or ends the call from outside. -/
theorem leave_executes
    (active : state.Active frame rest subRuns (lower + 1)) :
    (leave environment (entryDepthOf subRuns)).Ensures state (Continues subRuns)
      (Aborts subRuns) := by
  have total := active.height
  have size : (state.stack.pop.shrink frame.base).size = frame.base := by
    rw [Array.size_shrink, Array.size_pop]
    omega
  have remaining : state.frames.pop.toList.reverse = rest := by
    have whole := congrArg List.reverse active.frames
    rw [List.reverse_reverse, List.reverse_cons] at whole
    rw [Array.toList_pop, whole, List.dropLast_concat, List.reverse_reverse]
  have count : state.frames.pop.size = rest.length := by
    rw [← remaining, List.length_reverse, Array.length_toList]
  unfold leave
  apply Ensures.bind
  apply pop_ensures active
  intro result _ refers popped
  have cut : ∀ value ∈ state.stack.pop.shrink frame.base, value.Refers state.known :=
    fun value member => popped.sound.stack value (mem_of_mem_shrink member)
  have sound :
      Sound []
        { state with stack := state.stack.pop.shrink frame.base, frames := state.frames.pop } :=
    ⟨cut, active.sound.heap, active.sound.functions, active.sound.registry⟩
  -- Whatever the value is, it is left to the frames below.
  have leaves :
      ∀ value : Value,
        value.Refers state.known →
          (do
            cutStack frame.base
            if (← look (·.frames.size)) ≤ entryDepthOf subRuns then
              return .finished value
            else
              push environment.settings.limits value
              return .proceed : Action Transition).Ensures
            { state with stack := state.stack.pop, frames := state.frames.pop }
            (Continues subRuns) (Aborts subRuns) := by
    intro value valueRefers
    apply Ensures.bind
    apply Ensures.change
    apply Ensures.bind
    apply Ensures.look
    split
    · rename_i ended
      apply Ensures.pure
      refine ⟨sound, valueRefers, ?_⟩
      simp only [size, activeFrames, remaining]
      apply active.below.cases_depth.2
      rw [← count]
      exact ended
    · apply Ensures.bind
      apply Ensures.push
      · apply Ensures.pure
        refine .inr ⟨frame.base, sound.withStack (forall_mem_push cut valueRefers), ?_, ?_⟩
        · simp only [Array.size_push, size]
        · simp only [activeFrames, remaining]
          exact active.below
      · apply aborts_of_waits sound
        · simp only [activeFrames, remaining]
          exact active.below
        · exact Nat.le_of_eq size.symm
        · rfl
  apply Ensures.bind
  apply frame_ensures popped
  apply Ensures.bind
  apply Ensures.change
  split
  · apply Ensures.bind
    apply Ensures.look
    apply leaves
    exact holds_getD popped.sound.stack refers _
  · exact leaves result refers

/-! ## Classes, properties and subscripts -/

variable {slots : Nat}

theorem makeClass_executes
    {index : UInt16}
    (limits : Limits)
    (active : state.Active frame rest subRuns height)
    (shaped : frame.function.ShapeAt frame.offset { height := height + 1, mark := .classOnTop })
    (named : CodeContext.HasName { constants := frame.function.chunk.constants, slots } index) :
    (andProceed do
      let name ← name index
      let id ← updateHeap fun heap => heap.addClass { name }
      push limits (.classObject id)).Ensures state (Continues subRuns) (Aborts subRuns) := by
  apply andProceed_ensures
  apply Ensures.bind
  apply name_ensures active named
  intro name
  have added := active.sound.heap.addClass
    (show Class.Refers state.known { name } from ⟨.empty, .empty, nofun⟩)
  apply Ensures.bind
  apply Ensures.updateHeap
  apply push_ensures (active.withHeap added rfl)
  · trivial
  · intro pushed
    exact pushed.continues shaped rfl ⟨_, Array.back?_push⟩

/-- A method is attached to the class below it, which is on top afterwards. -/
theorem attach_executes
    {store : Heap → Nat → String → Value → Heap}
    {index : UInt16}
    (active : state.Active frame rest subRuns (lower + 2))
    (shaped : frame.function.ShapeAt frame.offset { height := lower + 1, mark := .classOnTop })
    (named : CodeContext.HasName { constants := frame.function.chunk.constants, slots } index)
    (mark : state.MarkHolds frame.function .classBelowTop)
    (keeps :
      ∀ id name method,
        method.Refers state.known → (store state.heap id name method).Sound state.known [])
    (same : ∀ id name method, (store state.heap id name method).functions = state.heap.functions) :
    (andProceed do attach store (← name index)).Ensures state (Continues subRuns)
      (Aborts subRuns) := by
  rcases mark with ⟨id, isClass⟩
  have total := active.height
  have place : state.stack.pop[state.stack.pop.size - 1]? = some (.classObject id) := by
    rw [Array.getElem?_pop, Array.size_pop, if_pos (by omega)]
    exact isClass
  apply andProceed_ensures
  apply Ensures.bind
  apply name_ensures active named
  intro name
  unfold attach
  apply Ensures.bind
  apply pop_ensures active
  intro method _ refers popped
  apply Ensures.bind
  apply peek_ensures popped (Nat.succ_pos _)
  intro _
  simp only [Array.getD_eq_getD_getElem?, Nat.sub_zero, place, Option.getD_some]
  apply Ensures.change
  apply (popped.withHeap (keeps id name method refers) (same id name method)).continues shaped rfl
  exact ⟨id, by rw [Array.back?_eq_getElem?]; exact place⟩

theorem getProperty_executes
    {index : UInt16}
    (limits : Limits)
    (active : state.Active frame rest subRuns (lower + 1))
    (shaped : frame.function.ShapeAt frame.offset (.plain (lower + 1)))
    (named : CodeContext.HasName { constants := frame.function.chunk.constants, slots } index) :
    (andProceed do
      let name ← name index
      let receiver ← pop
      push limits (← property receiver name)).Ensures state (Continues subRuns)
        (Aborts subRuns) := by
  apply andProceed_ensures
  apply Ensures.bind
  apply name_ensures active named
  intro name
  apply Ensures.bind
  apply pop_ensures active
  intro receiver _ refers popped
  apply Ensures.bind
  apply (property_ensures popped refers name).mono
  rintro value after ⟨read, valueRefers⟩
  exact push_continues read shaped valueRefers

theorem setProperty_executes
    {index : UInt16}
    (active : state.Active frame rest subRuns (lower + 2))
    (shaped : frame.function.ShapeAt frame.offset (.plain (lower + 1)))
    (named : CodeContext.HasName { constants := frame.function.chunk.constants, slots } index) :
    (andProceed do setProperty environment (← name index)).Ensures state (Continues subRuns)
      (Aborts subRuns) := by
  apply andProceed_ensures
  apply Ensures.bind
  apply name_ensures active named
  intro name
  unfold setProperty
  apply Ensures.bind
  apply pop_ensures active
  intro value _ valueRefers first
  apply Ensures.bind
  apply pop_ensures first
  intro receiver _ _ second
  split
  · apply Ensures.bind
    apply Ensures.change
    exact push_continues (second.withHeap (second.sound.heap.setField _ name valueRefers) rfl)
      shaped valueRefers
  · exact .raise (second.aborts rfl)

theorem getIndex_executes
    (limits : Limits)
    (active : state.Active frame rest subRuns (lower + 2))
    (shaped : frame.function.ShapeAt frame.offset (.plain (lower + 1))) :
    (andProceed do
      let index ← pop
      let receiver ← pop
      push limits (← getIndex receiver index)).Ensures state (Continues subRuns)
        (Aborts subRuns) := by
  apply andProceed_ensures
  apply Ensures.bind
  apply pop_ensures active
  intro index _ _ first
  apply Ensures.bind
  apply pop_ensures first
  intro receiver _ _ second
  apply Ensures.bind
  apply (getIndex_ensures second receiver index).mono
  rintro value _ ⟨rfl, valueRefers⟩
  exact push_continues second shaped valueRefers

theorem setIndex_executes
    (limits : Limits)
    (active : state.Active frame rest subRuns (lower + 3))
    (shaped : frame.function.ShapeAt frame.offset (.plain (lower + 1))) :
    (andProceed do
      let value ← pop
      let index ← pop
      let receiver ← pop
      setIndex receiver index value
      push limits value).Ensures state (Continues subRuns) (Aborts subRuns) := by
  apply andProceed_ensures
  apply Ensures.bind
  apply pop_ensures active
  intro value _ valueRefers first
  apply Ensures.bind
  apply pop_ensures first
  intro index _ indexRefers second
  apply Ensures.bind
  apply pop_ensures second
  intro receiver _ _ third
  apply Ensures.bind
  apply (setIndex_ensures third receiver indexRefers valueRefers).mono
  rintro _ after ⟨written, same⟩
  apply push_continues written shaped
  rw [same]
  exact valueRefers

/-! ## Imports -/

theorem pushProceed_ensures
    {value : Value}
    {limits : Limits}
    (active : state.Active frame rest subRuns height)
    (shaped : frame.function.ShapeAt frame.offset (.plain (height + 1)))
    (refers : value.Refers state.known) :
    (do
      push limits value
      return .proceed : Action Transition).Ensures state (Continues subRuns) (Aborts subRuns) := by
  apply Ensures.bind
  apply (push_continues active shaped refers).mono
  intro _ after continues
  exact .pure continues

theorem requestSource_ensures
    {failure : Interruption → State → Prop}
    (active : state.Active frame rest subRuns height)
    (name : String) :
    (requestSource environment name).Ensures state
      (fun _ after => after.Active frame rest subRuns height) failure := by
  unfold requestSource
  split
  · exact .pure active
  · apply Ensures.bind
    apply Ensures.change
    exact .pure (active.withJournal _)

theorem markLoaded_ensures
    {success : Unit → State → Prop}
    {failure : Interruption → State → Prop}
    (active : state.Active frame rest subRuns height)
    (moduleId : Nat)
    (holds :
      ∀ after,
        after.Active frame rest subRuns height → after.known = state.known → success () after) :
    (markLoaded moduleId).Ensures state success failure := by
  apply Ensures.change
  apply holds
  · exact active.withRegistry (active.sound.registry.markLoaded moduleId)
      (Registry.size_modify _ _ _)
  · rfl

/-- A source that was found is compiled into its module, and its body is called. -/
theorem startModule_ensures
    (behaves : environment.host.Behaves)
    (active : state.Active frame rest subRuns height)
    (shaped : frame.function.ShapeAt frame.offset (.plain (height + 1)))
    (name source : String) :
    (do
      let id ← update fun state =>
        let (id, registry) := state.registry.ensure name
        (id, { state with registry })
      match ← compileModule .run id source with
      | .error error => raise (.moduleRefused name error)
      | .ok body =>
        markLoaded id
        push environment.settings.limits (.function body)
        callValue environment (.function body) 0 : Action Transition).Ensures state
      (Continues subRuns) (Aborts subRuns) := by
  rcases active.sound.registry.ensure name with ⟨registry, inside⟩
  have grown := Registry.size_le_ensure state.registry name
  have ensured :
      Active { state with registry := (state.registry.ensure name).2 } frame rest subRuns height :=
    active.extend (active.sound.withRegistry registry grown) ⟨Nat.le_refl _, grown⟩ rfl rfl
  apply Ensures.bind
  apply Ensures.update
  have same := frames_addSource { state with registry := (state.registry.ensure name).2 } .run
    (state.registry.ensure name).1 source
  have added := ensured.extend (ensured.sound.addSource .run inside source)
    (extends_addSource _ .run _ source) same.1 same.2
  have isKnown : ∀ body,
      (addSource { state with registry := (state.registry.ensure name).2 } .run
        (state.registry.ensure name).1 source).1 = .ok body →
      body < (addSource { state with registry := (state.registry.ensure name).2 } .run
        (state.registry.ensure name).1 source).2.known :=
    fun _ => lt_of_addSource (ensured.sound.registry.moduleAt inside)
  apply Ensures.bind
  apply Ensures.update
  split
  · exact .raise (added.aborts rfl)
  · rename_i body accepted
    apply Ensures.bind
    apply markLoaded_ensures added
    intro loaded marked unchanged
    have refers : (Value.function body).Refers loaded.known := by
      rw [unchanged]
      exact isKnown body accepted
    apply Ensures.bind
    apply push_ensures marked refers
    intro pushed
    exact callValue_ensures behaves (pushed.calling shaped) refers

/-- An import gives a module, or starts the body of one. -/
theorem importModule_executes
    {index : UInt16}
    (behaves : environment.host.Behaves)
    (active : state.Active frame rest subRuns height)
    (shaped : frame.function.ShapeAt frame.offset (.plain (height + 1)))
    (named : CodeContext.HasName { constants := frame.function.chunk.constants, slots } index) :
    (do importModule environment (← name index)).Ensures state (Continues subRuns)
      (Aborts subRuns) := by
  apply Ensures.bind
  apply name_ensures active named
  intro name
  unfold importModule
  apply Ensures.bind
  apply Ensures.look
  apply Ensures.bind
  apply Ensures.look
  split
  · exact pushProceed_ensures active shaped trivial
  · apply Ensures.bind
    apply (requestSource_ensures active name).mono
    intro source? after asked
    split
    · split
      · rename_i id _
        apply Ensures.bind
        apply markLoaded_ensures asked id
        intro loaded marked _
        exact pushProceed_ensures marked shaped trivial
      · exact .raise (asked.aborts rfl)
    · exact startModule_ensures behaves asked shaped name _

end Instructions

end Action

end ScriptEngine
