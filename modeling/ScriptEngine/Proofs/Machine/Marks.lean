import ScriptEngine.Proofs.Machine.Beneath
import ScriptEngine.Proofs.Machine.Ownership
import ScriptEngine.Proofs.Machine.Suspension

/-!
# Classes under construction

Methods are attached to a class by the function that has made it.  The annotations of the code
mark where the class is, and the mark is never older than the call from outside: a function
begins without a mark, and behind a call nothing is marked.  So no class that was there when
the call began gets a method from a script (`OuterCall.keepsKinds_of_script`).
-/

namespace ScriptEngine

/-- Where a function begins, no class is marked. -/
theorem Function.ShapeAt.eq_of_zero
    {function : Function}
    {shape : Shape}
    (shaped : function.ShapeAt 0 shape) :
    shape = .plain (function.arity + 1) := by
  rcases shaped.annotated with ⟨slots, code, annotation⟩
  have found := shaped.shaped slots code annotation
  have begins := annotation.begins
  rcases code with _ | ⟨⟨first, instruction⟩, rest⟩
  · cases begins
  · cases begins
    exact (Option.some.inj found).symm

namespace State

/-- The class of which a mark tells is where the mark says, and it is not one of the first. -/
def MarksNew (count : Nat) (state : State) (function : Function) : Mark → Prop
  | .plain => True
  | .classOnTop => ∃ id, count ≤ id ∧ state.stack.back? = some (.classObject id)
  | .classBelowTop =>
    ∃ id, count ≤ id ∧ state.stack[state.stack.size - 2]? = some (.classObject id)
  | .classInSlot slot =>
    ∀ value,
      (state.registry.moduleAt function.home).get? slot.toNat = some value →
        ∃ id, count ≤ id ∧ value = .classObject id

theorem MarksNew.of_same
    {count : Nat}
    {before after : State}
    {function : Function}
    {mark : Mark}
    (marks : before.MarksNew count function mark)
    (stack : after.stack = before.stack)
    (registry : after.registry = before.registry) :
    after.MarksNew count function mark := by
  cases mark <;> simp only [MarksNew, stack, registry] at marks ⊢ <;> exact marks

theorem MarksNew.of_plain
    {count : Nat}
    {state : State}
    {function : Function}
    {mark : Mark}
    (isPlain : mark = .plain) :
    state.MarksNew count function mark := by
  rw [isPlain]
  trivial

/-- The first classes are the same, and no native callable has been replaced. -/
structure KeepsKinds (count : Nat) (before after : State) : Prop where
  classes : ∀ id < count, after.heap.classes[id]? = before.heap.classes[id]?
  size : before.heap.classes.size ≤ after.heap.classes.size
  natives : before.heap.natives.toList <+: after.heap.natives.toList

namespace KeepsKinds

variable {count : Nat} {before between after : State}

theorem of_same (same : after.kinds = before.kinds) : before.KeepsKinds count after := by
  rcases Prod.mk.inj same with ⟨classes, natives⟩
  refine ⟨fun _ _ => by rw [classes], Nat.le_of_eq (congrArg Array.size classes.symm), ?_⟩
  rw [natives]

theorem refl (count : Nat) (state : State) : state.KeepsKinds count state :=
  of_same rfl

theorem trans
    (first : before.KeepsKinds count between)
    (second : between.KeepsKinds count after) :
    before.KeepsKinds count after where
  classes id early := (second.classes id early).trans (first.classes id early)
  size := Nat.le_trans first.size second.size
  natives := first.natives.trans second.natives

end KeepsKinds

end State

open State

/-! ## Instructions -/

namespace Action

variable
  {environment : Environment}
  {state : State}
  {frame : Frame}
  {shape : Shape}
  {offset count : Nat}
  {instruction : Instruction}

theorem ensures_trivial (action : Action α) (state : State) :
    action.Ensures state (fun _ _ => True) fun _ _ => True := by
  unfold Ensures
  split <;> trivial

/-- A value that has been read is pushed. -/
theorem pushed_ensures
    {first : Action Value}
    (limits : Limits)
    (reads : (first state).2 = state)
    {success : Transition → State → Prop}
    (holds :
      ∀ value,
        (first state).1 = .ok value →
          success .proceed { state with stack := state.stack.push value }) :
    (andProceed do push limits (← first)).Ensures state success fun _ _ => True := by
  unfold andProceed
  rw [bind_assoc]
  apply Ensures.bind
  unfold Ensures
  rcases outcome : first state with ⟨interruption | value, after⟩
  · trivial
  · rw [outcome] at reads holds
    cases reads
    refine Ensures.bind (.push ?_ trivial)
    exact holds value rfl

theorem state_constant (index : Nat) (state : State) : (constant index state).2 = state := by
  unfold constant frame
  rw [look_bind]
  generalize (state.frames.back?.getD default).function.chunk.constant? index = found
  rcases found with _ | value <;> rfl

theorem assigned_of_moduleSlot
    (innermost : state.frames.back? = some frame)
    {slot : Nat}
    {value : Value}
    (found : (moduleSlot slot state).1 = .ok value) :
    (state.registry.moduleAt frame.function.home).get? slot = some value := by
  unfold moduleSlot home at found
  rw [look_bind, look_bind, innermost] at found
  rcases assigned : (state.registry.moduleAt frame.function.home).assigned? slot with _ | content
  · simp only [Option.getD_some, assigned] at found
    cases found
  · simp only [Option.getD_some, assigned] at found
    cases found
    exact (Option.filter_eq_some_iff.mp assigned).1

/-- A method is attached to the class below it. -/
theorem attach_eq
    (store : Heap → Nat → String → Value → Heap)
    (name : String)
    {id : Nat}
    (isClass : state.stack[state.stack.size - 2]? = some (.classObject id))
    (room : 1 < state.stack.size) :
    ∃ method,
      attach store name state =
        (.ok (),
          { state with stack := state.stack.pop, heap := store state.heap id name method }) := by
  have top : state.stack.back? = some state.stack[state.stack.size - 1] := by
    rw [Array.back?_eq_getElem?, Array.getElem?_eq_getElem]
  have pops :
      pop state =
        (.ok state.stack[state.stack.size - 1], { state with stack := state.stack.pop }) := by
    unfold pop
    rw [top]
  have owner :
      peek 0 { state with stack := state.stack.pop } =
        (.ok (.classObject id), { state with stack := state.stack.pop }) := by
    have place : state.stack.pop[state.stack.pop.size - 1 - 0]? = some (.classObject id) := by
      rw [Array.getElem?_pop, Array.size_pop, if_pos (by omega)]
      exact isClass
    unfold peek
    rw [if_pos (by rw [Array.size_pop]; omega), Array.getD_eq_getD_getElem?, place]
    rfl
  refine ⟨state.stack[state.stack.size - 1], ?_⟩
  unfold attach
  rw [bind_of_ok pops, bind_of_ok owner]
  rfl

/-- After an instruction the class that is marked then is again one that was not there before. -/
theorem execute_marksNew
    (entryDepth : Nat)
    (innermost : state.frames.back? = some frame)
    (steps : frame.function.Steps offset shape instruction)
    (size : state.stack.size = frame.base + shape.height)
    (marks : state.MarksNew count frame.function shape.mark)
    (known : count ≤ state.heap.classes.size) :
    (execute environment entryDepth instruction).Ensures state
      (fun _ after => after.MarksNew count frame.function (instruction.markAfter shape))
      fun _ _ => True := by
  rcases steps.operands with ⟨slots, operands⟩
  cases instruction with
  | constant index | constantLong index =>
      refine pushed_ensures _ (state_constant _ state) fun value _ => ?_
      simp only [Instruction.markAfter]
      split
      · rename_i onTop
        rw [onTop] at marks
        rcases marks with ⟨id, isNew, top⟩
        refine ⟨id, isNew, ?_⟩
        rw [Array.back?_eq_getElem?] at top
        have inside := (Array.getElem?_eq_some_iff.mp top).1
        rw [Array.size_push, Array.getElem?_push, if_neg (by omega)]
        exact top
      · trivial
  | getModule slot =>
      refine pushed_ensures _ (state_moduleSlot _ state) fun value found => ?_
      simp only [Instruction.markAfter]
      split
      · rename_i inSlot
        rw [inSlot] at marks
        rcases marks value (assigned_of_moduleSlot innermost found) with ⟨id, isNew, rfl⟩
        exact ⟨id, isNew, Array.back?_push⟩
      · trivial
  | getLocal slot =>
      simp only [Instruction.markAfter]
      split
      · rename_i onTop
        rcases onTop with ⟨onTop, isLast⟩
        rw [onTop] at marks
        rcases marks with ⟨id, isNew, top⟩
        have found : state.stack[frame.base + slot.toNat]? = some (.classObject id) := by
          rw [Array.back?_eq_getElem?] at top
          rw [← top]
          congr 1
          omega
        show (andProceed (getLocal environment slot.toNat)).Ensures state _ _
        unfold andProceed getLocal Action.frame
        simp only [bind_assoc]
        refine .bind (.look (.bind (.look ?_)))
        rw [innermost, Option.getD_some, found]
        exact .bind (.push ⟨id, isNew, Array.back?_push⟩ trivial)
      · exact ensures_trivial _ state
  | defineModule slot =>
      simp only [Instruction.markAfter]
      split
      · rename_i onTop
        rw [onTop] at marks
        rcases marks with ⟨id, isNew, top⟩
        show (andProceed do setModuleSlot slot.toNat (← pop)).Ensures state _ _
        unfold andProceed setModuleSlot home
        simp only [bind_assoc]
        refine .bind (.pop top (.bind (.look (.bind (.change ?_)))))
        rw [innermost, Option.getD_some]
        intro value found
        refine ⟨id, isNew, ?_⟩
        by_cases inside : frame.function.home < state.registry.modules.size
        · change ((state.registry.modify frame.function.home _).moduleAt _).get? _ = _ at found
          rw [Registry.moduleAt_modify inside] at found
          exact Module.Sound.eq_of_get?_set found
        · have outside :
              ((state.registry.modify frame.function.home fun table =>
                  table.set slot.toNat (.classObject id)).moduleAt frame.function.home) =
                default := by
            unfold Registry.moduleAt Registry.modify
            rw [Array.getD_eq_getD_getElem?, Array.getElem?_eq_none]
            · rfl
            · rw [Array.size_modify]
              exact Nat.le_of_not_lt inside
          change ((state.registry.modify frame.function.home _).moduleAt _).get? _ = _ at found
          rw [outside] at found
          cases found
      · exact ensures_trivial _ state
  | makeClass index =>
      rcases operands with ⟨name, named⟩
      show (andProceed do
        let content ← Action.name index
        let id ← updateHeap fun heap => heap.addClass { name := content }
        push environment.settings.limits (.classObject id)).Ensures state _ _
      unfold andProceed
      simp only [bind_assoc]
      unfold Ensures
      rw [bind_of_ok (name_of_hasName innermost named)]
      exact Ensures.bind (.updateHeap (.bind (.push ⟨_, known, Array.back?_push⟩ trivial)))
  | method index | staticMethod index =>
      rcases operands with ⟨name, named⟩
      rw [steps.attaches rfl] at marks
      rcases marks with ⟨id, isNew, isClass⟩
      have room : 1 < state.stack.size := by
        have takes : 2 < shape.height := steps.takes
        omega
      rcases attach_eq _ name isClass room with ⟨method, attached⟩
      show (andProceed do attach _ (← Action.name index)).Ensures state _ _
      unfold andProceed Ensures
      rw [bind_assoc, bind_of_ok (name_of_hasName innermost named), bind_of_ok attached]
      refine ⟨id, isNew, ?_⟩
      show state.stack.pop.back? = _
      rw [Array.back?_eq_getElem?, Array.getElem?_pop, Array.size_pop, if_pos (by omega)]
      exact isClass
  | _ => exact ensures_trivial _ state

/-- A class that is added stands behind those that are there. -/
theorem addClass_kinds
    (count : Nat)
    (known : count ≤ state.heap.classes.size)
    (newClass : Class) :
    state.KeepsKinds count { state with heap := (state.heap.addClass newClass).2 } where
  classes id early := by
    show (state.heap.classes.push newClass)[id]? = _
    rw [Array.getElem?_push, if_neg (by omega)]
  size := by
    show _ ≤ (state.heap.classes.push newClass).size
    rw [Array.size_push]
    exact Nat.le_succ _
  natives := List.prefix_rfl

/-- A class that is changed is not one of the first. -/
theorem modify_kinds
    {id : Nat}
    (isNew : count ≤ id)
    (change : Class → Class)
    {after : State}
    (classes : after.heap.classes = state.heap.classes.modify id change)
    (natives : after.heap.natives = state.heap.natives) :
    state.KeepsKinds count after where
  classes other early := by
    rw [classes, Array.getElem?_modify, if_neg (by omega)]
  size := by
    rw [classes, Array.size_modify]
  natives := by rw [natives]

/-- An instruction leaves the first classes alone, also if it is interrupted. -/
theorem execute_kinds
    (environment : Environment)
    (entryDepth : Nat)
    (innermost : state.frames.back? = some frame)
    (steps : frame.function.Steps offset shape instruction)
    (size : state.stack.size = frame.base + shape.height)
    (marks : state.MarksNew count frame.function shape.mark)
    (known : count ≤ state.heap.classes.size) :
    state.KeepsKinds count (execute environment entryDepth instruction state).2 := by
  by_cases changes : instruction.changesClasses = false
  · exact .of_same ((Spares.execute_of_codeless environment entryDepth changes).same state)
  rcases steps.operands with ⟨slots, operands⟩
  have attaches (store : Heap → Nat → String → Value → Heap) (name : String)
      (isAttached : instruction.attaches = true)
      (changes :
        ∀ id method, ∃ change,
          (store state.heap id name method).classes = state.heap.classes.modify id change ∧
            (store state.heap id name method).natives = state.heap.natives) :
      state.KeepsKinds count (attach store name state).2 := by
    rw [steps.attaches isAttached] at marks
    rcases marks with ⟨id, isNew, isClass⟩
    have room : 1 < state.stack.size := by
      have takes := steps.takes
      have two : instruction.takes = 2 := by
        cases instruction <;> first | rfl | cases isAttached
      omega
    rcases attach_eq store name isClass room with ⟨method, attached⟩
    rcases changes id method with ⟨change, classes, natives⟩
    rw [attached]
    exact modify_kinds isNew change classes natives
  cases instruction with
  | makeClass index =>
      rcases operands with ⟨name, named⟩
      show state.KeepsKinds count (andProceed (do
        let content ← Action.name index
        let id ← updateHeap fun heap => heap.addClass { name := content }
        push environment.settings.limits (.classObject id)) state).2
      rw [state_andProceed, bind_of_ok (name_of_hasName innermost named)]
      refine (addClass_kinds count known { name }).trans (.of_same ?_)
      exact (Spares.push environment.settings.limits _).same _
  | method index =>
      rcases operands with ⟨name, named⟩
      show state.KeepsKinds count (andProceed (do attach _ (← Action.name index)) state).2
      rw [state_andProceed, bind_of_ok (name_of_hasName innermost named)]
      exact attaches _ name rfl fun id method =>
        ⟨fun owner => { owner with methods := owner.methods.insert name method }, rfl, rfl⟩
  | staticMethod index =>
      rcases operands with ⟨name, named⟩
      show state.KeepsKinds count (andProceed (do attach _ (← Action.name index)) state).2
      rw [state_andProceed, bind_of_ok (name_of_hasName innermost named)]
      exact attaches _ name rfl fun id method =>
        ⟨fun owner => { owner with statics := owner.statics.insert name method }, rfl, rfl⟩
  | _ => exact absurd rfl changes

end Action

/-! ## Where a function that goes on comes from -/

namespace Machine

variable {environment : Environment} {machine : Machine}

theorem control_conclude (machine : Machine) (outcome : Except RuntimeError Value) :
    (machine.conclude outcome).control ≠ .script := by
  unfold conclude
  split <;> exact nofun

theorem control_raise (machine : Machine) (fault : Fault) :
    (machine.raise fault).control ≠ .script := by
  unfold raise
  split <;> exact control_conclude _ _

/-- A function goes on after an action only if nothing else has been begun or has ended. -/
theorem settle_script
    {control : Control}
    {subRuns : List SubRun}
    {result : Except Interruption Transition × State}
    (isScript : (settle control subRuns result).control = .script) :
    result.1 = .ok .proceed ∧
      settle control subRuns result = { state := result.2, control := .script, subRuns } := by
  unfold settle at isScript ⊢
  split at isScript
  · refine ⟨rfl, ?_⟩
    unfold resume at isScript ⊢
    split
    · rfl
    · rename_i outer
      rw [if_neg outer] at isScript
      split at isScript
      · exact absurd isScript (control_conclude _ _)
      · exact absurd isScript (control_raise _ _)
  · cases isScript
  · exact absurd isScript (control_conclude _ _)
  · exact absurd isScript (control_raise _ _)
  · cases isScript

/-- How the innermost function of a machine after a step has come to stand where it stands. -/
inductive Origin (environment : Environment) (machine : Machine) (frame : Frame) : Prop where
  /-- It has been waiting. -/
  | waited
      {place : Nat}
      (last : place + 1 = (machine.step environment).state.frames.size)
      (found : machine.state.frames[place]? = some frame)
      (waits : ¬ machine.RunsAt place)
  | begins (begins : frame.offset = 0)
  /-- It has carried out an instruction. -/
  | moved
      {earlier : Frame}
      {instruction : Instruction}
      (executes : machine.Executes earlier instruction)
      (function : frame.function = earlier.function)
      (successor : frame.offset ∈ instruction.successors earlier.offset)
      (done :
        Action.execute environment machine.entryDepth instruction
            (machine.state.fetched environment earlier instruction) =
          (.ok .proceed, (machine.step environment).state))

/-- The innermost frame after something that a host routine has done. -/
theorem origin_of_host
    {caller : HostCall}
    {program : HostProgram}
    (isHost : machine.control = .host caller program)
    {action : Action Transition}
    {subRuns : List SubRun}
    (isNext : machine.nextAction? environment = some (action, subRuns))
    (calls : action.Calls)
    (isScript : (machine.step environment).control = .script)
    {frame : Frame}
    (innermost : (machine.step environment).state.frames.back? = some frame) :
    machine.Origin environment frame := by
  have isSettled := step_eq_settle isNext
  rw [isSettled] at isScript
  rcases settle_script isScript with ⟨proceeds, goesOn⟩
  have entered := calls.entered machine.state
  have sameFrames : (action machine.state).2.frames = (machine.step environment).state.frames := by
    rw [isSettled, goesOn]
  rw [proceeds, sameFrames] at entered
  generalize isFrames : (machine.step environment).state.frames = frames at entered innermost
  cases entered with
  | atOnce =>
      rw [Array.back?_eq_getElem?] at innermost
      have inside := (Array.getElem?_eq_some_iff.mp innermost).1
      refine .waited ?_ innermost (not_runsAt_of_host isHost _)
      rw [isFrames]
      omega
  | function pushed begins =>
      rw [Array.back?_push] at innermost
      cases innermost
      exact .begins begins

/-- Whatever comes of an action, the classes are those that it has left. -/
theorem kinds_settle
    {count : Nat}
    (control : Control)
    (subRuns : List SubRun)
    (result : Except Interruption Transition × State) :
    result.2.KeepsKinds count (settle control subRuns result).state := by
  rcases state_settle control subRuns result with ⟨stack, frames, same⟩
  rw [same]
  exact .of_same rfl

end Machine

namespace OuterCall

open Machine

variable {environment : Environment} {call : OuterCall} {machine : Machine}

/-- The innermost frame after an instruction. -/
theorem origin_of_executes
    (reaches : call.Reaches environment machine)
    (orderly : call.state.Orderly)
    (lasts : call.Lasts machine)
    {earlier : Frame}
    {instruction : Instruction}
    (executes : machine.Executes earlier instruction)
    (isScript : (machine.step environment).control = .script)
    {frame : Frame}
    (innermost : (machine.step environment).state.frames.back? = some frame) :
    machine.Origin environment frame := by
  rcases reaches.steps orderly lasts executes with ⟨shape, -, steps, size⟩
  rcases steps.operands with ⟨slots, admitted⟩
  have named :
      ∀ index argumentCount,
        instruction = .invoke index argumentCount → ∃ name, earlier.HasName index name := by
    rintro index argumentCount rfl
    exact admitted
  have isNext :
      machine.step environment =
        settle .script machine.subRuns
          (Action.execute environment machine.entryDepth instruction
            (machine.state.fetched environment earlier instruction)) :=
    executes.step_eq named
  let fetched := machine.state.fetched environment earlier instruction
  have last : fetched.frames.back? = some _ := State.back?_fetched executes.innermost
  rw [isNext] at isScript
  rcases settle_script isScript with ⟨proceeds, goesOn⟩
  rw [← isNext] at goesOn
  have done :
      Action.execute environment machine.entryDepth instruction fetched =
        (.ok .proceed, (machine.step environment).state) := by
    rw [goesOn]
    exact Prod.ext proceeds rfl
  by_cases returns : instruction = .leave
  · subst returns
    have takes : 1 < shape.height := steps.takes
    have room : fetched.stack.size - 1 < fetched.stack.size := by
      rw [State.stack_fetched, size]
      omega
    have top : fetched.stack.back? = some fetched.stack[fetched.stack.size - 1] := by
      rw [Array.back?_eq_getElem?, Array.getElem?_eq_getElem]
    have frames := (Action.leave_cases environment machine.entryDepth last top).1
    change (Action.execute environment machine.entryDepth .leave fetched).2.frames = _ at frames
    rw [done] at frames
    have inside : 0 < (machine.step environment).state.frames.size := by
      rw [Array.back?_eq_getElem?] at innermost
      exact Nat.lt_of_le_of_lt (Nat.zero_le _) (Array.getElem?_eq_some_iff.mp innermost).1
    change (machine.step environment).state.frames = fetched.frames.pop at frames
    rw [frames, Array.back?_eq_getElem?] at innermost
    have fewer : (machine.step environment).state.frames.size = machine.state.frames.size - 1 := by
      rw [frames, Array.size_pop, State.size_frames_fetched]
    have old := getElem?_of_pop innermost
    rcases getElem?_fetched executes.innermost old with ⟨isLast, -⟩ | ⟨notLast, found⟩
    · rw [Array.size_pop, State.size_frames_fetched] at isLast
      omega
    · rw [← frames] at found notLast
      refine .waited (by omega) found ?_
      rintro (isStuck | ⟨-, isLast⟩)
      · rw [executes.control] at isStuck
        cases isStuck
      · exact notLast isLast.symm
  · rcases Action.execute_entered environment machine.entryDepth last rfl returns steps.backward
      with ⟨target, successor, entered⟩
    rw [done] at entered
    change Action.Entered _ (.ok .proceed) (machine.step environment).state.frames at entered
    generalize (machine.step environment).state.frames = frames at entered innermost
    cases entered with
    | atOnce =>
        rw [State.back?_moveTo last] at innermost
        cases innermost
        exact .moved executes rfl successor done
    | function pushed begins =>
        rw [Array.back?_push] at innermost
        cases innermost
        exact .begins begins

/-- The innermost frame after a step. -/
theorem origin_of_step
    (reaches : call.Reaches environment machine)
    (orderly : call.state.Orderly)
    (lasts : call.Lasts machine)
    (isScript : (machine.step environment).control = .script)
    {frame : Frame}
    (innermost : (machine.step environment).state.frames.back? = some frame) :
    machine.Origin environment frame := by
  cases control : machine.control with
  | ended outcome =>
      have notEnded := (reaches.goesOn lasts).notEnded
      rw [control] at notEnded
      cases notEnded
  | stuck =>
      rw [stuck_step control] at isScript
      cases isScript
  | script =>
      rcases reaches.executes orderly lasts control with
        ⟨stops, -⟩ | ⟨earlier, instruction, executes, -⟩
      · rw [stops] at isScript
        cases isScript
      · exact origin_of_executes reaches orderly lasts executes isScript innermost
  | host caller program =>
      have passes {action : Action Transition} {subRuns : List SubRun}
          (isNext : machine.nextAction? environment = some (action, subRuns))
          (calls : action.Calls) : machine.Origin environment frame :=
        origin_of_host control isNext calls isScript innermost
      rcases machine with ⟨state, other, subRuns⟩
      cases control
      cases program with
      | finish value => exact passes rfl inferInstance
      | call callee arguments next => exact passes rfl (enter_calls _ callee arguments)
      | fail message => exact absurd isScript (control_raise _ _)
      | inspect next => cases isScript
      | perform request next => cases isScript

/-- The frame of a function that goes on belongs to the call. -/
theorem Reaches.frames_lt
    (reaches : call.Reaches environment machine)
    (orderly : call.state.Orderly)
    (isScript : machine.control = .script) :
    call.state.frames.size < machine.state.frames.size := by
  rcases reaches.corresponds orderly with ⟨relative, corresponds⟩
  cases corresponds with
  | returned outcome _ isActual =>
      rw [isActual] at isScript
      unfold returned deliver at isScript
      split at isScript <;> cases isScript
  | lasts carries control _ steady =>
      rcases relative with ⟨state, relativeControl, subRuns⟩
      rw [isScript] at control
      cases relativeControl with
      | host | ended | stuck => cases control
      | script =>
          rcases steady with ⟨other, rest, height, active, -⟩
          have size := carries.size_frames
          have inside := active.nonempty
          show call.ground.frames.size < _
          omega

/-- Behind a call no class is marked. -/
theorem plain_of_waits
    {now place : Nat}
    (orderly : call.state.Orderly)
    (lasted : ∀ earlier < now + 1, call.Lasts (call.machineAt environment earlier))
    {frame : Frame}
    (waits : call.Waits environment now place frame)
    {shape : Shape}
    (shaped : frame.function.ShapeAt frame.offset shape) :
    shape.mark = .plain := by
  rcases waits with ⟨start, instruction, carriesOut, behind, isCall⟩
  rcases carriesOut with ⟨begun, caller, before, executes, isFunction, isStart, -, -⟩
  have reaches : call.Reaches environment (call.machineAt environment begun) :=
    reaches_iff_machineAt.mpr
      ⟨begun, rfl, fun earlier bound => lasted earlier (by omega)⟩
  rcases reaches.steps orderly (lasted begun (Nat.lt_succ_of_le before)) executes with
    ⟨first, -, steps, -⟩
  rw [isFunction, isStart] at steps
  have next : frame.offset ∈ instruction.successors start := by
    rw [behind]
    cases instruction <;> first | exact List.mem_singleton.mpr rfl | cases isCall
  rw [shaped.unique (steps.passes _ next)]
  cases instruction <;> first | rfl | cases isCall

/-- A class that the code of the innermost function marks is not one of the first. -/
def Marking (count : Nat) (machine : Machine) : Prop :=
  ∀ frame shape,
    machine.control = .script →
      machine.state.frames.back? = some frame →
        frame.function.ShapeAt frame.offset shape →
          machine.state.MarksNew count frame.function shape.mark

/-- A function begins without a mark. -/
theorem plain_of_begins
    {frame : Frame}
    (begins : frame.offset = 0)
    {shape : Shape}
    (shaped : frame.function.ShapeAt frame.offset shape) :
    shape.mark = .plain := by
  rw [begins] at shaped
  rw [shaped.eq_of_zero]

theorem marking_entered
    {count : Nat}
    (orderly : call.state.Orderly) :
    Marking count (call.entered environment) := by
  intro frame shape isScript innermost shaped
  have deeper := Reaches.entered.frames_lt orderly isScript
  have calls :
      Action.Calls (enter environment (call.around.length + 1) call.callee call.arguments) :=
    inferInstance
  have entered := calls.entered call.state
  rcases settle_script isScript with ⟨proceeds, isNext⟩
  change call.entered environment = _ at isNext
  rw [isNext] at innermost deeper
  rw [proceeds] at entered
  change (Machine.enter _ _ _ _ _).2.frames.back? = _ at innermost
  change _ < (Machine.enter _ _ _ _ _).2.frames.size at deeper
  generalize (Machine.enter _ _ _ _ _).2.frames = frames at entered innermost deeper
  cases entered with
  | atOnce => exact absurd deeper (Nat.lt_irrefl _)
  | function pushed begins =>
      rw [Array.back?_push] at innermost
      cases innermost
      exact .of_plain (plain_of_begins begins shaped)

/-- The mark is carried along with the class, and what has waited has no mark. -/
theorem marking_step
    {count : Nat}
    (reaches : call.Reaches environment machine)
    (orderly : call.state.Orderly)
    (lasts : call.Lasts machine)
    (known : count ≤ machine.state.heap.classes.size)
    (waiting :
      ∀ place frame shape,
        call.state.frames.size ≤ place →
          machine.state.frames[place]? = some frame →
            ¬ machine.RunsAt place →
              frame.function.ShapeAt frame.offset shape → shape.mark = .plain)
    (marking : Marking count machine) :
    Marking count (machine.step environment) := by
  intro frame shape isScript innermost shaped
  have deeper := (reaches.step lasts).frames_lt orderly isScript
  cases origin_of_step reaches orderly lasts isScript innermost with
  | begins begins => exact .of_plain (plain_of_begins begins shaped)
  | waited last found waits =>
      exact .of_plain (waiting _ frame shape (by omega) found waits shaped)
  | @moved earlier instruction executes function successor done =>
      rcases reaches.steps orderly lasts executes with ⟨first, firstShaped, steps, size⟩
      have marks := marking earlier first executes.control executes.innermost firstShaped
      have last :
          (machine.state.fetched environment earlier instruction).frames.back? = some _ :=
        State.back?_fetched executes.innermost
      have marksAfter :
          (Action.execute environment machine.entryDepth _).Ensures _ _ _ :=
        Action.execute_marksNew machine.entryDepth last steps
        (by rw [State.stack_fetched]; exact size)
        (marks.of_same State.stack_fetched State.registry_fetched)
        (by rw [State.heap_fetched]; exact known)
      unfold Action.Ensures at marksAfter
      rw [done] at marksAfter
      rw [function] at shaped ⊢
      rw [shaped.unique (steps.passes _ successor)]
      exact marksAfter

/-- As long as a call lasts, the mark is not older than the call. -/
theorem marking_machineAt
    {count now : Nat}
    (prepared : call.Prepared environment)
    (lasted : ∀ earlier < now, call.Lasts (call.machineAt environment earlier))
    (known :
      ∀ earlier < now, count ≤ (call.machineAt environment earlier).state.heap.classes.size) :
    Marking count (call.machineAt environment now) := by
  induction now with
  | zero => exact marking_entered prepared.orderly
  | succ now induction =>
      have lastedBefore := fun earlier bound => lasted earlier (Nat.lt_succ_of_lt bound)
      have reaches : call.Reaches environment (call.machineAt environment now) :=
        reaches_iff_machineAt.mpr ⟨now, rfl, lastedBefore⟩
      refine marking_step reaches prepared.orderly (lasted now (Nat.lt_succ_self now))
        (known now (Nat.lt_succ_self now)) ?_
        (induction lastedBefore fun earlier bound => known earlier (Nat.lt_succ_of_lt bound))
      intro place frame shape above found waits shaped
      have isWaiting := (runs_or_waits prepared lastedBefore above found).resolve_left waits
      exact plain_of_waits prepared.orderly lasted isWaiting shaped

/-- A script leaves the first classes and the native callables alone. -/
theorem keepsKinds_of_script
    {count : Nat}
    (reaches : call.Reaches environment machine)
    (orderly : call.state.Orderly)
    (lasts : call.Lasts machine)
    (known : count ≤ machine.state.heap.classes.size)
    (marking : Marking count machine)
    (isScript : machine.control = .script) :
    machine.state.KeepsKinds count (machine.step environment).state := by
  by_cases executing : ∃ frame instruction, machine.Executes frame instruction
  · rcases executing with ⟨frame, instruction, executes⟩
    rcases reaches.steps orderly lasts executes with ⟨shape, shaped, steps, size⟩
    rcases steps.operands with ⟨slots, admitted⟩
    have named :
        ∀ index argumentCount,
          instruction = .invoke index argumentCount → ∃ name, frame.HasName index name := by
      rintro index argumentCount rfl
      exact admitted
    have marks := marking frame shape isScript executes.innermost shaped
    have keeps :
        machine.state.KeepsKinds count
          (Action.execute environment machine.entryDepth instruction
            (machine.state.fetched environment frame instruction)).2 :=
      (KeepsKinds.of_same (congrArg₂ Prod.mk (congrArg _ State.heap_fetched)
        (congrArg _ State.heap_fetched))).trans
        (Action.execute_kinds environment machine.entryDepth
          (State.back?_fetched executes.innermost) steps (by rw [State.stack_fetched]; exact size)
          (marks.of_same State.stack_fetched State.registry_fetched)
          (by rw [State.heap_fetched]; exact known))
    rw [executes.step_eq named]
    exact keeps.trans (kinds_settle _ _ _)
  · rcases machine with ⟨state, control, subRuns⟩
    cases isScript
    refine .trans (.of_same ?_) (kinds_settle .script subRuns _)
    refine Action.Spares.step_same environment fun instruction decoded =>
      absurd ⟨_, instruction, rfl, ?_, decoded⟩ executing
    rcases innermost : state.frames.back? with _ | frame
    · rw [innermost] at decoded
      cases decoded
    · rfl

end OuterCall

end ScriptEngine
