import ScriptEngine.Proofs.Machine.Honesty
import ScriptEngine.Proofs.Machine.Inside

/-!
# An instance that only a slot of the stack mentions

An instance under construction lies in a slot of the stack and is mentioned nowhere else
(`Machine.Hides`).  What stands above the slot does the same whatever the slot holds
(`Action.Ignores`), so it does not get to the instance: a step of it leaves the instance as it
is and mentioned nowhere else.  The argument covers the slot with a value that mentions nothing
and follows the machine with the covered slot.
-/

namespace ScriptEngine

namespace State

/-- Before an instruction only the journal changes. -/
theorem exists_journal (environment : Environment) (state : State) :
    ∃ journal, state.recorded environment = { state with journal } := by
  unfold recorded
  split
  · exact ⟨_, rfl⟩
  · exact ⟨state.journal, rfl⟩

/-- Fetching an instruction keeps what every change keeps. -/
theorem Invariant.fetched
    {environment : Environment}
    {good : Value → Prop}
    {holds : State → Prop}
    (invariant : Invariant environment.settings.limits good holds)
    {state : State}
    (kept : holds state)
    (frame : Frame)
    (instruction : Instruction) :
    holds (state.fetched environment frame instruction) := by
  rcases state.exists_journal environment with ⟨journal, recorded⟩
  unfold State.fetched
  rw [recorded]
  exact (Action.moveTo_keeps invariant (invariant.change kept (.journal journal)) _).holds

end State

namespace Machine

/-- The machine with another value in a slot of the stack. -/
def veiled (slot : Nat) (value : Value) (machine : Machine) : Machine :=
  { machine with state := machine.state.veiled slot value }

variable
  {environment : Environment}
  {slot id : Nat}
  {value : Value}
  {object : Object}
  {state : State}
  {control : Control}
  {subRuns : List SubRun}

theorem conclude_veiled (machine : Machine) (outcome : Except RuntimeError Value) :
    (machine.veiled slot value).conclude outcome =
      (machine.conclude outcome).veiled slot value := by
  rcases machine with ⟨state, control, _ | ⟨⟨mark, depth, _ | ⟨routine, next⟩⟩, rest⟩⟩ <;> rfl

theorem raise_veiled (machine : Machine) (fault : Fault) :
    (machine.veiled slot value).raise fault = (machine.raise fault).veiled slot value := by
  rcases machine with ⟨state, control, _ | ⟨subRun, rest⟩⟩
  · rfl
  · have same := State.shrink_setIfInBounds state.stack slot subRun.stackMark value
    unfold raise veiled State.veiled
    dsimp only
    rw [same]
    let cut : State :=
      { state with
        stack := state.stack.shrink subRun.stackMark
        frames := state.frames.shrink subRun.entryDepth }
    exact conclude_veiled { state := cut, control, subRuns := subRun :: rest } _

/-- What comes of an action does not depend on a slot that stays beneath the top. -/
theorem settle_veiled
    {result : Except Interruption Transition}
    (room :
      result = .ok .proceed →
        entryDepthOf subRuns < state.frames.size ∨ slot + 1 < state.stack.size) :
    settle control subRuns (result, state.veiled slot value) =
      (settle control subRuns (result, state)).veiled slot value := by
  rcases result with (fault | _) | (_ | ⟨routine, program⟩ | outcome)
  · exact raise_veiled { state, control, subRuns } fault
  · rfl
  · show resume (veiled slot value { state, control, subRuns }) =
      (resume { state, control, subRuns }).veiled slot value
    by_cases deeper : entryDepthOf subRuns < state.frames.size
    · have goesOn (content : State) (same : content.frames = state.frames) :
          resume { state := content, control, subRuns } =
            { state := content, control := .script, subRuns } :=
        resume_of_deeper (by rw [entryDepth_eq, same]; exact deeper)
      exact (goesOn (state.veiled slot value) rfl).trans
        (congrArg (veiled slot value) (goesOn state rfl)).symm
    · let plain : Machine := { state, control, subRuns }
      have ends : ¬ plain.entryDepth < plain.state.frames.size := by
        rw [entryDepth_eq]
        exact deeper
      have endsVeiled :
          ¬ (plain.veiled slot value).entryDepth < (plain.veiled slot value).state.frames.size :=
        ends
      have popped : Action.pop (state.veiled slot value) = _ :=
        Action.Ignores.pop ((room rfl).resolve_left deeper) value
      unfold resume
      rw [if_neg endsVeiled, if_neg ends]
      dsimp only [veiled]
      rw [popped]
      rcases Action.pop state with ⟨interruption | popped, after⟩
      · exact raise_veiled { state := after, control, subRuns } _
      · exact conclude_veiled { state := after, control, subRuns } _
  · rfl
  · exact conclude_veiled { state, control, subRuns } _

/-- A request does not depend on the stack. -/
theorem perform_veiled (request : HostRequest) (state : State) :
    request.perform (state.veiled slot value) =
      ((request.perform state).1, (request.perform state).2.veiled slot value) := by
  cases request with
  | compile mode moduleName source =>
      let marked : State :=
        { state with
          registry := (state.registry.ensure moduleName).2.modify
            (state.registry.ensure moduleName).1 Module.markLoaded }
      have same :
          (state.veiled slot value).addNamedSource mode moduleName source =
            ((state.addNamedSource mode moduleName source).1,
              (state.addNamedSource mode moduleName source).2.veiled slot value) :=
        marked.addSource_veiled mode _ source
      simp only [HostRequest.perform, same]
      split <;> rename_i outcome <;> rw [Prod.mk.injEq] at outcome <;>
        rcases outcome with ⟨first, rfl⟩ <;>
        rw [← Prod.eta (state.addNamedSource mode moduleName source), first]
  | _ => rfl

/-- A slot of the stack holds an instance that is mentioned nowhere else. -/
structure Hides (slot id : Nat) (object : Object) (machine : Machine) : Prop where
  held : machine.state.stack[slot]? = some (.object id)
  unaware : (machine.veiled slot .null).Unaware id (State.Guards id object)

/-- The instance itself is as it was. -/
theorem Hides.kept {machine : Machine} (hides : machine.Hides slot id object) :
    machine.state.heap.objects[id]? = some object :=
  hides.unaware.holds.state.kept

/-- What comes of an action that does not depend on the slot. -/
theorem hides_settle
    (honest : environment.host.Honest)
    (each : ∀ subRun ∈ subRuns, subRun.Each (Value.Lacks id))
    (waiting : ∀ subRun ∈ subRuns, subRun.Discreet id)
    {action : Action Transition}
    (ignores : action.Ignores slot state)
    (keeps :
      action.Keeps (State.Guards id object) (Transition.Hands environment (Value.Lacks id))
        (state.veiled slot .null))
    (room :
      (action state).1 = .ok .proceed →
        entryDepthOf subRuns < (action state).2.frames.size ∨
          slot + 1 < (action state).2.stack.size)
    (held : (settle .script subRuns (action state)).state.stack[slot]? = some (.object id)) :
    (settle .script subRuns (action state)).Hides slot id object := by
  refine ⟨held, ?_⟩
  have veiled :
      settle .script subRuns ((action state).1, (action state).2.veiled slot .null) =
        (settle .script subRuns ((action state).1, (action state).2)).veiled slot .null :=
    settle_veiled room
  rw [← ignores .null] at veiled
  rw [← Prod.eta (action state), ← veiled]
  exact unaware_settle (State.guards_invariant id object _) each waiting honest keeps

/-! ## Steps -/

section Steps

variable {call : OuterCall} {machine : Machine}

/-- A routine of the host that stands above the slot does the same whatever the slot holds. -/
theorem step_veiled_of_host
    {caller : HostCall}
    {program : HostProgram}
    (isHost : machine.control = .host caller program)
    (active : ∀ next, program ≠ .inspect next)
    (beneath : slot < caller.slot)
    (inside : caller.slot < machine.state.stack.size) :
    (machine.veiled slot value).step environment =
      (machine.step environment).veiled slot value := by
  rcases machine with ⟨state, control, subRuns⟩
  cases isHost
  have settled {action : Action Transition} {others : List SubRun}
      (ignores : action.Ignores slot state)
      (room : ∀ after, action state = (.ok .proceed, after) → slot + 1 < after.stack.size) :
      settle .script others (action (state.veiled slot value)) =
        (settle .script others (action state)).veiled slot value := by
    rw [ignores value]
    exact settle_veiled fun proceeds => .inr (room _ (Prod.ext proceeds rfl))
  cases program with
  | inspect next => exact absurd rfl (active next)
  | fail message => exact raise_veiled { state, control := .script, subRuns } _
  | finish other =>
      have bound : slot + 1 ≤ caller.slot := beneath
      have above := Action.CallsAbove.completeHostCall environment bound state
        (Nat.le_of_lt inside) other
      exact settled
        (Action.CallsAbove.completeHostCall_ignores environment beneath state
          (Nat.le_of_lt inside) other)
        above.2
  | call callee arguments next =>
      have above :
          Action.CallsAbove (slot + 1) 0
            (enter environment (subRuns.length + 1) callee arguments) :=
        .enter environment _ callee arguments
      have enough : slot + 1 + 0 ≤ state.stack.size := Nat.le_trans beneath (Nat.le_of_lt inside)
      show settle .script
        ({ stackMark := (state.veiled slot value).stack.size, .. } :: subRuns) _ = _
      rw [State.size_veiled]
      exact settled (above.ignores state slot enough (Nat.lt_succ_self slot))
        (above.stays state enough).2
  | perform request next =>
      have performed :
          request.perform (state.veiled slot value) =
            ((request.perform state).1, (request.perform state).2.veiled slot value) :=
        perform_veiled request state
      unfold step
      dsimp only [veiled]
      rw [performed]

/-- A routine of the host does not get to the instance. -/
theorem hides_host
    (orderly : call.state.Orderly)
    (reaches : call.Reaches environment machine)
    (lasts : call.Lasts machine)
    (honest : environment.host.Honest)
    (hides : machine.Hides slot id object)
    {caller : HostCall}
    {program : HostProgram}
    (isHost : machine.control = .host caller program)
    (beneath : slot < caller.slot)
    (held : (machine.step environment).state.stack[slot]? = some (.object id)) :
    (machine.step environment).Hides slot id object := by
  refine ⟨held, ?_⟩
  by_cases looks : ∃ next, program = .inspect next
  · rcases looks with ⟨next, rfl⟩
    rcases machine with ⟨state, control, subRuns⟩
    cases isHost
    rcases hides.unaware with ⟨kept, discreet⟩
    refine ⟨⟨kept.state, kept.control, kept.subRuns⟩, discreet.control state ?_, discreet.subRuns⟩
    exact ⟨kept.state.each.heap, kept.state.each.modules⟩
  · have inside := reaches.slot_lt orderly lasts isHost
    rw [← step_veiled_of_host isHost (fun next isLook => looks ⟨next, isLook⟩) beneath inside]
    exact (hides.unaware.stepUnless (State.guards_invariant id object _) honest
      (State.guards_escape id object _) fun guards => guards.each.hides).resolve_left not_false

/-- Fetching an instruction does not concern the instance. -/
theorem guards_fetched
    (guards : State.Guards id object (state.veiled slot value))
    (frame : Frame)
    (instruction : Instruction) :
    State.Guards id object ((state.fetched environment frame instruction).veiled slot value) := by
  have invariant := State.guards_invariant id object environment.settings.limits
  rcases state.exists_journal environment with ⟨journal, recorded⟩
  unfold State.fetched
  rw [recorded]
  exact (Action.moveTo_keeps invariant (invariant.change guards (.journal journal)) _).holds

/-- An instruction that does not depend on the slot does not get to the instance. -/
theorem hides_execute
    (honest : environment.host.Honest)
    (hides : machine.Hides slot id object)
    {frame : Frame}
    {instruction : Instruction}
    (executes : machine.Executes frame instruction)
    (named :
      ∀ index argumentCount,
        instruction = .invoke index argumentCount → ∃ name, frame.HasName index name)
    (ignores :
      (Action.execute environment machine.entryDepth instruction).Ignores slot
        (machine.state.fetched environment frame instruction))
    (deeper :
      let done :=
        Action.execute environment machine.entryDepth instruction
          (machine.state.fetched environment frame instruction)
      done.1 = .ok .proceed → machine.entryDepth < done.2.frames.size)
    (held : (machine.step environment).state.stack[slot]? = some (.object id)) :
    (machine.step environment).Hides slot id object := by
  rw [executes.step_eq named] at held ⊢
  rw [entryDepth_eq] at deeper
  refine hides_settle honest hides.unaware.holds.subRuns hides.unaware.discreet.subRuns ignores ?_
    (fun proceeds => .inl (by rw [entryDepth_eq] at proceeds ⊢; exact deeper proceeds)) held
  exact (Action.execute_keepsUnless (State.guards_invariant id object _)
    (guards_fetched hides.unaware.holds.state frame instruction)
    (State.guards_escape id object _) _ instruction).keeps

/-- An instruction other than a return that finds its operands above the slot. -/
theorem hides_instruction
    (orderly : call.state.Orderly)
    (reaches : call.Reaches environment machine)
    (lasts : call.Lasts machine)
    (honest : environment.host.Honest)
    (hides : machine.Hides slot id object)
    {frame : Frame}
    {instruction : Instruction}
    (executes : machine.Executes frame instruction)
    (stays : instruction ≠ .leave)
    (room : slot + instruction.takes < machine.state.stack.size)
    (notRead : ∀ other, instruction = .getLocal other → frame.base + other.toNat ≠ slot)
    (notWritten : ∀ other, instruction = .setLocal other → frame.base + other.toNat ≠ slot)
    (held : (machine.step environment).state.stack[slot]? = some (.object id)) :
    (machine.step environment).Hides slot id object := by
  rcases reaches.steps orderly lasts executes with ⟨shape, -, steps, -⟩
  have innermost :
      (machine.state.fetched environment frame instruction).frames.back? =
        some { frame with offset := frame.offset + instruction.length } :=
    State.back?_fetched executes.innermost
  refine hides_execute honest hides executes ?_ ?_ ?_ held
  · rintro index argumentCount rfl
    rcases steps.operands with ⟨slots, named⟩
    exact named
  · refine Action.execute_ignores innermost ?_ stays notRead notWritten
    rw [State.stack_fetched]
    exact room
  · rcases Action.execute_entered environment machine.entryDepth innermost rfl stays
      steps.backward with ⟨target, -, entered⟩
    intro done _
    refine Nat.lt_of_lt_of_le (reaches.inFrame executes.control)
      (Nat.le_trans (Nat.le_of_eq ?_) entered.size_le)
    show _ = (Array.modify _ _ _).size
    rw [Array.size_modify, State.size_frames_fetched]

/-- A return from a function that stands above the slot. -/
theorem hides_leave
    (orderly : call.state.Orderly)
    (reaches : call.Reaches environment machine)
    (lasts : call.Lasts machine)
    (honest : environment.host.Honest)
    (hides : machine.Hides slot id object)
    {frame : Frame}
    (executes : machine.Executes frame .leave)
    (beneath : slot < frame.base)
    (held : (machine.step environment).state.stack[slot]? = some (.object id)) :
    (machine.step environment).Hides slot id object := by
  rcases reaches.steps orderly lasts executes with ⟨shape, -, steps, size⟩
  have takes : 1 < shape.height := steps.takes
  let fetched := machine.state.fetched environment frame .leave
  have innermost : fetched.frames.back? = some { frame with offset := frame.offset + 1 } :=
    State.back?_fetched executes.innermost
  have room : frame.base < fetched.stack.size := by
    rw [State.stack_fetched, size]
    omega
  have top : fetched.stack.back? = some fetched.stack[fetched.stack.size - 1] := by
    rw [Array.back?_eq_getElem?, Array.getElem?_eq_getElem]
  refine hides_execute honest hides executes nofun
    (Action.leave_ignores environment machine.entryDepth innermost beneath room) ?_ held
  rcases Action.leave_cases environment machine.entryDepth innermost top with
    ⟨frames, ⟨finished, -⟩ | ⟨-, deeper⟩⟩
  · intro done proceeds
    cases finished.symm.trans proceeds
  · intro done _
    exact Nat.lt_of_lt_of_eq deeper (congrArg Array.size frames).symm

/-- What stands above the slot makes a step, and it does not get to the instance. -/
theorem hides_inside
    (orderly : call.state.Orderly)
    (reaches : call.Reaches environment machine)
    (lasts : call.Lasts machine)
    (honest : environment.host.Honest)
    (hides : machine.Hides slot id object)
    {inner around : List SubRun}
    {depth : Nat}
    (inside : machine.Inside inner around depth (slot + 1))
    (stands : machine.control = .script → depth < machine.state.frames.size)
    (held : (machine.step environment).state.stack[slot]? = some (.object id)) :
    (machine.step environment).control = .stuck ∨
      (machine.step environment).Hides slot id object := by
  cases control : machine.control with
  | ended outcome =>
      have notEnded := (reaches.goesOn lasts).notEnded
      rw [control] at notEnded
      cases notEnded
  | stuck => exact .inl (stuck_step control)
  | host caller program =>
      exact .inr (hides_host orderly reaches lasts honest hides control
        (inside.routine caller program control) held)
  | script =>
      have deeper := stands control
      rcases reaches.executes orderly lasts control with
        ⟨stops, -⟩ | ⟨frame, instruction, executes, -, -⟩
      · exact .inl stops
      · have last := executes.innermost
        rw [Array.back?_eq_getElem?] at last
        have beneath : slot < frame.base := inside.state.bases _ frame (by omega) last
        rcases reaches.steps orderly lasts executes with ⟨shape, -, steps, size⟩
        have takes := steps.takes
        by_cases returns : instruction = .leave
        · subst returns
          exact .inr (hides_leave orderly reaches lasts honest hides executes beneath held)
        · refine .inr (hides_instruction orderly reaches lasts honest hides executes returns
            (by omega) ?_ ?_ held)
          · exact fun other _ => Nat.ne_of_gt (Nat.lt_add_right _ beneath)
          · exact fun other _ => Nat.ne_of_gt (Nat.lt_add_right _ beneath)

end Steps

end Machine

end ScriptEngine
