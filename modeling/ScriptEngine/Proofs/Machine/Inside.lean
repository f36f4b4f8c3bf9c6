import ScriptEngine.Proofs.Machine.Beneath
import ScriptEngine.Proofs.Machine.Suspension

/-!
# What stands above a place

Something has been begun, with a number of frames and of values beneath it.  Until it is
over, whatever is called from it stands above: nested calls, functions and host routines
(`Machine.Inside`).  A step of what stands above leaves the frames and values beneath alone,
and what stands above afterwards does so again, unless the code has no next instruction or
a fault ends the call from outside in which the thing was begun (`Machine.StepsInside`,
`OuterCall.step_inside`).
-/

namespace ScriptEngine

/--
A nested call with a number of frames and of values beneath it.  A routine that stands above
them too waits for the outcome.
-/
structure SubRun.Above (depth level : Nat) (subRun : SubRun) : Prop where
  depth : depth ≤ subRun.entryDepth
  mark : level ≤ subRun.stackMark
  awaited : ∃ caller next, subRun.awaiting = some (caller, next) ∧ level ≤ caller.slot

namespace State

/-- The frames from a number on have a number of values beneath them. -/
structure Above (depth level : Nat) (state : State) : Prop where
  size : depth ≤ state.frames.size
  bases :
    ∀ place frame, depth ≤ place → state.frames[place]? = some frame → level ≤ frame.base

/-- A number of frames and of values are the same. -/
structure Keeps (depth level : Nat) (before after : State) : Prop where
  stack : before.SameBeneath level after
  frames : ∀ place < depth, after.frames[place]? = before.frames[place]?

namespace Keeps

variable {depth level : Nat} {before between after : State}

theorem trans
    (first : before.Keeps depth level between)
    (second : between.Keeps depth level after) :
    before.Keeps depth level after where
  stack := first.stack.trans second.stack
  frames place beneath := (second.frames place beneath).trans (first.frames place beneath)

theorem of_same
    (stack : after.stack = before.stack)
    (frames : after.frames = before.frames) :
    before.Keeps depth level after where
  stack := .of_stack stack
  frames place _ := by rw [frames]

end Keeps

theorem Above.of_frames
    {depth level : Nat}
    {before after : State}
    (above : before.Above depth level)
    (frames : after.frames = before.frames) :
    after.Above depth level := by
  constructor <;> rw [frames]
  · exact above.size
  · exact above.bases

end State

/-! ## Frames after a call -/

/-- Frames that have moved at most stand where they stood. -/
theorem Frame.bases_modify
    (frames : Array Frame)
    (place offset : Nat) :
    (frames.modify place fun frame => { frame with offset }).map Frame.base =
      frames.map Frame.base := by
  apply Array.ext_getElem?
  intro index
  rw [Array.getElem?_map, Array.getElem?_map, Array.getElem?_modify]
  split
  · rw [Option.map_map]
    rfl
  · rfl

namespace Action.Entered

variable
  {before after : Array Frame}
  {result : Except Interruption Transition}

theorem kept
    (entered : Entered before result after)
    {place : Nat}
    (inside : place < before.size) :
    after[place]? = before[place]? := by
  cases entered with
  | interrupted | atOnce | host => rfl
  | function frame => rw [Array.getElem?_push, if_neg (Nat.ne_of_lt inside)]

theorem size_le (entered : Entered before result after) : before.size ≤ after.size := by
  cases entered with
  | interrupted | atOnce | host => exact Nat.le_refl _
  | function frame =>
      rw [Array.size_push]
      exact Nat.le_succ _

end Action.Entered

/-- Added frames stand above, and the others stand where they stood. -/
theorem State.Above.entered
    {depth level : Nat}
    {before after : State}
    (above : before.Above depth level)
    {moved : Array Frame}
    (bases : moved.map Frame.base = before.frames.map Frame.base)
    {result : Except Interruption Transition}
    (entered : Action.Entered moved result after.frames)
    (added :
      ∀ place frame,
        before.frames.size ≤ place → after.frames[place]? = some frame → level ≤ frame.base) :
    after.Above depth level := by
  have size : moved.size = before.frames.size := by
    simpa using congrArg Array.size bases
  refine ⟨Nat.le_trans (size ▸ above.size) entered.size_le, ?_⟩
  intro place frame isAbove found
  by_cases old : place < before.frames.size
  · rw [entered.kept (size ▸ old)] at found
    have same := congrArg (fun bases => bases[place]?) bases
    simp only [Array.getElem?_map, found, Array.getElem?_eq_getElem old, Option.map_some,
      Option.some.injEq] at same
    rw [same]
    exact above.bases place _ isAbove (Array.getElem?_eq_getElem old)
  · exact added place frame (Nat.le_of_not_lt old) found

namespace Machine

/-! ## Machines -/

/--
Inside something that has been begun in the calls `around`: the nested calls, the functions
and the host routine that goes on have a number of frames and of values beneath them.
-/
structure Inside (inner around : List SubRun) (depth level : Nat) (machine : Machine) : Prop where
  subRuns : machine.subRuns = inner ++ around
  nested : ∀ subRun ∈ inner, subRun.Above depth level
  state : machine.state.Above depth level
  routine : ∀ caller program, machine.control = .host caller program → level ≤ caller.slot

/--
The outermost of some nested calls goes on, or it has ended last of all.  Then the routine
that waits for it is told of the outcome, and the frames of the call have been left.
-/
def Renested (inner remaining : List SubRun) (next : Machine) : Prop :=
  ∀ others outermost,
    inner = others ++ [outermost] →
      (∃ left, remaining = left ++ [outermost]) ∨
        remaining = [] ∧
          next.state.frames.size ≤ outermost.entryDepth ∧
          ∃ caller program outcome,
            outermost.awaiting = some (caller, program) ∧
              next.control = .host caller (program outcome)

theorem Renested.same (inner : List SubRun) (next : Machine) : Renested inner inner next :=
  fun others _ split => .inl ⟨others, split⟩

theorem Renested.ended
    {subRun : SubRun}
    {rest : List SubRun}
    {caller : HostCall}
    {program : Except RuntimeError Value → HostProgram}
    (awaiting : subRun.awaiting = some (caller, program))
    {next : Machine}
    (cut : next.state.frames.size ≤ subRun.entryDepth)
    {outcome : Except RuntimeError Value}
    (isHost : next.control = .host caller (program outcome)) :
    Renested (subRun :: rest) rest next := by
  intro others outermost split
  rcases others with _ | ⟨first, others⟩
  · cases split
    exact .inr ⟨rfl, cut, caller, program, outcome, awaiting, isHost⟩
  · rcases List.cons.inj split with ⟨-, rfl⟩
    exact .inl ⟨others, rfl⟩

theorem Renested.begun
    {subRun : SubRun}
    {inner remaining : List SubRun}
    {next : Machine}
    (renested : Renested (subRun :: inner) remaining next) :
    Renested inner remaining next := by
  rintro others outermost rfl
  exact renested (subRun :: others) outermost rfl

/-- A fault ends the innermost of some calls from outside. -/
inductive FailsIn (around : List SubRun) : Machine → Prop where
  | raise (state : State) (control : Control) (fault : Fault) :
      FailsIn around (Machine.raise { state, control, subRuns := around } fault)

/-- What a step inside leads to. -/
inductive StepsInside (inner around : List SubRun) (depth level : Nat) (before : State)
    (next : Machine) : Prop where
  | goesOn
      {remaining : List SubRun}
      (renested : Renested inner remaining next)
      (inside : next.Inside remaining around depth level)
      (keeps : before.Keeps depth level next.state)
  | stuck (isStuck : next.control = .stuck)
  | fails (isOutermost : inner = []) (fails : next.FailsIn around)

section Settling

variable
  {inner around : List SubRun}
  {depth level : Nat}
  {before after : State}
  {control : Control}

theorem StepsInside.since
    {next : Machine}
    (steps : StepsInside inner around depth level after next)
    (keeps : before.Keeps depth level after) :
    StepsInside inner around depth level before next := by
  cases steps with
  | goesOn renested inside kept => exact .goesOn renested inside (keeps.trans kept)
  | stuck isStuck => exact .stuck isStuck
  | fails isOutermost fails => exact .fails isOutermost fails

/-- A routine goes on that has left the frames as they were. -/
theorem Inside.host
    {machine : Machine}
    (inside : machine.Inside inner around depth level)
    {caller : HostCall}
    {program : HostProgram}
    (isHost : machine.control = .host caller program)
    (frames : after.frames = machine.state.frames)
    (next : HostProgram) :
    Inside inner around depth level
      { state := after, control := .host caller next, subRuns := machine.subRuns } where
  subRuns := inside.subRuns
  nested := inside.nested
  state := inside.state.of_frames frames
  routine := by
    rintro _ _ ⟨⟩
    exact inside.routine caller program isHost

/-- A nested call that ends hands its outcome to a routine inside. -/
theorem conclude_inside
    {subRun : SubRun}
    {rest : List SubRun}
    (nested : ∀ other ∈ subRun :: rest, other.Above depth level)
    (above : after.Above depth level)
    (cut : after.frames.size ≤ subRun.entryDepth)
    (outcome : Except RuntimeError Value) :
    StepsInside (subRun :: rest) around depth level after
      (conclude { state := after, control, subRuns := subRun :: rest ++ around } outcome) := by
  rcases (nested subRun List.mem_cons_self).awaited with ⟨caller, next, awaiting, bound⟩
  rcases subRun with ⟨mark, entry, _⟩
  cases awaiting
  refine .goesOn (.ended rfl cut rfl) ⟨rfl, ?_, above, ?_⟩ (.of_same rfl rfl)
  · exact fun other member => nested other (List.mem_cons_of_mem _ member)
  · rintro other program ⟨⟩
    exact bound

/-- A fault in a nested call cuts back what it has added. -/
theorem raise_inside
    (nested : ∀ subRun ∈ inner, subRun.Above depth level)
    (above : after.Above depth level)
    (fault : Fault) :
    StepsInside inner around depth level after
      (raise { state := after, control, subRuns := inner ++ around } fault) := by
  rcases inner with _ | ⟨subRun, rest⟩
  · exact .fails rfl (.raise after control fault)
  · have stands := nested subRun List.mem_cons_self
    let left : State :=
      { after with
        stack := after.stack.shrink subRun.stackMark
        frames := after.frames.shrink subRun.entryDepth }
    have size : left.frames.size ≤ subRun.entryDepth := by
      show (after.frames.shrink subRun.entryDepth).size ≤ _
      rw [Array.size_shrink]
      exact Nat.min_le_left _ _
    have keeps : after.Keeps depth level left := by
      refine ⟨.cut after stands.mark, fun place beneath => ?_⟩
      show (after.frames.shrink subRun.entryDepth)[place]? = _
      rw [← Array.getElem?_toList, Array.toList_shrink,
        List.getElem?_take_of_lt (Nat.lt_of_lt_of_le beneath stands.depth), Array.getElem?_toList]
    have stays : left.Above depth level := by
      refine ⟨?_, fun place frame isAbove found => ?_⟩
      · show depth ≤ (after.frames.shrink subRun.entryDepth).size
        rw [Array.size_shrink]
        exact Nat.le_min.mpr ⟨stands.depth, above.size⟩
      · exact above.bases place frame isAbove (getElem?_of_shrink found).2
    exact (conclude_inside nested stays size _).since keeps

/-- What an action has led to is above, and the machine goes on inside. -/
theorem settle_inside
    {result : Except Interruption Transition}
    (bound : inner = [] → entryDepthOf around < depth)
    (nested : ∀ subRun ∈ inner, subRun.Above depth level)
    (above : after.Above depth level)
    (routine : ∀ caller program, result = .ok (.enterHost caller program) → level ≤ caller.slot)
    (room :
      result = .ok .proceed →
        entryDepthOf (inner ++ around) < after.frames.size ∨ level < after.stack.size)
    (finishes :
      ∀ value,
        result = .ok (.finished value) → after.frames.size ≤ entryDepthOf (inner ++ around)) :
    StepsInside inner around depth level after
      (settle .script (inner ++ around) (result, after)) := by
  rcases result with (fault | _) | (_ | ⟨caller, program⟩ | value)
  · exact raise_inside nested above fault
  · exact .stuck rfl
  · show StepsInside _ _ _ _ _ (resume _)
    unfold resume
    simp only [entryDepth_eq]
    by_cases deeper : entryDepthOf (inner ++ around) < after.frames.size
    · rw [if_pos deeper]
      exact .goesOn (.same _ _) ⟨rfl, nested, above, nofun⟩ (.of_same rfl rfl)
    · rw [if_neg deeper]
      have enough := (room rfl).resolve_left deeper
      have top : after.stack.back? = some after.stack[after.stack.size - 1] := by
        rw [Array.back?_eq_getElem?, Array.getElem?_eq_getElem]
      simp only [Action.pop, top]
      rcases inner with _ | ⟨subRun, rest⟩
      · exact absurd (Nat.lt_of_lt_of_le (bound rfl) above.size) deeper
      · have popped : State.Above depth level { after with stack := after.stack.pop } :=
          above.of_frames rfl
        exact (conclude_inside nested popped (Nat.le_of_not_lt deeper) _).since
          ⟨.pop after enough, fun _ _ => rfl⟩
  · exact .goesOn (.same _ _) ⟨rfl, nested, above, by rintro _ _ ⟨⟩; exact routine _ _ rfl⟩
      (.of_same rfl rfl)
  · rcases inner with _ | ⟨subRun, rest⟩
    · have outer := Nat.le_trans above.size (finishes value rfl)
      exact absurd (bound rfl) (Nat.not_lt.mpr outer)
    · exact conclude_inside nested above (finishes value rfl) _

/-- An action that stays above has been carried out, and it has called one thing at most. -/
theorem settle_of_entered
    {action : Action Transition}
    (bound : inner = [] → entryDepthOf around < depth)
    (nested : ∀ subRun ∈ inner, subRun.Above depth level)
    (above : before.Above depth level)
    (stays : action.StaysAbove level before)
    {moved : Array Frame}
    (bases : moved.map Frame.base = before.frames.map Frame.base)
    (entered : Action.Entered moved (action before).1 (action before).2.frames)
    (room :
      (action before).1 = .ok .proceed →
        entryDepthOf (inner ++ around) < (action before).2.frames.size ∨
          level < (action before).2.stack.size) :
    StepsInside inner around depth level { before with frames := moved }
      (settle .script (inner ++ around) (action before)) := by
  have size : moved.size = before.frames.size := by
    simpa using congrArg Array.size bases
  unfold Action.StaysAbove Action.Ensures at stays
  rcases outcome : action before with ⟨result, after⟩
  rw [outcome] at stays entered room
  have keeps : State.Keeps depth level { before with frames := moved } after := by
    refine ⟨?_, fun place beneath => entered.kept ?_⟩
    · cases result <;> first | exact stays | exact stays.1
    · exact Nat.lt_of_lt_of_le beneath (size ▸ above.size)
  refine (settle_inside bound nested ?_ ?_ room ?_).since keeps
  · refine above.entered bases entered fun place frame outside found => ?_
    cases result with
    | ok transition => exact stays.2.frames place frame outside found
    | error interruption =>
        have inside := (Array.getElem?_eq_some_iff.mp found).1
        rw [entered.interrupted_frames] at inside
        omega
  · rintro caller program rfl
    exact stays.2.host caller program rfl
  · rintro value rfl
    cases entered

end Settling

end Machine

/-! ## Steps -/

namespace OuterCall

open Machine

variable
  {environment : Environment}
  {call : OuterCall}
  {machine : Machine}
  {inner around : List SubRun}
  {depth level : Nat}

/-- The innermost frame moves, the others stay where they are. -/
theorem frames_fetched
    (state : State)
    (frame : Frame)
    (instruction : Instruction) :
    (state.fetched environment frame instruction).frames =
      (Action.moveTo (frame.offset + instruction.length) state).2.frames := by
  unfold State.fetched Action.moveTo Action.change
  simp only [State.frames_recorded]

theorem getElem?_moveTo
    {state : State}
    {place : Nat}
    (below : place + 1 < state.frames.size)
    (offset : Nat) :
    (Action.moveTo offset state).2.frames[place]? = state.frames[place]? := by
  show (state.frames.modify _ _)[place]? = _
  rw [Array.getElem?_modify, if_neg (by omega)]

theorem above_fetched
    {state : State}
    (above : state.Above depth level)
    (frame : Frame)
    (instruction : Instruction) :
    (state.fetched environment frame instruction).Above depth level := by
  have bases :
      (state.fetched environment frame instruction).frames.map Frame.base =
        state.frames.map Frame.base := by
    rw [frames_fetched]
    exact Frame.bases_modify _ _ _
  refine above.entered bases .atOnce fun place other outside found => ?_
  have inside := (Array.getElem?_eq_some_iff.mp found).1
  rw [State.size_frames_fetched] at inside
  omega

section Inside

variable
  (orderly : call.state.Orderly)
  (reaches : call.Reaches environment machine)
  (lasts : call.Lasts machine)
  (inside : machine.Inside inner around depth level)
  (bound : inner = [] → entryDepthOf around < depth)

include orderly reaches lasts inside

/-- A routine that stands above calls something. -/
theorem start_inside
    {caller : HostCall}
    {callee : Value}
    {arguments : List Value}
    {program : Except RuntimeError Value → HostProgram}
    (isHost : machine.control = .host caller (.call callee arguments program)) :
    let subRun : SubRun :=
      { stackMark := machine.state.stack.size
        entryDepth := machine.state.frames.size
        awaiting := some (caller, program) }
    StepsInside (subRun :: inner) around depth level machine.state (machine.step environment) := by
  have slot := reaches.slot_lt orderly lasts isHost
  have base := inside.routine caller _ isHost
  rcases inside with ⟨isNested, nested, above, -⟩
  rcases machine with ⟨state, control, subRuns⟩
  change control = _ at isHost
  change subRuns = _ at isNested
  subst isHost isNested
  have enough : level ≤ state.stack.size := Nat.le_trans base (Nat.le_of_lt slot)
  intro subRun
  have stands : subRun.Above depth level := ⟨above.size, enough, caller, program, rfl, base⟩
  have members : ∀ other ∈ subRun :: inner, other.Above depth level :=
    List.forall_mem_cons.mpr ⟨stands, nested⟩
  have outer : subRun :: inner = [] → entryDepthOf around < depth :=
    fun isEmpty => absurd isEmpty (List.cons_ne_nil _ _)
  rcases Action.CallsAbove.enter environment ((inner ++ around).length + 1) callee arguments
      |>.stays state enough with ⟨stays, room⟩
  exact settle_of_entered outer members above stays rfl
    ((enter_calls _ callee arguments).entered state) fun proceeds =>
      .inr (room _ (Prod.ext proceeds rfl))

include bound

/-- An instruction other than a return stays above a level. -/
theorem instruction_inside
    {frame : Frame}
    {instruction : Instruction}
    (executes : machine.Executes frame instruction)
    (above :
      (Action.execute environment machine.entryDepth instruction).StaysAbove level
        (machine.state.fetched environment frame instruction))
    {target : Nat}
    (entered :
      let fetched := machine.state.fetched environment frame instruction
      Action.Entered (Action.moveTo target fetched).2.frames
        (Action.execute environment machine.entryDepth instruction fetched).1
        (Action.execute environment machine.entryDepth instruction fetched).2.frames) :
    StepsInside inner around depth level
      (Action.moveTo target (machine.state.fetched environment frame instruction)).2
      (machine.step environment) := by
  rcases reaches.steps orderly lasts executes with ⟨shape, -, steps, size⟩
  rcases steps.operands with ⟨slots, admitted⟩
  have named :
      ∀ index argumentCount,
        instruction = .invoke index argumentCount → ∃ name, frame.HasName index name := by
    rintro index argumentCount rfl
    exact admitted
  rw [executes.step_eq named, inside.subRuns]
  refine settle_of_entered bound inside.nested (above_fetched inside.state _ _) above
    (Frame.bases_modify _ _ _) entered fun _ => .inl ?_
  have deeper := reaches.inFrame executes.control
  rw [entryDepth_eq, inside.subRuns] at deeper
  refine Nat.lt_of_lt_of_le deeper (Nat.le_trans (Nat.le_of_eq ?_) entered.size_le)
  show _ = (Array.modify _ _ _).size
  rw [Array.size_modify, State.size_frames_fetched]

/-- A function that stands above carries out an instruction other than a return. -/
theorem execute_inside
    {frame : Frame}
    {instruction : Instruction}
    (executes : machine.Executes frame instruction)
    (stands : level ≤ frame.base + 1)
    (stays : instruction ≠ .leave)
    {target : Nat}
    (entered :
      let fetched := machine.state.fetched environment frame instruction
      Action.Entered (Action.moveTo target fetched).2.frames
        (Action.execute environment machine.entryDepth instruction fetched).1
        (Action.execute environment machine.entryDepth instruction fetched).2.frames) :
    StepsInside inner around depth level
      (Action.moveTo target (machine.state.fetched environment frame instruction)).2
      (machine.step environment) := by
  rcases reaches.steps orderly lasts executes with ⟨shape, -, steps, size⟩
  rcases steps.operands with ⟨slots, admitted⟩
  refine instruction_inside orderly reaches lasts inside bound executes
    ((Action.execute_above (State.back?_fetched executes.innermost) ?_ stays ?_).mono stands)
    entered
  · show frame.base + _ < _
    rw [State.stack_fetched, size]
    have takes := steps.takes
    omega
  · rintro slot rfl
    exact admitted.1

/-- A function that stands above returns. -/
theorem leave_inside
    {frame : Frame}
    (executes : machine.Executes frame .leave)
    (stands : depth < machine.state.frames.size) :
    StepsInside inner around depth level machine.state (machine.step environment) := by
  rcases reaches.steps orderly lasts executes with ⟨shape, -, steps, size⟩
  have takes : 1 < shape.height := steps.takes
  have base : level ≤ frame.base := by
    have last := executes.innermost
    rw [Array.back?_eq_getElem?] at last
    exact inside.state.bases _ frame (by omega) last
  let fetched := machine.state.fetched environment frame .leave
  have innermost : fetched.frames.back? = some { frame with offset := frame.offset + 1 } :=
    State.back?_fetched executes.innermost
  have room : frame.base < fetched.stack.size := by
    rw [State.stack_fetched, size]
    omega
  have top : fetched.stack.back? = some fetched.stack[fetched.stack.size - 1] := by
    rw [Array.back?_eq_getElem?, Array.getElem?_eq_getElem]
  rcases Action.leave_cases environment (entryDepthOf (inner ++ around)) innermost top with
    ⟨frames, cases⟩
  have stays :=
    Action.leave_above environment (entryDepthOf (inner ++ around)) innermost base room
  have isNext :
      machine.step environment =
        settle .script (inner ++ around)
          (Action.leave environment (entryDepthOf (inner ++ around)) fetched) := by
    rw [executes.step_eq nofun, inside.subRuns, entryDepth_eq, inside.subRuns]
    rfl
  rw [isNext]
  unfold Action.StaysAbove Action.Ensures at stays
  rcases left : Action.leave environment (entryDepthOf (inner ++ around)) fetched with
    ⟨result, after⟩
  rw [left] at stays frames cases
  have size : fetched.frames.size = machine.state.frames.size := State.size_frames_fetched
  have remain : depth ≤ fetched.frames.pop.size := by
    rw [Array.size_pop, size]
    omega
  have sameStack : machine.state.SameBeneath level fetched := .of_stack State.stack_fetched
  have keeps : machine.state.Keeps depth level after := by
    constructor
    · refine sameStack.trans ?_
      cases result <;> first | exact stays | exact stays.1
    · intro place beneath
      rw [show after.frames = fetched.frames.pop from frames, Array.getElem?_pop,
        if_pos (by omega), frames_fetched, getElem?_moveTo (by omega)]
  refine (settle_inside bound inside.nested ?_ ?_ ?_ ?_).since keeps
  · refine ⟨Nat.le_trans remain (Nat.le_of_eq (congrArg Array.size frames.symm)), ?_⟩
    intro place other isAbove found
    rw [show after.frames = fetched.frames.pop from frames] at found
    exact (above_fetched inside.state frame .leave).bases place other isAbove
      (getElem?_of_pop found)
  · rintro caller program rfl
    rcases cases with ⟨isFinished, -⟩ | ⟨proceeds | ⟨interruption, stopped⟩, -⟩
    · cases isFinished
    · cases proceeds
    · cases stopped
  · rintro rfl
    rcases cases with ⟨isFinished, -⟩ | ⟨-, deeper⟩
    · cases isFinished
    · refine .inl (Nat.lt_of_lt_of_eq deeper ?_)
      exact congrArg Array.size frames.symm
  · rintro value rfl
    rcases cases with ⟨-, ends⟩ | ⟨proceeds | ⟨interruption, stopped⟩, -⟩
    · exact Nat.le_trans (Nat.le_of_eq (congrArg Array.size frames)) ends
    · cases proceeds
    · cases stopped

/-- A host routine that stands above goes on. -/
theorem host_inside
    {caller : HostCall}
    {program : HostProgram}
    (isHost : machine.control = .host caller program) :
    StepsInside inner around depth level machine.state (machine.step environment) := by
  cases program with
  | call callee arguments next =>
      cases start_inside orderly reaches lasts inside isHost with
      | goesOn renested inside keeps => exact .goesOn renested.begun inside keeps
      | stuck isStuck => exact .stuck isStuck
      | fails isOutermost => cases isOutermost
  | finish value =>
      have slot := reaches.slot_lt orderly lasts isHost
      have base := inside.routine caller _ isHost
      rcases inside with ⟨isNested, nested, above, -⟩
      rcases machine with ⟨state, control, subRuns⟩
      change control = _ at isHost
      change subRuns = _ at isNested
      subst isHost isNested
      let completes : Action Transition := do
        Action.completeHostCall environment caller value
        return .proceed
      rcases Action.CallsAbove.completeHostCall environment base state (Nat.le_of_lt slot) value
        with ⟨stays, room⟩
      have calls : Action.Calls completes := inferInstance
      exact settle_of_entered bound nested above stays rfl (calls.entered state) fun proceeds =>
        .inr (room _ (Prod.ext proceeds rfl))
  | fail message =>
      rcases machine with ⟨state, control, subRuns⟩
      cases isHost
      cases inside.subRuns
      exact raise_inside inside.nested inside.state _
  | inspect next =>
      rcases machine with ⟨state, control, subRuns⟩
      cases isHost
      exact .goesOn (.same _ _) (inside.host rfl rfl _) (.of_same rfl rfl)
  | perform request next =>
      rcases machine with ⟨state, control, subRuns⟩
      cases isHost
      rcases request.frames_perform state with ⟨stack, frames⟩
      exact .goesOn (.same _ _) (inside.host rfl frames _) (.of_same stack frames)

/-- What stands above makes a step. -/
theorem step_inside
    (stands : machine.control = .script → depth < machine.state.frames.size) :
    StepsInside inner around depth level machine.state (machine.step environment) := by
  cases control : machine.control with
  | ended outcome =>
      have notEnded := (reaches.goesOn lasts).notEnded
      rw [control] at notEnded
      cases notEnded
  | stuck => exact .stuck (stuck_step control)
  | host caller program => exact host_inside orderly reaches lasts inside bound control
  | script =>
      have deeper := stands control
      rcases reaches.executes orderly lasts control with
        ⟨stops, -⟩ | ⟨frame, instruction, executes, -, -⟩
      · exact .stuck stops
      · by_cases returns : instruction = .leave
        · subst returns
          exact leave_inside orderly reaches lasts inside bound executes deeper
        · have last := executes.innermost
          rw [Array.back?_eq_getElem?] at last
          have base := inside.state.bases _ frame (by omega) last
          rcases reaches.steps orderly lasts executes with ⟨shape, -, steps, -⟩
          rcases Action.execute_entered environment machine.entryDepth
            (State.back?_fetched executes.innermost) rfl returns steps.backward with
            ⟨target, -, entered⟩
          have sameStack :
              machine.state.SameBeneath level
                (machine.state.fetched environment frame instruction) :=
            .of_stack State.stack_fetched
          refine (execute_inside orderly reaches lasts inside bound executes
            (Nat.le_succ_of_le base) returns entered).since ⟨sameStack, ?_⟩
          intro place beneath
          rw [getElem?_moveTo, frames_fetched, getElem?_moveTo (by omega)]
          rw [State.size_frames_fetched]
          omega

end Inside

end OuterCall

end ScriptEngine
