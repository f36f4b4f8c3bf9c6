import ScriptEngine.Proofs.Compiler.Operands
import ScriptEngine.Proofs.Machine.Veil
import ScriptEngine.Proofs.Machine.Yielding

/-!
# Expressions above an instance under construction

A function evaluates an expression while an instance that is mentioned nowhere else lies in a
slot beneath the operands (`Site.Evaluates`).  What the expression calls stands above the slot.
The instructions of the expression itself take their operands above the slot and address local
variables beneath it.  So no step gets to the instance (`Site.Evaluates.step`), and when the
function has come to the end of the expression, the slot has one value above it.
-/

namespace ScriptEngine

/-- The function of a frame goes on. -/
structure Machine.StandsAt (place : Nat) (frame : Frame) (machine : Machine) : Prop where
  control : machine.control = .script
  size : machine.state.frames.size = place + 1
  innermost : machine.state.frames.back? = some frame

/-- An instruction has been carried out, and the innermost function goes on. -/
theorem Machine.Executes.proceeds
    {environment : Environment}
    {machine : Machine}
    {frame : Frame}
    {instruction : Instruction}
    (executes : machine.Executes frame instruction)
    (named :
      ∀ index argumentCount,
        instruction = .invoke index argumentCount → ∃ name, frame.HasName index name)
    {after : State}
    (done :
      Action.execute environment machine.entryDepth instruction
          (machine.state.fetched environment frame instruction) =
        (.ok .proceed, after))
    (deeper : machine.entryDepth < after.frames.size) :
    machine.step environment =
      { state := after, control := .script, subRuns := machine.subRuns } := by
  rw [executes.step_eq named, done]
  exact resume_of_deeper deeper

namespace Action

variable {environment : Environment} {entryDepth : Nat} {state : State}

/-- An instruction that finds its operands above a level, and assigns no local variable. -/
theorem execute_stays
    {level : Nat}
    {instruction : Instruction}
    (room : level + instruction.takes ≤ state.stack.size)
    (stays : instruction ≠ .leave)
    (notWritten : ∀ slot, instruction ≠ .setLocal slot) :
    (execute environment entryDepth instruction).StaysAbove level state := by
  cases instruction with
  | getLocal slot => exact getLocal_stays _ (Nat.le_of_add_right_le room)
  | setLocal slot => exact absurd rfl (notWritten slot)
  | leave => exact absurd rfl stays
  | _ => exact (execute_confined level rfl state room).1

/-- A local variable that is there is assigned. -/
theorem setLocal_eq
    {frame : Frame}
    (innermost : state.frames.back? = some frame)
    {slot : Nat}
    (inside : frame.base + slot < state.stack.size) :
    ∃ value,
      andProceed (setLocal slot) state =
        (.ok .proceed,
          { state with stack := state.stack.setIfInBounds (frame.base + slot) value }) := by
  have room : 0 < state.stack.size := Nat.zero_lt_of_lt inside
  refine ⟨state.stack.getD (state.stack.size - 1 - 0) .null, ?_⟩
  have peeks : peek 0 state = (.ok (state.stack.getD (state.stack.size - 1 - 0) .null), state) :=
    if_pos room
  unfold setLocal Action.frame andProceed
  simp only [bind_assoc]
  rw [look_bind, innermost, Option.getD_some, bind_of_ok peeks, look_bind, if_pos inside]
  rfl

end Action

namespace Site

open Machine

/--
The function of a frame evaluates an expression whose code begins at one offset and ends at
another.  Beneath the operands, a slot holds an instance that is mentioned nowhere else.
-/
structure Evaluates (site : Site) (frame : Frame) (slot id : Nat) (object : Object)
    (locals beginning ending : Nat) (inner : List SubRun) (machine : Machine) : Prop where
  inside : machine.Inside inner site.around (site.depth + 1) (slot + 1)
  hides : machine.Hides slot id object
  reads :
    ∃ offset height,
      machine.state.frames[site.depth]? = some { frame with offset } ∧
        beginning ≤ offset ∧
        frame.function.ClimbsAt locals 1 height offset ending ∧
        ∀ shape,
          frame.function.ShapeAt offset shape → frame.base + shape.height = slot + 1 + height

/-- A fault ends the call in which the function is active, or the code has no next instruction. -/
def Breaks (site : Site) (next : Machine) : Prop :=
  next.FailsIn site.around ∨ next.control = .stuck

section Steps

variable
  {environment : Environment}
  {call : OuterCall}
  {machine : Machine}
  {site : Site}
  {frame : Frame}
  {slot id locals beginning ending : Nat}
  {object : Object}
  {inner : List SubRun}
  (orderly : call.state.Orderly)
  (reaches : call.Reaches environment machine)
  (lasts : call.Lasts machine)
  (honest : environment.host.Honest)
  (evaluates : site.Evaluates frame slot id object locals beginning ending inner machine)

include orderly reaches lasts honest evaluates

/-- What the expression has called makes a step. -/
theorem Evaluates.others
    (waits : machine.control = .script → site.depth + 1 < machine.state.frames.size) :
    (∃ remaining,
        site.Evaluates frame slot id object locals beginning ending remaining
          (machine.step environment)) ∨
      site.Breaks (machine.step environment) := by
  rcases evaluates with ⟨inside, hides, offset, height, here, reads⟩
  cases OuterCall.step_inside orderly reaches lasts inside (fun _ => Nat.lt_succ_of_le site.within)
    waits with
  | stuck isStuck => exact .inr (.inr isStuck)
  | fails _ fails => exact .inr (.inl fails)
  | @goesOn remaining _ goesOn keeps =>
      have held := (keeps.stack slot (Nat.lt_succ_self slot)).trans hides.held
      rcases hides_inside orderly reaches lasts honest hides inside waits held with stops | hidden
      · exact .inr (.inr stops)
      · refine .inl ⟨remaining, goesOn, hidden, offset, height, ?_, reads⟩
        exact (keeps.frames _ (Nat.lt_succ_self _)).trans here

/-- The function carries out an instruction of the expression. -/
theorem Evaluates.execute
    (frames : machine.state.frames.size = site.depth + 1)
    (beneath : frame.base + locals ≤ slot)
    {offset height : Nat}
    {instruction : Instruction}
    (executes : machine.Executes { frame with offset } instruction)
    (after : beginning ≤ offset)
    (climbs : frame.function.ClimbsBy locals 1 height offset ending instruction)
    (shapes :
      ∀ shape,
        frame.function.ShapeAt offset shape → frame.base + shape.height = slot + 1 + height) :
    (∃ remaining,
        site.Evaluates frame slot id object locals beginning ending remaining
          (machine.step environment)) ∨
      site.Breaks (machine.step environment) := by
  rcases evaluates with ⟨inside, hides, -⟩
  rcases site.alone reaches inside executes.control frames with ⟨rfl, outer⟩
  rcases reaches.steps orderly lasts executes with ⟨shape, shaped, steps, size⟩
  have isHeight := shapes shape shaped
  have takes := climbs.takes
  change machine.state.stack.size = frame.base + shape.height at size
  have innermost :
      (machine.state.fetched environment { frame with offset } instruction).frames.back? =
        some { frame with offset := offset + instruction.length } :=
    State.back?_fetched executes.innermost
  -- What is read at the offsets that can follow.
  have goesOn (target : Nat) (follows : target ∈ instruction.successors offset) :
      beginning ≤ target ∧
        frame.function.ClimbsAt locals 1 (height - instruction.takes + instruction.gives) target
          ending ∧
        ∀ later,
          frame.function.ShapeAt target later →
            frame.base + later.height =
              slot + 1 + (height - instruction.takes + instruction.gives) := by
    rcases climbs.onward target follows with ⟨behind, onward⟩
    refine ⟨Nat.le_trans after (Nat.le_of_lt behind), onward, fun later isLater => ?_⟩
    rw [isLater.unique (steps.passes target follows)]
    show frame.base + (shape.height - instruction.takes + instruction.gives) = _
    omega
  have apart (other : UInt8) (bound : other.toNat < locals) : frame.base + other.toNat ≠ slot := by
    omega
  have hidden (held : (machine.step environment).state.stack[slot]? = some (.object id)) :
      (machine.step environment).Hides slot id object := by
    refine hides_instruction orderly reaches lasts honest hides executes climbs.stays (by omega)
      ?_ ?_ held
    · rintro other rfl
      exact apart other climbs.below
    · rintro other rfl
      exact apart other climbs.below
  by_cases assigns : ∃ other, instruction = .setLocal other
  · -- The variable lies beneath the slot, so the stack changes where nothing else does.
    rcases assigns with ⟨other, rfl⟩
    have isBelow : other.toNat < locals := climbs.below
    have follows : offset + 2 ∈ (Instruction.setLocal other).successors offset :=
      List.mem_singleton.mpr rfl
    have room :
        frame.base + other.toNat <
          (machine.state.fetched environment { frame with offset }
            (.setLocal other)).stack.size := by
      rw [State.stack_fetched]
      omega
    rcases Action.setLocal_eq innermost room with ⟨value, assigned⟩
    have deeper :
        machine.entryDepth <
          (machine.state.fetched environment { frame with offset }
            (.setLocal other)).frames.size := by
      rw [State.size_frames_fetched]
      exact reaches.inFrame executes.control
    have isNext := executes.proceeds nofun assigned deeper
    rw [outer] at isNext
    have held : (machine.step environment).state.stack[slot]? = some (.object id) := by
      rw [isNext]
      show ((machine.state.fetched environment { frame with offset } _).stack.setIfInBounds _ _)[
        slot]? = _
      rw [Array.getElem?_setIfInBounds_ne (apart other isBelow), State.stack_fetched]
      exact hides.held
    refine .inl ⟨[], ?_, hidden held, _, _, ?_, goesOn _ follows⟩
    · rw [isNext]
      exact ⟨rfl, nofun, (OuterCall.above_fetched inside.state _ _).of_frames rfl, nofun⟩
    · rw [isNext]
      rw [Array.back?_eq_getElem?, State.size_frames_fetched, frames, Nat.add_sub_cancel]
        at innermost
      exact innermost
  · rcases Action.execute_entered environment machine.entryDepth innermost rfl climbs.stays
      steps.backward with ⟨target, follows, entered⟩
    have above :
        (Action.execute environment machine.entryDepth instruction).StaysAbove (slot + 1)
          (machine.state.fetched environment { frame with offset } instruction) := by
      refine Action.execute_stays ?_ climbs.stays fun other isWrite => assigns ⟨other, isWrite⟩
      rw [State.stack_fetched]
      omega
    cases OuterCall.instruction_inside orderly reaches lasts inside
      (fun _ => Nat.lt_succ_of_le site.within) executes above entered with
    | stuck isStuck => exact .inr (.inr isStuck)
    | fails _ fails => exact .inr (.inl fails)
    | @goesOn remaining _ insideNext keeps =>
        have held :
            (machine.step environment).state.stack[slot]? = some (.object id) := by
          refine (keeps.stack slot (Nat.lt_succ_self slot)).trans ?_
          show (machine.state.fetched environment { frame with offset } instruction).stack[_]? = _
          rw [State.stack_fetched]
          exact hides.held
        refine .inl ⟨remaining, insideNext, hidden held, target, _, ?_, goesOn target follows⟩
        have last := State.back?_moveTo innermost target
        rw [Array.back?_eq_getElem?] at last
        have here : site.depth = (Action.moveTo target
            (machine.state.fetched environment { frame with offset }
              instruction)).2.frames.size - 1 := by
          show _ = (Array.modify _ _ _).size - 1
          rw [Array.size_modify, State.size_frames_fetched, frames, Nat.add_sub_cancel]
        rw [keeps.frames _ (Nat.lt_succ_self _), here]
        exact last

/-- The function is at the end of the expression, or the evaluation goes on, or it is cut off. -/
theorem Evaluates.step (beneath : frame.base + locals ≤ slot) :
    machine.StandsAt site.depth { frame with offset := ending } ∨
      (∃ remaining,
          site.Evaluates frame slot id object locals beginning ending remaining
            (machine.step environment)) ∨
        site.Breaks (machine.step environment) := by
  by_cases own : machine.control = .script ∧ machine.state.frames.size = site.depth + 1
  · rcases own with ⟨isScript, frames⟩
    rcases evaluates.reads with ⟨offset, height, here, after, climbs, shapes⟩
    have innermost : machine.state.frames.back? = some { frame with offset } := by
      rw [Array.back?_eq_getElem?, frames, Nat.add_sub_cancel]
      exact here
    rcases climbs.cases with ⟨rfl, -⟩ | ⟨instruction, climbs⟩
    · exact .inl ⟨isScript, frames, innermost⟩
    · exact .inr (evaluates.execute orderly reaches lasts honest frames beneath
        ⟨isScript, innermost, climbs.decoded⟩ after climbs shapes)
  · refine .inr (evaluates.others orderly reaches lasts honest fun isScript => ?_)
    exact Nat.lt_of_le_of_ne evaluates.inside.state.size fun size => own ⟨isScript, size.symm⟩

omit honest in
/-- At the end of the expression its value is the only one above the slot. -/
theorem Evaluates.ended
    (stands : machine.StandsAt site.depth { frame with offset := ending })
    {instruction : Instruction}
    (decoded : Instruction.decode frame.function.chunk.code ending = .complete instruction) :
    machine.subRuns = site.around ∧ machine.state.stack.size = slot + 2 := by
  rcases evaluates.reads with ⟨offset, height, here, -, climbs, shapes⟩
  have last := stands.innermost
  rw [Array.back?_eq_getElem?, stands.size, Nat.add_sub_cancel, here] at last
  obtain rfl : offset = ending := congrArg Frame.offset (Option.some.inj last)
  have isHeight : height = 1 := by
    rcases climbs.cases with ⟨-, isHeight⟩ | ⟨instruction, onward⟩
    · exact isHeight
    · exact absurd onward.inside (Nat.lt_irrefl _)
  have executes : machine.Executes { frame with offset } instruction :=
    ⟨stands.control, stands.innermost, decoded⟩
  rcases reaches.steps orderly lasts executes with ⟨shape, shaped, -, size⟩
  have height := shapes shape shaped
  change machine.state.stack.size = frame.base + shape.height at size
  exact ⟨(site.alone reaches evaluates.inside stands.control stands.size).2, by omega⟩

end Steps

/-! ## Runs -/

/--
A number of steps during which a call lasts, and in which nothing fails that a function at a
site has begun.
-/
structure Passage (environment : Environment) (call : OuterCall) (site : Site)
    (run : Nat → Machine) (ended : Nat) : Prop where
  honest : environment.host.Honest
  orderly : call.state.Orderly
  next : ∀ time, run (time + 1) = (run time).step environment
  reaches : ∀ time ≤ ended, call.Reaches environment (run time)
  lasts : ∀ time < ended, call.Lasts (run time)
  unbroken : ∀ time < ended, ¬ site.Breaks (run (time + 1))

/-- The function has not got to the end of an expression before some moment. -/
def EvaluatesUntil (site : Site) (run : Nat → Machine) (frame : Frame) (slot id : Nat)
    (object : Object) (locals beginning ending first last : Nat) : Prop :=
  ∀ time,
    first ≤ time → time ≤ last →
      (∃ inner, site.Evaluates frame slot id object locals beginning ending inner (run time)) ∧
        (time < last → ¬ (run time).StandsAt site.depth { frame with offset := ending })

section Runs

variable
  {environment : Environment}
  {call : OuterCall}
  {site : Site}
  {run : Nat → Machine}
  {frame : Frame}
  {slot id locals beginning ending first last ended : Nat}
  {object : Object}

/-- While an expression is evaluated, its function stands inside its code. -/
theorem Evaluates.confined
    {machine : Machine}
    {inner : List SubRun}
    (evaluates : site.Evaluates frame slot id object locals beginning ending inner machine)
    {offset : Nat}
    (stands : machine.StandsAt site.depth { frame with offset }) :
    beginning ≤ offset ∧ (offset = ending ∨ offset < ending) := by
  rcases evaluates.reads with ⟨other, height, here, after, climbs, -⟩
  have innermost := stands.innermost
  rw [Array.back?_eq_getElem?, stands.size, Nat.add_sub_cancel, here] at innermost
  obtain rfl : other = offset := congrArg Frame.offset (Option.some.inj innermost)
  refine ⟨after, climbs.cases.imp And.left ?_⟩
  rintro ⟨instruction, onward⟩
  exact onward.inside

theorem EvaluatesUntil.confined
    (evaluates :
      site.EvaluatesUntil run frame slot id object locals beginning ending first last)
    {time : Nat}
    (after : first ≤ time)
    (before : time < last)
    {offset : Nat}
    (stands : (run time).StandsAt site.depth { frame with offset }) :
    beginning ≤ offset ∧ offset < ending := by
  rcases evaluates time after (Nat.le_of_lt before) with ⟨⟨inner, goesOn⟩, notEnded⟩
  rcases goesOn.confined stands with ⟨behind, rfl | inside⟩
  · exact absurd stands (notEnded before)
  · exact ⟨behind, inside⟩

/-- An expression that is evaluated goes on being evaluated until its function is at its end. -/
theorem Passage.evaluates
    (passage : Passage environment call site run ended)
    (beneath : frame.base + locals ≤ slot)
    {inner : List SubRun}
    (begins : site.Evaluates frame slot id object locals beginning ending inner (run first))
    {stop : Nat}
    (after : first ≤ stop)
    (before : stop ≤ ended) :
    (∃ last,
        first ≤ last ∧
          last ≤ stop ∧
          (run last).StandsAt site.depth { frame with offset := ending } ∧
          site.EvaluatesUntil run frame slot id object locals beginning ending first last) ∨
      site.EvaluatesUntil run frame slot id object locals beginning ending first stop := by
  induction stop, after using Nat.le_induction with
  | base =>
      refine .inr fun time behind bound => ?_
      obtain rfl := Nat.le_antisymm bound behind
      exact ⟨⟨inner, begins⟩, fun earlier => absurd earlier (Nat.lt_irrefl _)⟩
  | succ stop after induction =>
      rcases induction (Nat.le_of_succ_le before) with
        ⟨last, behind, bound, stands, evaluates⟩ | evaluates
      · exact .inl ⟨last, behind, Nat.le_succ_of_le bound, stands, evaluates⟩
      · by_cases stands : (run stop).StandsAt site.depth { frame with offset := ending }
        · exact .inl ⟨stop, after, Nat.le_succ stop, stands, evaluates⟩
        · rcases (evaluates stop after (Nat.le_refl _)).1 with ⟨present, goesOn⟩
          have stepped := goesOn.step passage.orderly (passage.reaches stop (Nat.le_of_lt before))
            (passage.lasts stop before) passage.honest beneath
          rw [← passage.next] at stepped
          rcases stepped with isEnd | ⟨remaining, later⟩ | breaks
          · exact absurd isEnd stands
          · refine .inr fun time behind bound => ?_
            rcases Nat.lt_or_eq_of_le bound with earlier | rfl
            · rcases evaluates time behind (Nat.lt_succ_iff.mp earlier) with ⟨there, notYet⟩
              refine ⟨there, fun _ => ?_⟩
              rcases Nat.lt_or_eq_of_le (Nat.lt_succ_iff.mp earlier) with strictly | rfl
              · exact notYet strictly
              · exact stands
            · exact ⟨⟨remaining, later⟩, fun earlier => absurd earlier (Nat.lt_irrefl _)⟩
          · exact absurd breaks (passage.unbroken stop before)

end Runs

end Site

end ScriptEngine
