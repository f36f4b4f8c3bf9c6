import ScriptEngine.Proofs.Machine.DisguisedStep
import ScriptEngine.Proofs.Machine.Executing

/-!
# Runs under a disguise

A machine and the same machine under a disguise make the same steps until the outermost
function returns (`Disguise.follows_step`).  Then they end with the same outcome, but for
the lines of a trace, and only the heap is still under the disguise.

A host routine looks at the state, so what it sees must not tell the code of the outermost
function (`IgnoresCode`).
-/

namespace ScriptEngine

/--
States that differ in nothing but the code of the outermost function, in the heap and in its
frame, and in the value in the slot from which it was called.
-/
structure State.LooksLike (slot secret : Nat) (first second : State) : Prop where
  code :
    ∃ function : Function,
      (first.heap.function secret).SameButCode function ∧
        second.heap =
          { first.heap with functions := first.heap.functions.setIfInBounds secret function } ∧
        second.frames = first.frames.modify 0 fun frame => { frame with function }
  outermost : ∃ frame, first.frames[0]? = some frame ∧ frame.function = first.heap.function secret
  stack : ∃ value, second.stack = first.stack.setIfInBounds slot value
  registry : second.registry = first.registry
  texts : second.journal.texts = first.journal.texts
  loads : second.journal.loads = first.journal.loads

/-- A look at the state that tells neither the code of the outermost function nor its slot. -/
def IgnoresCode (slot secret : Nat) (next : State → HostProgram) : Prop :=
  ∀ first second : State, first.LooksLike slot secret second → next first = next second

/-- Outcomes that differ at most in the trace of an error. -/
def SameButTrace : Except RuntimeError Value → Except RuntimeError Value → Prop
  | .ok value, .ok other => other = value
  | .error error, .error other => other.fault = error.fault
  | _, _ => False

namespace Disguise

variable (disguise : Disguise)

/-- The calls from outside that last: the outermost one began at the slot, the others above it. -/
inductive Nested : List SubRun → Prop where
  | outermost : Nested [{ stackMark := disguise.slot, entryDepth := 0, awaiting := none }]
  | inner
      {subRun : SubRun}
      {subRuns : List SubRun}
      {call : HostCall}
      {next : Except RuntimeError Value → HostProgram}
      (awaiting : subRun.awaiting = some (call, next))
      (mark : disguise.slot < subRun.stackMark)
      (depth : 0 < subRun.entryDepth)
      (order : disguise.slot < call.slot)
      (outer : Nested subRuns) :
      Nested (subRun :: subRuns)

/-- A machine and the same machine under a disguise, as long as the outermost function is active. -/
structure Masks (plain other : Machine) : Prop where
  covers : disguise.Covers plain.state other.state
  control : other.control = plain.control
  subRuns : other.subRuns = plain.subRuns
  nested : disguise.Nested plain.subRuns
  above : ∀ call program, plain.control = .host call program → disguise.slot < call.slot
  lasts : plain.control.isEnded = false

/-- The outermost call from outside has ended with and without the disguise. -/
structure Unmasks (plain other : Machine) : Prop where
  remains : disguise.Remains plain.state other.state
  ends :
    ∃ outcome result,
      plain.control = .ended outcome ∧
        other.control = .ended result ∧
        SameButTrace outcome result
  subRuns : plain.subRuns = [] ∧ other.subRuns = []

/-- The machine under the disguise does what the machine does. -/
def Follows (plain other : Machine) : Prop :=
  disguise.Masks plain other ∨ disguise.Unmasks plain other

variable
  {disguise : Disguise}
  {environment : Environment}
  {plain other : State}
  {control otherControl : Control}
  {subRuns : List SubRun}

namespace Covers

theorem looksLike (covers : disguise.Covers plain other) :
    plain.LooksLike disguise.slot disguise.position other := by
  have isOriginal : plain.heap.function disguise.position = disguise.original := by
    unfold Heap.function
    rw [Array.getD_eq_getD_getElem?, covers.original]
    rfl
  rcases covers.outermost with ⟨frame, isOutermost, -, -, isFunction⟩
  exact {
    code := ⟨disguise.function, isOriginal ▸ disguise.same, covers.heap, covers.frames⟩
    outermost := ⟨frame, isOutermost, isFunction.trans isOriginal.symm⟩
    stack := ⟨disguise.value, covers.stack⟩
    registry := covers.registry
    texts := covers.texts
    loads := covers.loads }

/-- The values on top of the stack are the same if they are above the slot. -/
theorem back?_stack
    (covers : disguise.Covers plain other)
    (above : disguise.slot + 1 < plain.stack.size) :
    ∃ value, plain.stack.back? = some value ∧ other.stack.back? = some value := by
  have last : plain.stack.back? = some plain.stack[plain.stack.size - 1] := by
    rw [Array.back?_eq_getElem?, Array.getElem?_eq_getElem]
  refine ⟨_, last, ?_⟩
  rw [Array.back?_eq_getElem?, covers.size_stack, covers.getElem?_stack (by omega),
    ← Array.back?_eq_getElem?, last]

/-- Everything of the call is cut away. -/
theorem cut (covers : disguise.Covers plain other) :
    disguise.Remains
      { plain with stack := plain.stack.shrink disguise.slot, frames := plain.frames.shrink 0 }
      { other with stack := other.stack.shrink disguise.slot, frames := other.frames.shrink 0 } :=
  { covers.toSurrounds with
    stack := by
      rw [covers.stack]
      apply Array.toList_inj.mp
      simp only [Array.toList_shrink, Array.toList_setIfInBounds, List.take_set]
      apply List.set_eq_of_length_le
      exact List.length_take_le _ _
    frames := by
      apply Array.toList_inj.mp
      simp only [Array.toList_shrink, List.take_zero] }

/-- A trace tells the code of the outermost function only. -/
theorem traceFrom_eq
    (covers : disguise.Covers plain other)
    {depth : Nat}
    (inside : 0 < depth) :
    Machine.traceFrom other depth = Machine.traceFrom plain depth := by
  have same : other.frames.toList.drop depth = plain.frames.toList.drop depth := by
    rw [covers.frames, Array.toList_modify]
    apply List.ext_getElem?
    intro place
    have above : ¬ 0 = depth + place := by omega
    simp only [List.getElem?_drop, List.getElem?_modify, if_neg above]
    exact Option.map_id'
  unfold Machine.traceFrom
  rw [same, covers.registry]

end Covers

/-! ## Going on after an action -/

/-- The outcome of a nested call is passed on in the same way. -/
theorem masks_conclude
    (covers : disguise.Covers plain other)
    (nested : disguise.Nested subRuns)
    (inside : 0 < entryDepthOf subRuns)
    (outcome : Except RuntimeError Value) :
    disguise.Masks (Machine.conclude { state := plain, control, subRuns } outcome)
      (Machine.conclude { state := other, control := otherControl, subRuns } outcome) := by
  cases nested with
  | outermost => exact absurd inside (Nat.lt_irrefl 0)
  | @inner subRun rest call next awaiting _ _ order outer =>
      rcases subRun with ⟨mark, depth, _⟩
      cases awaiting
      refine ⟨covers, rfl, rfl, outer, ?_, rfl⟩
      rintro _ _ ⟨⟩
      exact order

/-- The outermost call from outside ends. -/
theorem unmasks_conclude
    (remains : disguise.Remains plain other)
    (nested : disguise.Nested subRuns)
    (outermost : entryDepthOf subRuns = 0)
    {outcome result : Except RuntimeError Value}
    (same : SameButTrace outcome result) :
    disguise.Unmasks (Machine.conclude { state := plain, control, subRuns } outcome)
      (Machine.conclude { state := other, control := otherControl, subRuns } result) := by
  cases nested with
  | outermost => exact ⟨remains, ⟨outcome, result, rfl, rfl, same⟩, rfl, rfl⟩
  | inner _ _ depth => exact absurd outermost (Nat.ne_of_gt depth)

/-- A fault ends the innermost call from outside in the same way. -/
theorem follows_raise
    (covers : disguise.Covers plain other)
    (nested : disguise.Nested subRuns)
    (fault : Fault) :
    disguise.Follows (Machine.raise { state := plain, control, subRuns } fault)
      (Machine.raise { state := other, control := otherControl, subRuns } fault) := by
  cases nested with
  | outermost => exact .inr (unmasks_conclude covers.cut .outermost rfl rfl)
  | @inner subRun rest call next awaiting mark depth order outer =>
      unfold Machine.raise
      simp only [covers.traceFrom_eq depth]
      exact .inl (masks_conclude ((covers.cutStack mark).cutFrames depth)
        (.inner awaiting mark depth order outer) depth _)

/-- The innermost function goes on, or a nested call ends with the value on top of the stack. -/
theorem follows_resume
    (covers : disguise.Covers plain other)
    (nested : disguise.Nested subRuns)
    (goesOn :
      entryDepthOf subRuns < plain.frames.size ∨ disguise.slot + 1 < plain.stack.size) :
    disguise.Follows (Machine.resume { state := plain, control, subRuns })
      (Machine.resume { state := other, control := otherControl, subRuns }) := by
  unfold Machine.resume
  simp only [Machine.entryDepth_eq, covers.size_frames]
  by_cases deeper : entryDepthOf subRuns < plain.frames.size
  · rw [if_pos deeper, if_pos deeper]
    exact .inl ⟨covers, rfl, rfl, nested, nofun, rfl⟩
  · rw [if_neg deeper, if_neg deeper]
    have above := goesOn.resolve_left deeper
    have inside : 0 < entryDepthOf subRuns :=
      Nat.lt_of_lt_of_le covers.frames_pos (Nat.le_of_not_lt deeper)
    rcases covers.back?_stack above with ⟨value, last, same⟩
    simp only [Action.pop, last, same]
    exact .inl (masks_conclude (covers.pop above) nested inside _)

/-- The machines go on in the same way after an action that does not notice the disguise. -/
theorem follows_settle
    (nested : disguise.Nested subRuns)
    {action : Action Transition}
    (goes : Action.GoesDisguised disguise (entryDepthOf subRuns) action plain other) :
    disguise.Follows (Machine.settle control subRuns (action plain))
      (Machine.settle otherControl subRuns (action other)) := by
  unfold Action.GoesDisguised Action.Tracks at goes
  rcases outcome : action other with ⟨interruption | transition, after⟩ <;>
    rcases counterpart : action plain with ⟨same | found, final⟩ <;>
    rw [outcome, counterpart] at goes
  · rcases goes with ⟨rfl, covers⟩
    cases interruption with
    | fault fault => exact follows_raise covers nested fault
    | stuck => exact .inl ⟨covers, rfl, rfl, nested, nofun, rfl⟩
  · cases goes
  · cases goes
  · rcases goes with ⟨rfl, continues⟩
    cases transition with
    | proceed => exact follows_resume continues.1 nested continues.2
    | enterHost call program =>
        refine .inl ⟨continues.1, rfl, rfl, nested, ?_, rfl⟩
        rintro _ _ ⟨⟩
        exact continues.2
    | finished value =>
        rcases continues with ⟨covers, ends⟩ | ⟨remains, outermost⟩
        · have inside := Nat.lt_of_lt_of_le covers.frames_pos ends
          exact .inl (masks_conclude covers nested inside _)
        · exact .inr (unmasks_conclude remains nested outermost rfl)

/-! ## Steps -/

/-- A call from outside is entered in the same way. -/
theorem enter_goes_disguised
    {depth : Nat}
    (covers : disguise.Covers plain other)
    (heap : plain.heap.Each (Value.Avoids disguise.position))
    {callee : Value}
    (avoids : callee.Avoids disguise.position)
    (arguments : List Value)
    (level : Nat) :
    Action.GoesDisguised disguise depth (Machine.enter environment level callee arguments)
      plain other := by
  unfold Machine.enter
  simp only [Action.raise_bind]
  split
  · exact .raise covers
  · split
    · exact .raise covers
    · exact Action.callPushed_goes_disguised covers heap avoids arguments

/-- Until the outermost function has returned, every step is the same under a disguise. -/
theorem Masks.step
    {plain other : Machine}
    (masks : disguise.Masks plain other)
    (hides : disguise.Hides plain.state)
    (supplied : plain.Supplied (Value.Avoids disguise.position))
    (ignores :
      ∀ call next,
        plain.control = .host call (.inspect next) →
          IgnoresCode disguise.slot disguise.position next)
    (steady :
      plain.control = .script → disguise.Steady (entryDepthOf plain.subRuns) plain.state) :
    disguise.Follows (plain.step environment) (other.step environment) := by
  rcases plain with ⟨plain, control, subRuns⟩
  rcases other with ⟨other, otherControl, otherSubRuns⟩
  rcases masks with ⟨covers, sameControl, sameSubRuns, nested, above, lasts⟩
  cases sameControl
  cases sameSubRuns
  cases control with
  | script =>
      exact follows_settle nested (Action.step_goes_disguised covers hides (steady rfl))
  | host call program =>
      have isAbove := above call program rfl
      cases program with
      | finish value =>
          exact follows_settle nested
            (Action.completeHostCall_goes_disguised covers isAbove value)
      | fail message => exact follows_raise covers nested _
      | inspect next =>
          have same : next other = next plain :=
            (ignores call next rfl plain other covers.looksLike).symm
          refine .inl ⟨covers, ?_, rfl, nested, ?_, rfl⟩
          · exact congrArg (Control.host call) same
          · rintro _ _ ⟨⟩
            exact isAbove
      | perform request next =>
          rcases covers.perform request with ⟨same, performed⟩
          refine .inl ⟨performed, ?_, rfl, nested, ?_, rfl⟩
          · exact congrArg (fun answer => Control.host call (next answer)) same
          · rintro _ _ ⟨⟩
            exact isAbove
      | call callee arguments next =>
          have inner :
              disguise.Nested
                ({ stackMark := plain.stack.size, entryDepth := plain.frames.size,
                   awaiting := some (call, next) } :: subRuns) :=
            .inner rfl covers.inside covers.frames_pos isAbove nested
          unfold Machine.step Machine.start
          simp only [covers.size_stack, covers.size_frames]
          exact follows_settle inner
            (enter_goes_disguised covers hides.1.heap (supplied call _ rfl).1 arguments
              (subRuns.length + 1))
  | ended outcome => cases lasts
  | stuck => exact .inl ⟨covers, rfl, rfl, nested, nofun, rfl⟩

end Disguise

end ScriptEngine
