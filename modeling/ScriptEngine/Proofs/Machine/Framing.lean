import ScriptEngine.Proofs.Machine.Executing
import ScriptEngine.Proofs.Machine.Sparing

/-!
# What instructions do to the frames

A call activates one function at most, and it does so as the last thing (`Action.Calls`).
A jump moves the innermost frame, a return removes it, and every other instruction leaves
the frames as they are (`Action.execute_reframed`).
-/

namespace ScriptEngine

/-- The instructions that call something; their function goes on when it has returned. -/
def Instruction.isCall : Instruction → Bool
  | call _ | invoke _ _ | importModule _ => true
  | _ => false

namespace Action

/-- The frames after a call, with the result of the call. -/
inductive Entered (before : Array Frame) : Except Interruption Transition → Array Frame → Prop
  | interrupted (interruption : Interruption) : Entered before (.error interruption) before
  | atOnce : Entered before (.ok .proceed) before
  | host (call : HostCall) (program : HostProgram) :
      Entered before (.ok (.enterHost call program)) before
  | function (frame : Frame) (begins : frame.offset = 0) :
      Entered before (.ok .proceed) (before.push frame)

/-- A call that is interrupted leaves the frames as they are. -/
theorem Entered.interrupted_frames
    {before after : Array Frame}
    {interruption : Interruption}
    (entered : Entered before (.error interruption) after) :
    after = before := by
  cases entered
  rfl

/-- An action that calls something. -/
class Calls (action : Action Transition) : Prop where
  entered : ∀ state, Entered state.frames (action state).1 (action state).2.frames

/-! ## Calls -/

/-- A function that gets as many arguments as it takes is entered if there is room for a frame. -/
theorem pushFrame_of_arity
    (limits : Limits)
    {function : Function}
    {argumentCount : Nat}
    (arity : argumentCount = function.arity)
    (initializer : Bool)
    (state : State) :
    pushFrame limits function argumentCount initializer state =
      if state.frames.size < limits.maxFrames then
        let base := state.stack.size - argumentCount - 1
        (.ok (),
          { state with
            frames := state.frames.push { function, offset := 0, base, initializer } })
      else
        (.error (.fault .stackOverflow), state) := by
  unfold pushFrame
  rw [if_neg (not_not.mpr arity)]
  show (look _ >>= _) state = _
  rw [look_bind]
  by_cases full : limits.maxFrames ≤ state.frames.size
  · rw [if_pos full, if_neg (Nat.not_lt.mpr full)]
    rfl
  · rw [if_neg full, if_pos (Nat.lt_of_not_le full)]
    rfl

namespace Calls

instance bind
    {first : Action α}
    {next : α → Action Transition}
    [start : Spares State.frames first]
    [rest : ∀ value, Calls (next value)] :
    Calls (first >>= next) := by
  constructor
  intro state
  have same := start.same state
  rcases outcome : first state with ⟨interruption | value, between⟩
  · rw [outcome] at same
    rw [bind_of_error outcome, show between.frames = state.frames from same]
    exact .interrupted interruption
  · rw [outcome] at same
    rw [bind_of_ok outcome, ← show between.frames = state.frames from same]
    exact (rest value).entered between

/-- A sequence whose second part is examined further. -/
theorem andThen
    {first : Action α}
    {next : α → Action Transition}
    [Spares State.frames first]
    (rest : ∀ value, Calls (next value)) :
    Calls (first >>= next) :=
  bind

instance raise (fault : Fault) : Calls (raise fault) :=
  ⟨fun _ => .interrupted _⟩

instance proceed : Calls (pure .proceed) :=
  ⟨fun _ => .atOnce⟩

instance enterHost (call : HostCall) (program : HostProgram) :
    Calls (pure (.enterHost call program)) :=
  ⟨fun _ => .host call program⟩

instance choice
    {condition : Prop}
    [Decidable condition]
    {first second : Action Transition}
    [Calls first]
    [Calls second] :
    Calls (if condition then first else second) := by
  split <;> infer_instance

instance pushFrame
    (limits : Limits)
    (function : Function)
    (argumentCount : Nat)
    (initializer : Bool) :
    Calls (do
      pushFrame limits function argumentCount initializer
      return .proceed) := by
  constructor
  intro state
  by_cases arity : argumentCount = function.arity
  · have pushes := pushFrame_of_arity limits arity initializer state
    by_cases free : state.frames.size < limits.maxFrames
    · rw [if_pos free] at pushes
      rw [bind_of_ok pushes]
      exact .function _ rfl
    · rw [if_neg free] at pushes
      rw [bind_of_error pushes]
      exact .interrupted _
  · have refuses :
        Action.pushFrame limits function argumentCount initializer state =
          (.error (.fault (.argumentCount function.arity argumentCount)), state) := by
      unfold Action.pushFrame
      rw [if_pos arity]
      rfl
    rw [bind_of_error refuses]
    exact .interrupted _

variable (environment : Environment)

instance completeAtOnce (call : HostCall) (result : Except String Value) :
    Calls (completeAtOnce environment call result) := by
  unfold Action.completeAtOnce
  split <;> infer_instance

instance callNative (native : Native) (argumentCount : Nat) (constructed : Option Value) :
    Calls (callNative environment native argumentCount constructed) := by
  unfold Action.callNative
  split <;> split <;> infer_instance

instance construct (classId argumentCount : Nat) :
    Calls (construct environment classId argumentCount) := by
  unfold Action.construct
  refine andThen fun slot => ?_
  refine andThen fun created => ?_
  refine andThen fun _ => ?_
  refine andThen fun initializer? => ?_
  split <;> infer_instance

instance callValue (callee : Value) (argumentCount : Nat) :
    Calls (callValue environment callee argumentCount) := by
  fun_induction Action.callValue environment callee argumentCount <;> infer_instance

instance invoke (name : String) (argumentCount : Nat) :
    Calls (invoke environment name argumentCount) := by
  unfold Action.invoke
  refine andThen fun receiver => ?_
  refine andThen fun slot => ?_
  split
  · refine andThen fun value? => ?_
    split
    · infer_instance
    · refine andThen fun method? => ?_
      split <;> infer_instance
  · refine andThen fun method? => ?_
    split <;> infer_instance
  · infer_instance
  · infer_instance

instance importModule (name : String) : Calls (importModule environment name) := by
  unfold Action.importModule
  refine andThen fun existing? => ?_
  refine andThen fun loaded? => ?_
  split
  · infer_instance
  · refine andThen fun source? => ?_
    split
    · split <;> infer_instance
    · have ensures := Spares.ensureModule State.frames name
      refine andThen fun id => ?_
      refine andThen fun compiled => ?_
      split <;> infer_instance

end Calls

/-! ## Instructions -/

/-- The frames after an instruction, with its result. -/
inductive Reframed (calls : Bool) (entryDepth : Nat) (before : Array Frame) :
    Except Interruption Transition → Array Frame → Prop
  | interrupted (interruption : Interruption) :
      Reframed calls entryDepth before (.error interruption) before
  | proceeds : Reframed calls entryDepth before (.ok .proceed) before
  | called
      {result : Except Interruption Transition}
      {after : Array Frame}
      (isCall : calls = true)
      (entered : Entered before result after) :
      Reframed calls entryDepth before result after
  | moved (offset : Nat) :
      Reframed calls entryDepth before (.ok .proceed)
        (before.modify (before.size - 1) fun frame => { frame with offset })
  | left (deeper : entryDepth < before.pop.size) :
      Reframed calls entryDepth before (.ok .proceed) before.pop
  | ended (value : Value) : Reframed calls entryDepth before (.ok (.finished value)) before.pop

/-- An instruction that goes on leaves a frame of the innermost call. -/
theorem Reframed.deeper
    {calls : Bool}
    {depth : Nat}
    {before after : Array Frame}
    (reframed : Reframed calls depth before (.ok .proceed) after)
    (inside : depth < before.size) :
    depth < after.size := by
  cases reframed with
  | proceeds => exact inside
  | called _ entered =>
      cases entered with
      | atOnce => exact inside
      | function frame =>
          rw [Array.size_push]
          omega
  | moved offset => rwa [Array.size_modify]
  | left deeper => exact deeper

/-- An instruction that is interrupted leaves the frames as they are. -/
theorem Reframed.interrupted_frames
    {calls : Bool}
    {depth : Nat}
    {before after : Array Frame}
    {interruption : Interruption}
    (reframed : Reframed calls depth before (.error interruption) after) :
    after = before := by
  cases reframed with
  | interrupted => rfl
  | called _ entered => exact entered.interrupted_frames

variable {calls : Bool} {entryDepth : Nat}

theorem reframed_of_spares
    (action : Action Unit)
    [spares : Spares State.frames action]
    (state : State) :
    Reframed calls entryDepth state.frames (andProceed action state).1
      (andProceed action state).2.frames := by
  have same := spares.same state
  unfold andProceed
  rcases outcome : action state with ⟨interruption | value, after⟩
  · rw [outcome] at same
    rw [bind_of_error outcome, show after.frames = state.frames from same]
    exact .interrupted interruption
  · rw [outcome] at same
    rw [bind_of_ok outcome, ← show after.frames = state.frames from same]
    exact .proceeds

theorem reframed_of_calls
    (action : Action Transition)
    [calling : Calls action]
    (state : State) :
    Reframed true entryDepth state.frames (action state).1 (action state).2.frames :=
  .called rfl (calling.entered state)

variable (environment : Environment) {state : State}

/-- A function is left with its frame; the value is handed to whoever called it. -/
theorem leave_of_nonempty
    {result : Value}
    (popped : state.stack.back? = some result) :
    ∃ value stack,
      stack.size < state.stack.size ∧
        leave environment entryDepth state =
          (if state.frames.pop.size ≤ entryDepth then
            return .finished value
          else do
            push environment.settings.limits value
            return .proceed : Action Transition)
              { state with stack, frames := state.frames.pop } := by
  have pops : pop state = (.ok result, { state with stack := state.stack.pop }) := by
    unfold pop
    rw [popped]
  have nonempty : 0 < state.stack.size := by
    by_contra isEmpty
    rw [Array.back?_eq_getElem?, Array.getElem?_eq_none (by omega)] at popped
    cases popped
  let finished := state.frames.back?.getD default
  refine ⟨if finished.initializer then state.stack.pop.getD finished.base result else result,
    state.stack.pop.shrink finished.base, ?_, ?_⟩
  · rw [Array.size_shrink, Array.size_pop]
    omega
  · unfold leave frame
    rw [bind_of_ok pops, look_bind]
    by_cases initializer : finished.initializer = true
    · simp only [finished, if_pos initializer]
      rfl
    · simp only [finished, if_neg initializer]
      rfl

/-- A value that is returned has room on the stack from which it was taken. -/
theorem leave_reframed (room : state.stack.size ≤ environment.settings.limits.stackCapacity) :
    Reframed calls entryDepth state.frames (leave environment entryDepth state).1
      (leave environment entryDepth state).2.frames := by
  rcases popped : state.stack.back? with _ | result
  · have stops : leave environment entryDepth state =
        (.error (.fault .stackUnderflow), state) := by
      apply bind_of_error
      unfold pop
      rw [popped]
    rw [stops]
    exact .interrupted _
  · rcases leave_of_nonempty environment popped with ⟨value, stack, shorter, leaves⟩
    rw [leaves]
    split
    · exact .ended value
    · rename_i deeper
      have pushes :
          push environment.settings.limits value { state with stack, frames := state.frames.pop } =
            (.ok (),
              { state with stack := stack.push value, frames := state.frames.pop }) :=
        if_pos (Nat.lt_of_lt_of_le shorter room)
      rw [bind_of_ok pushes]
      exact .left (Nat.lt_of_not_le deeper)

/-- A value is pushed, or there is no room for it. -/
theorem push_cases (limits : Limits) (value : Value) (state : State) :
    push limits value state = (.ok (), { state with stack := state.stack.push value }) ∨
      push limits value state = (.error (.fault .stackOverflow), state) := by
  unfold push
  split
  · exact .inl rfl
  · exact .inr rfl

/-- Looking below the top changes nothing. -/
theorem peek_cases (distance : Nat) (state : State) :
    (∃ value, peek distance state = (.ok value, state)) ∨
      peek distance state = (.error (.fault .stackUnderflow), state) := by
  unfold peek
  split
  · exact .inl ⟨_, rfl⟩
  · exact .inr rfl

theorem skip_reframed (distance : Nat) :
    Reframed calls entryDepth state.frames (andProceed (skip distance) state).1
      (andProceed (skip distance) state).2.frames :=
  .moved _

theorem skipBack_reframed (distance : Nat) :
    Reframed calls entryDepth state.frames (andProceed (skipBack distance) state).1
      (andProceed (skipBack distance) state).2.frames := by
  unfold andProceed skipBack frame
  rw [bind_assoc, look_bind]
  dsimp only
  split
  · exact .moved _
  · exact .interrupted _

theorem skipIfFalse_reframed (distance : Nat) :
    Reframed calls entryDepth state.frames
      (andProceed (do if (← peek 0).isFalsey then skip distance) state).1
      (andProceed (do if (← peek 0).isFalsey then skip distance) state).2.frames := by
  unfold andProceed
  rw [bind_assoc]
  rcases peek_cases 0 state with ⟨value, outcome⟩ | outcome
  · rw [bind_of_ok outcome]
    split
    · exact .moved _
    · exact .proceeds
  · rw [bind_of_error outcome]
    exact .interrupted _

theorem execute_reframed
    (room : state.stack.size ≤ environment.settings.limits.stackCapacity)
    (instruction : Instruction) :
    Reframed instruction.isCall entryDepth state.frames
      (execute environment entryDepth instruction state).1
      (execute environment entryDepth instruction state).2.frames := by
  cases instruction with
  | call argumentCount =>
      dsimp only [execute]
      exact reframed_of_calls _ state
  | invoke index argumentCount =>
      dsimp only [execute]
      exact reframed_of_calls _ state
  | importModule index =>
      dsimp only [execute]
      exact reframed_of_calls _ state
  | leave => exact leave_reframed environment room
  | jump distance => exact skip_reframed distance.toNat
  | loop distance => exact skipBack_reframed distance.toNat
  | jumpIfFalse distance => exact skipIfFalse_reframed distance.toNat
  | negate =>
      dsimp only [execute]
      refine @reframed_of_spares _ _ _ ?_ state
      refine Spares.andThen fun value => ?_
      split <;> infer_instance
  | _ =>
      dsimp only [execute]
      exact reframed_of_spares _ state

/-! ## Where the innermost function goes on -/

instance Calls.andProceed (action : Action Unit) [Spares State.frames action] :
    Calls (andProceed action) :=
  Calls.bind

/-- If the next instruction always follows, one thing is called at most. -/
theorem calls_of_isStraight
    {instruction : Instruction}
    (straight : instruction.isStraight = true) :
    Calls (execute environment entryDepth instruction) := by
  cases instruction with
  | leave | jump | loop | jumpIfFalse => cases straight
  | negate =>
      dsimp only [execute]
      refine @Calls.andProceed _ (Spares.andThen fun value => ?_)
      split <;> infer_instance
  | _ =>
      dsimp only [execute]
      infer_instance

/-- Moving the innermost frame to where it stands changes nothing. -/
theorem moveTo_here
    {frame : Frame}
    (innermost : state.frames.back? = some frame) :
    (moveTo frame.offset state).2.frames = state.frames := by
  apply Array.ext_getElem?
  intro place
  show (state.frames.modify _ _)[place]? = _
  rw [Array.getElem?_modify]
  split
  · rename_i last
    rw [← last, ← Array.back?_eq_getElem?, innermost]
    rfl
  · rfl

/-- An instruction leads to another one of its function, unless it is a return. -/
theorem execute_entered
    (entryDepth : Nat)
    {instruction : Instruction}
    {frame : Frame}
    {offset : Nat}
    (innermost : state.frames.back? = some frame)
    (behind : frame.offset = offset + instruction.length)
    (stays : instruction ≠ .leave)
    (backward : ∀ distance, instruction = .loop distance → distance.toNat ≤ offset + 3) :
    ∃ target ∈ instruction.successors offset,
      Entered (moveTo target state).2.frames (execute environment entryDepth instruction state).1
        (execute environment entryDepth instruction state).2.frames := by
  have same := moveTo_here innermost
  cases instruction with
  | leave => exact absurd rfl stays
  | jump distance =>
      refine ⟨frame.offset + distance.toNat, ?_, ?_⟩
      · rw [behind]
        exact List.mem_singleton.mpr rfl
      · rw [← skip_eq innermost]
        exact .atOnce
  | loop distance =>
      have goes := skipBack_eq innermost distance.toNat
      rw [if_pos (behind ▸ backward distance rfl)] at goes
      refine ⟨frame.offset - distance.toNat, ?_, ?_⟩
      · rw [behind]
        exact List.mem_singleton.mpr rfl
      · show Entered _ (andProceed _ state).1 (andProceed _ state).2.frames
        unfold andProceed
        rw [bind_of_ok goes]
        exact .atOnce
  | jumpIfFalse distance =>
      show ∃ target ∈ _, Entered _ (andProceed _ state).1 (andProceed _ state).2.frames
      unfold andProceed
      rw [bind_assoc]
      have next : frame.offset ∈ (Instruction.jumpIfFalse distance).successors offset := by
        rw [behind]
        exact List.mem_cons_self
      rcases peek_cases 0 state with ⟨value, outcome⟩ | outcome
      · rw [bind_of_ok outcome]
        by_cases isFalse : value.isFalsey = true
        · rw [if_pos isFalse, bind_of_ok (skip_eq innermost _)]
          refine ⟨frame.offset + distance.toNat, ?_, .atOnce⟩
          rw [behind]
          exact List.mem_cons_of_mem _ (List.mem_singleton.mpr rfl)
        · rw [if_neg isFalse]
          refine ⟨frame.offset, next, ?_⟩
          rw [same]
          exact .atOnce
      · rw [bind_of_error outcome]
        refine ⟨frame.offset, next, ?_⟩
        rw [same]
        exact .interrupted _
  | _ =>
      refine ⟨frame.offset, ?_, ?_⟩
      · rw [behind]
        exact List.mem_singleton.mpr rfl
      · rw [same]
        exact (calls_of_isStraight environment rfl).entered state

end Action

end ScriptEngine
