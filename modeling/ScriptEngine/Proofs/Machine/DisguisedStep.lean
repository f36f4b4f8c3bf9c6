import ScriptEngine.Proofs.Machine.Definedness
import ScriptEngine.Proofs.Machine.Overlooking

/-!
# Instructions under a disguise

A call of a value that avoids the function under the disguise does the same as without
it (`Action.callValue_goes_disguised`).  So does every instruction that finds its
operands above the slot, and the return of the outermost function leaves only the heap
under the disguise (`Action.execute_goes_disguised`).
-/

namespace ScriptEngine

/-- An instruction that leaves slot zero of its function alone. -/
def Instruction.SparesSlotZero : Instruction → Prop
  | .getLocal slot | .setLocal slot => slot.toNat ≠ 0
  | _ => True

namespace Disguise

/-- What holds after an action that was not interrupted, inside a call on a number of frames. -/
def Continues (disguise : Disguise) (depth : Nat) (transition : Transition) (plain other : State) :
    Prop :=
  match transition with
  | .proceed =>
    disguise.Covers plain other ∧
      (depth < plain.frames.size ∨ disguise.slot + 1 < plain.stack.size)
  | .enterHost call _ => disguise.Covers plain other ∧ disguise.slot < call.slot
  | .finished _ =>
    disguise.Covers plain other ∧ plain.frames.size ≤ depth ∨
      disguise.Remains plain other ∧ depth = 0

/-- Nothing in a state refers to the function under the disguise. -/
def Hides (disguise : Disguise) (state : State) : Prop :=
  state.Each (Value.Avoids disguise.position) ∧
    state.registry.Consistent ∧
    disguise.position + 1 ≤ state.heap.functions.size

theorem avoids_new (disguise : Disguise) :
    ∀ id, disguise.position + 1 ≤ id → Value.Avoids disguise.position (.function id) :=
  fun _ bound => Nat.ne_of_gt bound

/-- Whatever happens, nothing gets to refer to the function. -/
theorem hides_invariant (disguise : Disguise) (limits : Limits) :
    State.Invariant limits (Value.Avoids disguise.position) disguise.Hides :=
  State.each_invariant_of_known disguise.avoids_new limits

instance (disguise : Disguise) :
    State.Compiles (Value.Avoids disguise.position) disguise.Hides :=
  State.compiles_of_known disguise.avoids_new

/-- The innermost function is about to execute an instruction that does not notice the disguise. -/
structure Steady (disguise : Disguise) (depth : Nat) (plain : State) : Prop where
  within : depth < plain.frames.size
  executes :
    ∃ frame instruction,
      plain.frames.back? = some frame ∧
        Instruction.decode frame.function.chunk.code frame.offset = .complete instruction ∧
        disguise.slot + 1 + instruction.takes ≤ plain.stack.size ∧
        (plain.frames.size = 1 →
          Instruction.decode disguise.function.chunk.code frame.offset = .complete instruction ∧
            instruction.SparesSlotZero)

/-- Callee and arguments are above the slot, and what is in the heap avoids the function. -/
structure Calling (disguise : Disguise) (plain other : State) (argumentCount : Nat) : Prop where
  covers : disguise.Covers plain other
  room : disguise.slot + (argumentCount + 1) < plain.stack.size
  heap : plain.heap.Each (Value.Avoids disguise.position)

namespace Calling

variable
  {disguise : Disguise}
  {plain other : State}
  {argumentCount : Nat}

theorem sameSlot (calling : disguise.Calling plain other argumentCount) :
    other.stack.size - argumentCount - 1 = plain.stack.size - argumentCount - 1 := by
  rw [calling.covers.size_stack]

theorem isAbove (calling : disguise.Calling plain other argumentCount) :
    disguise.slot < plain.stack.size - argumentCount - 1 := by
  have room := calling.room
  omega

theorem setSlot
    (calling : disguise.Calling plain other argumentCount)
    (value : Value) :
    disguise.Calling
      { plain with
        stack := plain.stack.setIfInBounds (plain.stack.size - argumentCount - 1) value }
      { other with
        stack := other.stack.setIfInBounds (plain.stack.size - argumentCount - 1) value }
      argumentCount where
  covers := calling.covers.setSlot (Nat.ne_of_gt calling.isAbove) value
  room := by
    rw [Array.size_setIfInBounds]
    exact calling.room
  heap := calling.heap

theorem withHeap
    (calling : disguise.Calling plain other argumentCount)
    {step : Heap → α × Heap}
    (neutral : Heap.Neutral step)
    (each : (step plain.heap).2.Each (Value.Avoids disguise.position)) :
    disguise.Calling { plain with heap := (step plain.heap).2 }
      { other with heap := (step other.heap).2 } argumentCount :=
  ⟨calling.covers.withHeap neutral, calling.room, each⟩

end Calling

end Disguise

namespace Action

/-- An action leads to the same under a disguise, from where the machine can go on. -/
def GoesDisguised (disguise : Disguise) (depth : Nat) (action : Action Transition)
    (plain other : State) : Prop :=
  action.Tracks action other plain
    (fun transition counterpart other after =>
      transition = counterpart ∧ disguise.Continues depth counterpart after other)
    (fun other after => disguise.Covers after other)

variable
  {environment : Environment}
  {disguise : Disguise}
  {depth : Nat}
  {plain other : State}
  {argumentCount : Nat}

/-! ## Calls -/

theorem pushFrame_goes_disguised
    (calling : disguise.Calling plain other argumentCount)
    (limits : Limits)
    (function : Function)
    (initializer : Bool) :
    GoesDisguised disguise depth
      (do pushFrame limits function argumentCount initializer; return .proceed) plain other := by
  apply Tracks.bind
  unfold pushFrame
  simp only
  split
  · exact .bind (.raise calling.covers)
  · apply Tracks.bind
    apply Tracks.look
    rw [calling.covers.size_frames]
    split
    · exact .bind (.raise calling.covers)
    · apply Tracks.bind
      apply Tracks.look
      apply Tracks.change
      rw [calling.sameSlot]
      refine ⟨rfl, calling.covers.pushFrame calling.isAbove, .inr ?_⟩
      have room := calling.room
      show disguise.slot + 1 < plain.stack.size
      omega

theorem callFunction_goes_disguised
    (calling : disguise.Calling plain other argumentCount)
    {id : Nat}
    (avoids : id ≠ disguise.position)
    (initializer : Bool) :
    GoesDisguised disguise depth
      (do
        let function ← look (·.heap.function id)
        pushFrame environment.settings.limits function argumentCount initializer
        return .proceed)
      plain other := by
  have same : other.heap.function id = plain.heap.function id := by
    rw [calling.covers.heap]
    unfold Disguise.heap Heap.function
    rw [Array.getD_eq_getD_getElem?, Array.getD_eq_getD_getElem?,
      Array.getElem?_setIfInBounds_ne avoids.symm]
  apply Tracks.bind
  apply Tracks.look
  rw [same]
  exact pushFrame_goes_disguised calling _ _ initializer

/-- The result of a host routine takes the place of callee and arguments. -/
theorem completeHostCall_goes_disguised
    (covers : disguise.Covers plain other)
    {call : HostCall}
    (isAbove : disguise.slot < call.slot)
    (value : Value) :
    GoesDisguised disguise depth
      (do completeHostCall environment call value; return .proceed) plain other := by
  have cut := covers.cutStack isAbove
  have room : disguise.slot + 1 + 0 ≤ (plain.stack.shrink call.slot).size :=
    cut.inside
  apply Tracks.bind
  unfold completeHostCall
  apply Tracks.bind
  apply Tracks.change
  apply Tracks.bind
  apply (Overlooks.push environment.settings.limits value _ _ cut room).mono
  · rintro _ _ pushed final ⟨-, covered, enough, -⟩
    cases call.constructed with
    | none => exact ⟨rfl, covered, .inr enough⟩
    | some instanceValue =>
        apply Tracks.change
        rw [covered.size_stack]
        refine ⟨rfl, covered.setSlot (by omega) instanceValue, .inr ?_⟩
        rw [Array.size_setIfInBounds]
        exact enough
  · exact fun _ _ => id

theorem completeAtOnce_goes_disguised
    (covers : disguise.Covers plain other)
    {call : HostCall}
    (isAbove : disguise.slot < call.slot)
    (result : Except String Value) :
    GoesDisguised disguise depth (completeAtOnce environment call result) plain other := by
  cases result with
  | ok value => exact completeHostCall_goes_disguised covers isAbove value
  | error message => exact .raise covers

theorem callNative_goes_disguised
    (calling : disguise.Calling plain other argumentCount)
    (native : Native)
    (constructed : Option Value) :
    GoesDisguised disguise depth (callNative environment native argumentCount constructed)
      plain other := by
  have isAbove := calling.isAbove
  unfold callNative
  extract_lets goOn
  have goesOn : GoesDisguised disguise depth (goOn ()) plain other := by
    apply Tracks.bind
    apply Tracks.look
    rw [calling.sameSlot]
    apply Tracks.bind
    apply Tracks.look
    rw [calling.covers.getD_stack (Nat.ne_of_gt isAbove)]
    apply Tracks.bind
    apply Tracks.look
    generalize plain.stack.size - argumentCount - 1 = slot at isAbove ⊢
    have arguments :
        (other.stack.extract (slot + 1) other.stack.size).toList =
          (plain.stack.extract (slot + 1) plain.stack.size).toList := by
      apply congrArg
      apply Array.ext_getElem?
      intro place
      simp only [Array.getElem?_extract, calling.covers.size_stack]
      rw [calling.covers.getElem?_stack (by omega)]
    rw [arguments]
    have finishes :
        ∀ {step : Heap → Except String Value × Heap},
          Heap.Neutral step →
            GoesDisguised disguise depth
              (do
                let result ← updateHeap step
                completeAtOnce environment { slot, constructed } result)
              plain other := by
      intro step neutral
      apply Tracks.bind
      apply Tracks.update
      simp only [(calling.covers.toSurrounds.neutral neutral).1]
      exact completeAtOnce_goes_disguised (calling.covers.withHeap neutral) isAbove _
    cases native.routine with
    | sequence method => exact finishes (Container.neutral_runSequence _ _ _)
    | dictionary method => exact finishes (Container.neutral_runDictionary _ _ _)
    | host key => exact ⟨rfl, calling.covers, isAbove⟩
  cases native.arity with
  | exactly expected =>
      simp only
      split
      · exact .bind (.raise calling.covers)
      · exact goesOn
  | any => exact goesOn

theorem callHost_goes_disguised
    (calling : disguise.Calling plain other argumentCount)
    (id : Nat)
    (constructed : Option Value) :
    GoesDisguised disguise depth
      (do callNative environment (← look (·.heap.native id)) argumentCount constructed)
      plain other := by
  apply Tracks.bind
  apply Tracks.look
  rw [calling.covers.sameButCode.native]
  exact callNative_goes_disguised calling _ constructed

theorem construct_goes_disguised
    (calling : disguise.Calling plain other argumentCount)
    (classId : Nat) :
    GoesDisguised disguise depth (construct environment classId argumentCount) plain other := by
  have neutral : Heap.Neutral fun heap => heap.addObject classId :=
    fun _ _ => rfl
  unfold construct
  apply Tracks.bind
  apply Tracks.look
  rw [calling.sameSlot]
  apply Tracks.bind
  apply Tracks.update
  have added := calling.withHeap neutral (calling.heap.addObject classId)
  simp only [(calling.covers.toSurrounds.neutral neutral).1]
  apply Tracks.bind
  apply Tracks.change
  have created := added.setSlot (.object (plain.heap.addObject classId).1)
  apply Tracks.bind
  apply Tracks.look
  have sameClass := created.covers.sameButCode.classAt classId
  simp only at sameClass ⊢
  rw [sameClass]
  rcases found : ((plain.heap.addObject classId).2.classAt classId).methods["init"]? with _ | method
  · simp only
    split
    · exact .bind (.raise created.covers)
    · refine ⟨rfl, created.covers, .inr ?_⟩
      exact Nat.lt_of_le_of_lt (Nat.add_le_add_left (Nat.le_add_left 1 _) _) created.room
  · have avoids := (created.heap.classAt classId).methods _ _ found
    cases method with
    | function id => exact callFunction_goes_disguised created avoids true
    | hostMethod id => exact callHost_goes_disguised created id _
    | _ => exact .raise created.covers

/-- A call of another function does the same under a disguise. -/
theorem callValue_goes_disguised
    (calling : disguise.Calling plain other argumentCount)
    {callee : Value}
    (avoids : callee.Avoids disguise.position) :
    GoesDisguised disguise depth (callValue environment callee argumentCount) plain other := by
  induction callee generalizing plain other with
  | function id =>
      unfold callValue
      exact callFunction_goes_disguised calling avoids false
  | boundMethod id receiver method _ induction =>
      unfold callValue
      apply Tracks.bind
      apply Tracks.look
      rw [calling.sameSlot]
      apply Tracks.bind
      apply Tracks.change
      exact induction (calling.setSlot receiver) avoids.2
  | classObject id =>
      unfold callValue
      exact construct_goes_disguised calling id
  | hostFunction id | hostMethod id =>
      unfold callValue
      exact callHost_goes_disguised calling id none
  | _ =>
      unfold callValue
      exact .raise calling.covers

/-- A value above the slot is looked at. -/
theorem peek_goes_disguised
    {next : Value → Action Transition}
    {distance : Nat}
    (covers : disguise.Covers plain other)
    (room : disguise.slot + (distance + 1) < plain.stack.size)
    (goesOn : ∀ value ∈ plain.stack, GoesDisguised disguise depth (next value) plain other) :
    GoesDisguised disguise depth (peek distance >>= next) plain other := by
  have within : distance < plain.stack.size := by
    omega
  have alsoWithin : distance < other.stack.size := by
    rwa [covers.size_stack]
  have same :
      other.stack.getD (other.stack.size - 1 - distance) .null =
        plain.stack.getD (plain.stack.size - 1 - distance) .null := by
    rw [covers.size_stack]
    exact covers.getD_stack (by omega) .null
  have member : plain.stack.getD (plain.stack.size - 1 - distance) .null ∈ plain.stack := by
    rw [Array.getD_eq_getD_getElem?, Array.getElem?_eq_getElem (by omega), Option.getD_some]
    exact Array.getElem_mem _
  apply Tracks.bind
  unfold Tracks peek
  rw [if_pos within, if_pos alsoWithin, same]
  exact goesOn _ member

theorem push_goes_disguised
    {next : Unit → Action Transition}
    (covers : disguise.Covers plain other)
    (limits : Limits)
    (value : Value)
    (goesOn :
      disguise.Covers { plain with stack := plain.stack.push value }
          { other with stack := other.stack.push value } →
        GoesDisguised disguise depth (next ()) { plain with stack := plain.stack.push value }
          { other with stack := other.stack.push value }) :
    GoesDisguised disguise depth (push limits value >>= next) plain other := by
  apply Tracks.bind
  unfold Tracks push
  rw [covers.size_stack]
  by_cases fits : plain.stack.size < limits.stackCapacity
  · rw [if_pos fits, if_pos fits]
    exact goesOn (covers.push value)
  · rw [if_neg fits, if_neg fits]
    exact ⟨rfl, covers⟩

theorem pushAll_goes_disguised
    {next : Unit → Action Transition}
    (values : List Value)
    (covers : disguise.Covers plain other)
    (goesOn :
      ∀ stack otherStack : Array Value,
        stack.size = plain.stack.size + values.length →
        disguise.Covers { plain with stack } { other with stack := otherStack } →
          GoesDisguised disguise depth (next ()) { plain with stack }
            { other with stack := otherStack }) :
    GoesDisguised disguise depth (Machine.pushAll environment values >>= next) plain other := by
  induction values generalizing plain other with
  | nil => exact goesOn _ _ rfl covers
  | cons value rest induction =>
      unfold Machine.pushAll
      rw [bind_assoc]
      apply push_goes_disguised covers
      intro pushed
      apply induction pushed
      intro stack otherStack size
      apply goesOn stack otherStack
      rw [size, Array.size_push, List.length_cons]
      omega

/-- A callee and its arguments are put on the stack, and the callee is called. -/
theorem callPushed_goes_disguised
    (covers : disguise.Covers plain other)
    (heap : plain.heap.Each (Value.Avoids disguise.position))
    {callee : Value}
    (avoids : callee.Avoids disguise.position)
    (arguments : List Value) :
    GoesDisguised disguise depth
      (do
        push environment.settings.limits callee
        Machine.pushAll environment arguments
        callValue environment callee arguments.length)
      plain other := by
  apply push_goes_disguised covers
  intro pushed
  apply pushAll_goes_disguised arguments pushed
  intro stack otherStack size entered
  refine callValue_goes_disguised ⟨entered, ?_, heap⟩ avoids
  have inside := covers.inside
  rw [Array.size_push] at size
  simp only [size]
  omega

theorem invoke_goes_disguised
    (calling : disguise.Calling plain other argumentCount)
    (each : plain.Each (Value.Avoids disguise.position))
    (name : String) :
    GoesDisguised disguise depth (invoke environment name argumentCount) plain other := by
  have calls :
      ∀ {value : Value},
        value.Avoids disguise.position →
          GoesDisguised disguise depth (callValue environment value argumentCount) plain other :=
    fun avoids => callValue_goes_disguised calling avoids
  have stored :
      ∀ {value : Value},
        value.Avoids disguise.position →
          GoesDisguised disguise depth
            (do
              setSlot (plain.stack.size - argumentCount - 1) value
              callValue environment value argumentCount)
            plain other := by
    intro value avoids
    apply Tracks.bind
    apply Tracks.change
    exact callValue_goes_disguised (calling.setSlot value) avoids
  have sameHeap := calling.covers.sameButCode
  have room := calling.room
  unfold invoke
  apply peek_goes_disguised calling.covers room
  intro receiver _
  apply Tracks.bind
  apply Tracks.look
  rw [calling.sameSlot]
  cases receiver with
  | object id =>
      apply Tracks.bind
      apply Tracks.look
      rw [sameHeap.field?]
      rcases found : plain.heap.field? id name with _ | value
      · apply Tracks.bind
        apply Tracks.look
        rw [sameHeap.classOf]
        rcases isMethod : (plain.heap.classOf id).methods[name]? with _ | method
        · exact .raise calling.covers
        · exact calls ((calling.heap.classAt _).methods _ _ isMethod)
      · exact stored ((calling.heap.objectAt id).fields _ _ found)
  | classObject id =>
      apply Tracks.bind
      apply Tracks.look
      rw [sameHeap.classAt]
      rcases isMethod : (plain.heap.classAt id).statics[name]? with _ | method
      · exact .raise calling.covers
      · exact calls ((calling.heap.classAt id).statics _ _ isMethod)
  | moduleHandle id moduleName =>
      apply Tracks.bind
      unfold moduleVariable
      apply Tracks.bind
      apply Tracks.look
      rw [calling.covers.registry]
      rcases found : (plain.registry.moduleAt id).assignedByName? name with _ | value
      · exact .raise calling.covers
      · exact stored (each.assignedByName found)
  | _ => exact .raise calling.covers

/-! ## Instructions -/

/-- Work above the slot, after which the innermost function goes on. -/
theorem proceed_goes_disguised
    {action : Action Unit}
    {height later : Nat}
    (covers : disguise.Covers plain other)
    (within : depth < plain.frames.size)
    (room : disguise.slot + 1 + height ≤ plain.stack.size)
    (overlooks : Overlooks disguise action height later) :
    GoesDisguised disguise depth (andProceed action) plain other := by
  apply Tracks.bind
  apply (overlooks plain other covers room).mono
  · rintro _ _ after final ⟨-, covered, -, frames⟩
    refine ⟨rfl, covered, .inl ?_⟩
    rw [frames]
    exact within
  · exact fun _ _ => id

/-- A name is read from the innermost function, and the state stays as it is. -/
theorem name_goes_disguised
    {next : String → Action Transition}
    (covers : disguise.Covers plain other)
    (index : UInt16)
    (goesOn : ∀ content, GoesDisguised disguise depth (next content) plain other) :
    GoesDisguised disguise depth (name index >>= next) plain other := by
  have same :
      (other.frames.back?.getD default).function.chunk.constant? index.toNat =
        (plain.frames.back?.getD default).function.chunk.constant? index.toNat :=
    congrArg (fun chunk => chunk.constant? index.toNat) covers.frame_eq.2.2.2.pool
  apply Tracks.bind
  unfold name constant frame
  apply Tracks.bind
  apply Tracks.bind
  apply Tracks.look
  rw [same]
  rcases (plain.frames.back?.getD default).function.chunk.constant? index.toNat with _ | value
  · exact .raise covers
  · cases value with
    | string content => exact goesOn content
    | _ => exact ⟨rfl, covers⟩

theorem skip_goes_disguised
    (covers : disguise.Covers plain other)
    (within : depth < plain.frames.size)
    (distance : Nat) :
    GoesDisguised disguise depth (andProceed (skip distance)) plain other := by
  apply Tracks.bind
  apply Tracks.bind
  apply Tracks.look
  rw [covers.frame_eq.2.1]
  apply Tracks.change
  refine ⟨rfl, covers.moveTo _, .inl ?_⟩
  rw [Array.size_modify]
  exact within

theorem skipBack_goes_disguised
    (covers : disguise.Covers plain other)
    (within : depth < plain.frames.size)
    (distance : Nat) :
    GoesDisguised disguise depth (andProceed (skipBack distance)) plain other := by
  apply Tracks.bind
  apply Tracks.bind
  apply Tracks.look
  rw [covers.frame_eq.2.1]
  simp only
  split
  · apply Tracks.change
    refine ⟨rfl, covers.moveTo _, .inl ?_⟩
    rw [Array.size_modify]
    exact within
  · exact ⟨rfl, covers⟩

theorem jumpIfFalse_goes_disguised
    (covers : disguise.Covers plain other)
    (within : depth < plain.frames.size)
    (room : disguise.slot + 1 < plain.stack.size)
    (distance : Nat) :
    GoesDisguised disguise depth
      (andProceed do if (← peek 0).isFalsey then skip distance) plain other := by
  unfold andProceed
  rw [bind_assoc]
  apply peek_goes_disguised covers room
  intro value _
  split
  · exact skip_goes_disguised covers within distance
  · exact ⟨rfl, covers, .inl within⟩

theorem getLocal_goes_disguised
    (covers : disguise.Covers plain other)
    (within : depth < plain.frames.size)
    {slot : Nat}
    (spared : plain.frames.size = 1 → slot ≠ 0) :
    GoesDisguised disguise depth (andProceed (getLocal environment slot)) plain other := by
  unfold getLocal frame andProceed
  simp only [bind_assoc]
  apply Tracks.bind
  apply Tracks.look
  rw [covers.frame_eq.1]
  apply Tracks.bind
  apply Tracks.look
  rw [covers.getElem?_stack (covers.local_ne spared)]
  split
  · rename_i value _
    apply push_goes_disguised covers
    exact fun pushed => ⟨rfl, pushed, .inl within⟩
  · exact .bind (.raise covers)

theorem setLocal_goes_disguised
    (covers : disguise.Covers plain other)
    (within : depth < plain.frames.size)
    (room : disguise.slot + 1 < plain.stack.size)
    {slot : Nat}
    (spared : plain.frames.size = 1 → slot ≠ 0) :
    GoesDisguised disguise depth (andProceed (setLocal slot)) plain other := by
  unfold setLocal frame andProceed
  simp only [bind_assoc]
  apply Tracks.bind
  apply Tracks.look
  rw [covers.frame_eq.1]
  apply peek_goes_disguised covers room
  intro value _
  apply Tracks.bind
  apply Tracks.look
  rw [covers.size_stack]
  split
  · apply Tracks.bind
    apply Tracks.change
    exact ⟨rfl, covers.setSlot (covers.local_ne spared) value, .inl within⟩
  · exact .bind (.raise covers)

/-- The outermost function leaves nothing but the heap under the disguise. -/
theorem leave_goes_disguised
    (covers : disguise.Covers plain other)
    (within : depth < plain.frames.size)
    (room : disguise.slot + 1 < plain.stack.size) :
    GoesDisguised disguise depth (leave environment depth) plain other := by
  unfold leave
  apply Tracks.bind
  have pops : Overlooks disguise pop 1 0 := .pop
  apply (pops plain other covers room).mono
  · rintro result _ after final ⟨rfl, covered, -, size⟩
    rw [← size] at within
    -- From here on the result is known, and stack and frames are cut back.
    have goesOn :
        ∀ (base : Nat) (value : Value) (plain other : State),
          other.frames.size = plain.frames.size →
          (disguise.Covers { plain with stack := plain.stack.shrink base }
                { other with stack := other.stack.shrink base } ∨
            disguise.Remains { plain with stack := plain.stack.shrink base }
                { other with stack := other.stack.shrink base } ∧
              plain.frames.size ≤ depth ∧ depth = 0) →
            GoesDisguised disguise depth
              (do
                cutStack base
                if (← look (·.frames.size)) ≤ depth then
                  return .finished value
                else
                  push environment.settings.limits value
                  return .proceed)
              plain other := by
      intro base value plain other sameSize outcome
      apply Tracks.bind
      apply Tracks.change
      apply Tracks.bind
      apply Tracks.look
      simp only [sameSize]
      rcases outcome with covers | ⟨remains, ends, outermost⟩
      · by_cases ends : plain.frames.size ≤ depth
        · rw [if_pos ends]
          exact ⟨rfl, .inl ⟨covers, ends⟩⟩
        · rw [if_neg ends]
          have pushes : Overlooks disguise (push environment.settings.limits value) 0 1 :=
            .push _ value
          apply Tracks.bind
          apply (pushes _ _ covers covers.inside).mono
          · rintro _ _ pushed last ⟨-, covered, enough, -⟩
            exact ⟨rfl, covered, .inr enough⟩
          · exact fun _ _ => id
      · rw [if_pos ends]
        exact ⟨rfl, .inr ⟨remains, outermost⟩⟩
    apply Tracks.bind
    apply Tracks.look
    apply Tracks.bind
    apply Tracks.change
    rcases covered.innermost with
      ⟨frame, last, ⟨single, same, base, initializer, -⟩ | ⟨others, same, isAbove⟩⟩
    · rw [last, same]
      simp only [Option.getD_some, Disguise.frame, initializer]
      refine goesOn _ result { final with frames := final.frames.pop }
        { after with frames := after.frames.pop } ?_ (.inr ⟨?_, ?_, ?_⟩)
      · simp only [Array.size_pop, covered.size_frames]
      · rw [base]
        exact covered.remains single
      · simp [single]
      · omega
    · have sameSize : after.frames.pop.size = final.frames.pop.size := by
        simp only [Array.size_pop, covered.size_frames]
      have popped := (covered.popFrame others).cutStack isAbove
      rw [last, same]
      simp only [Option.getD_some]
      cases frame.initializer with
      | true =>
          simp only [if_true]
          apply Tracks.bind
          apply Tracks.look
          simp only [covered.getD_stack (Nat.ne_of_gt isAbove)]
          exact goesOn _ _ { final with frames := final.frames.pop }
            { after with frames := after.frames.pop } sameSize (.inl popped)
      | false =>
          exact goesOn _ result { final with frames := final.frames.pop }
            { after with frames := after.frames.pop } sameSize (.inl popped)
  · exact fun _ _ => id

/-- The body of another text is called, or the module is there already. -/
theorem importModule_goes_disguised
    (covers : disguise.Covers plain other)
    (hides : disguise.Hides plain)
    (within : depth < plain.frames.size)
    (name : String) :
    GoesDisguised disguise depth (importModule environment name) plain other := by
  have invariant := disguise.hides_invariant environment.settings.limits
  -- The module counts as loaded, and there is a value for it.
  have pushes :
      ∀ (value : Value) {plain other : State},
        disguise.Covers plain other →
        depth < plain.frames.size →
          GoesDisguised disguise depth
            (do push environment.settings.limits value; return .proceed) plain other :=
    fun value _ _ covers within =>
      have pushes : Overlooks disguise (push environment.settings.limits value) 0 1 :=
        .push _ value
      proceed_goes_disguised covers within covers.inside pushes
  unfold importModule
  apply Tracks.bind
  apply Tracks.look
  rw [covers.registry]
  apply Tracks.bind
  apply Tracks.look
  rw [covers.registry]
  split
  · exact pushes _ covers within
  · have requested :
        (requestSource environment name).Tracks (requestSource environment name) other plain
          (fun result counterpart other after =>
            result = counterpart ∧
              disguise.Covers after other ∧
              disguise.Hides after ∧
              depth < after.frames.size)
          (fun other after => disguise.Covers after other) := by
      unfold requestSource
      split
      · exact ⟨rfl, covers, hides, within⟩
      · apply Tracks.bind
        apply Tracks.change
        exact ⟨rfl, covers.load name, invariant.change hides (.journal _), within⟩
    apply Tracks.bind
    apply requested.mono
    · rintro source? _ asked unasked ⟨rfl, covered, hidden, stays⟩
      split
      · split
        · rename_i id _
          apply Tracks.bind
          apply Tracks.change
          simp only [covered.registry]
          exact pushes .null (covered.withRegistry _) stays
        · exact .raise covered
      · rename_i source
        have ensured := invariant.change hidden (.registry (.ensure name))
        apply Tracks.bind
        apply Tracks.update
        simp only [covered.registry]
        rcases (covered.withRegistry (unasked.registry.ensure name).2).addSource .run
          (unasked.registry.ensure name).1 source with ⟨same, added⟩
        have compiled := invariant.change ensured
          (.compile .run (Registry.find?_ensure unasked.registry name) source)
        apply Tracks.bind
        apply Tracks.update
        rw [same]
        rcases outcome : (State.addSource
          { unasked with registry := (unasked.registry.ensure name).2 } .run
          (unasked.registry.ensure name).1 source).1 with error | body
        · exact .raise added
        · have avoids : Value.Avoids disguise.position (.function body) :=
            State.Compiles.body ensured outcome
          apply Tracks.bind
          apply Tracks.change
          generalize
            (State.addSource { unasked with registry := (unasked.registry.ensure name).2 } .run
              (unasked.registry.ensure name).1 source).2 = plain,
            (State.addSource { asked with registry := (unasked.registry.ensure name).2 } .run
              (unasked.registry.ensure name).1 source).2 = other at added compiled
          simp only [added.registry]
          refine callPushed_goes_disguised (added.withRegistry _) ?_ avoids []
          exact compiled.1.heap
    · exact fun _ _ => id

/-- Every instruction does the same under a disguise. -/
theorem execute_goes_disguised
    (covers : disguise.Covers plain other)
    (hides : disguise.Hides plain)
    (within : depth < plain.frames.size)
    {instruction : Instruction}
    (room : disguise.slot + 1 + instruction.takes ≤ plain.stack.size)
    (spares : plain.frames.size = 1 → instruction.SparesSlotZero) :
    GoesDisguised disguise depth (execute environment depth instruction) plain other := by
  have works :
      ∀ {action : Action Unit},
        Overlooks disguise action instruction.takes instruction.gives →
          GoesDisguised disguise depth (andProceed action) plain other :=
    fun overlooks => proceed_goes_disguised covers within room overlooks
  cases instruction with
  | constant index | constantLong index =>
      exact works (.bind (constant_overlooks _) fun value => .push _ value)
  | pushNull | pushTrue | pushFalse => exact works (.push _ _)
  | pop => exact works (.bind .pop fun _ => .pure _)
  | getLocal slot => exact getLocal_goes_disguised covers within spares
  | setLocal slot => exact setLocal_goes_disguised covers within room spares
  | getModule slot => exact works (.bind (moduleSlot_overlooks _) fun value => .push _ value)
  | setModule slot =>
      exact works
        (.bind (moduleSlot_overlooks _) fun _ =>
          .bind (.peek Nat.one_pos) fun value => setModuleSlot_overlooks _ value)
  | defineModule slot => exact works (.bind .pop fun value => setModuleSlot_overlooks _ value)
  | equal => exact works (.bind .pop fun right => .bind .pop fun left => .push _ _)
  | greater | less | subtract | multiply | divide | modulo =>
      exact works (binaryNumeric_overlooks _)
  | add => exact works add_overlooks
  | negateTruth => exact works (.bind .pop fun value => .push _ _)
  | negate =>
      refine works (.bind .pop fun value => ?_)
      cases value with
      | number number => exact .push _ _
      | _ => exact .raise _
  | print =>
      refine works (.bind .pop fun value => ?_)
      exact .bind (.lookHeap fun _ _ same => same.display value) fun text => .write _
  | jump distance => exact skip_goes_disguised covers within _
  | jumpIfFalse distance => exact jumpIfFalse_goes_disguised covers within room _
  | loop distance => exact skipBack_goes_disguised covers within _
  | call argumentCount =>
      have enough : disguise.slot + (argumentCount.toNat + 1) < plain.stack.size := by
        change disguise.slot + 1 + (argumentCount.toNat + 1) ≤ plain.stack.size at room
        omega
      apply peek_goes_disguised covers enough
      intro callee member
      exact callValue_goes_disguised ⟨covers, enough, hides.1.heap⟩ (hides.1.stack callee member)
  | invoke index argumentCount =>
      have enough : disguise.slot + (argumentCount.toNat + 1) < plain.stack.size := by
        change disguise.slot + 1 + (argumentCount.toNat + 1) ≤ plain.stack.size at room
        omega
      apply name_goes_disguised covers
      intro name
      exact invoke_goes_disguised ⟨covers, enough, hides.1.heap⟩ hides.1 name
  | leave => exact leave_goes_disguised covers within room
  | makeClass index =>
      exact works
        (.bind (name_overlooks index) fun name =>
          .bind (.updateHeap fun _ _ => rfl) fun id => .push _ _)
  | method index =>
      exact works
        (.bind (name_overlooks index) fun name =>
          attach_overlooks Heap.setMethod (fun _ _ _ _ _ => rfl) name)
  | staticMethod index =>
      exact works
        (.bind (name_overlooks index) fun name =>
          attach_overlooks Heap.setStatic (fun _ _ _ _ _ => rfl) name)
  | getProperty index =>
      exact works
        (.bind (name_overlooks index) fun name => .bind .pop fun receiver =>
          .bind (property_overlooks receiver name) fun value => .push _ value)
  | setProperty index =>
      exact works (.bind (name_overlooks index) fun name => setProperty_overlooks name)
  | getIndex =>
      exact works
        (.bind .pop fun index => .bind .pop fun receiver =>
          .bind (getIndex_overlooks receiver index) fun value => .push _ value)
  | setIndex =>
      exact works
        (.bind .pop fun value => .bind .pop fun index => .bind .pop fun receiver =>
          .bind (setIndex_overlooks receiver index value) fun _ => .push _ value)
  | importModule index =>
      apply name_goes_disguised covers
      intro name
      exact importModule_goes_disguised covers hides within name

theorem moveTo_goes_disguised
    {next : Unit → Action Transition}
    (covers : disguise.Covers plain other)
    (hides : disguise.Hides plain)
    (offset : Nat)
    (goesOn :
      ∀ after final,
        disguise.Covers final after →
        disguise.Hides final →
        final.stack = plain.stack →
        final.frames.size = plain.frames.size →
          GoesDisguised disguise depth (next ()) final after) :
    GoesDisguised disguise depth (moveTo offset >>= next) plain other := by
  have kept := moveTo_keeps (disguise.hides_invariant quietEnvironment.settings.limits) hides offset
  apply Tracks.bind
  apply Tracks.change
  exact goesOn _ _ (covers.moveTo offset) kept.holds rfl Array.size_modify

/-- Reading an instruction moves the innermost frame behind it. -/
theorem fetch_goes_disguised
    {next : Unit → Action Transition}
    (covers : disguise.Covers plain other)
    (hides : disguise.Hides plain)
    (offset : Nat)
    (instruction : Instruction)
    (goesOn :
      ∀ after final,
        disguise.Covers final after →
        disguise.Hides final →
        final.stack = plain.stack →
        final.frames.size = plain.frames.size →
          GoesDisguised disguise depth (next ()) final after) :
    GoesDisguised disguise depth (fetch offset instruction >>= next) plain other := by
  unfold fetch
  split
  · simp only [bind_assoc]
    apply moveTo_goes_disguised covers hides (offset + 3)
    intro after final covered hidden stack frames
    apply name_goes_disguised covered
    intro _
    apply moveTo_goes_disguised covered hidden (offset + 4)
    intro after final covered hidden sameStack sameFrames
    exact goesOn after final covered hidden (sameStack.trans stack) (sameFrames.trans frames)
  · exact moveTo_goes_disguised covers hides _ goesOn

/-- The next instruction does the same under a disguise. -/
theorem step_goes_disguised
    (covers : disguise.Covers plain other)
    (hides : disguise.Hides plain)
    (steady : disguise.Steady depth plain) :
    GoesDisguised disguise depth (step environment depth) plain other := by
  have within := steady.within
  rcases steady.executes with ⟨frame, instruction, last, decoded, room, single⟩
  unfold step
  extract_lets goOn
  have goesOn :
      ∀ after final : State,
        disguise.Covers final after →
        disguise.Hides final →
        final.stack = plain.stack →
        final.frames = plain.frames →
          GoesDisguised disguise depth (goOn ()) final after := by
    intro after final covered hidden stack frames
    have sameInstruction :
        Instruction.decode (after.frames.back?.getD default).function.chunk.code
            (after.frames.back?.getD default).offset = .complete instruction ∧
          (after.frames.back?.getD default).offset = frame.offset := by
      rcases covered.innermost with
        ⟨other, isLast, ⟨isSingle, same, -⟩ | ⟨-, same, -⟩⟩
      all_goals
        rw [frames] at isLast
        cases last.symm.trans isLast
        rw [same]
      · rw [frames] at isSingle
        exact ⟨(single isSingle).1, rfl⟩
      · exact ⟨decoded, rfl⟩
    apply Tracks.bind
    apply Tracks.look
    rw [frames, last, Option.getD_some, sameInstruction.1, sameInstruction.2, decoded]
    simp only
    apply fetch_goes_disguised covered hidden
    intro after final covered hidden sameStack sameFrames
    rw [stack] at sameStack
    rw [frames] at sameFrames
    apply execute_goes_disguised covered hidden
    · rwa [sameFrames]
    · rwa [sameStack]
    · intro isSingle
      exact (single (sameFrames.symm.trans isSingle)).2
  split
  · apply Tracks.bind
    apply Tracks.change
    exact goesOn _ _ (covers.withJournal covers.texts covers.loads)
      ((disguise.hides_invariant environment.settings.limits).change hides (.journal _)) rfl rfl
  · exact goesOn _ _ covers hides rfl rfl

end Action

end ScriptEngine
