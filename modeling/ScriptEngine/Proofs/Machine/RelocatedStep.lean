import ScriptEngine.Proofs.Machine.Relocation

/-!
# Instructions on the ground

Every instruction of a typed function does in the actual state what it does in the
relative state (`Action.step_goes`): it reads and changes only what the call has put
on the stack, and it finds there what it needs.  Most instructions take values from
the top of the stack and put others there (`Action.Works`); jumps, calls, returns
and imports are treated one by one.
-/

namespace ScriptEngine.Action

open Relative

variable
  {environment : Environment}
  {ground : Ground}
  {actual relative : State}
  {subRuns : List SubRun}

/-! ## Work on the values of a function -/

section Work

variable {height : Nat}

theorem constant_works (index : Nat) :
    Works ground (constant index) (constant index) height height := by
  unfold constant
  refine .looking fun actual relative carries nonempty => ?_
  rw [carries.back_frames nonempty]
  simp only [Frame.raised]
  rcases (relative.frames.back?.getD default).function.chunk.constant? index with _ | value
  · exact .raise _
  · exact .pure value

theorem name_works (index : UInt16) :
    Works ground (name index) (name index) height height := by
  unfold name
  refine .bind (constant_works index.toNat) fun value => ?_
  cases value with
  | string content => exact .pure content
  | _ => exact .raise _

theorem home_works : Works ground home home height height := by
  refine .look fun actual relative carries nonempty => ?_
  rw [carries.back_frames nonempty]
  rfl

theorem lookHeap_works (view : Heap → α) :
    Works ground (look fun state => view state.heap) (look fun state => view state.heap) height
      height :=
  .look fun _ _ carries _ => congrArg view carries.heap

theorem lookRegistry_works (view : Registry → α) :
    Works ground (look fun state => view state.registry) (look fun state => view state.registry)
      height height :=
  .look fun _ _ carries _ => congrArg view carries.registry

theorem moduleSlot_works (slot : Nat) :
    Works ground (moduleSlot slot) (moduleSlot slot) height height := by
  unfold moduleSlot
  refine .bind home_works fun home => ?_
  refine .bind (lookRegistry_works fun registry => (registry.moduleAt home).assigned? slot) ?_
  rintro (_ | value)
  · refine .bind home_works fun home => ?_
    refine .bind (lookRegistry_works fun registry => (registry.moduleAt home).variableName? slot) ?_
    exact fun _ => .raise _
  · exact .pure value

theorem setModuleSlot_works (slot : Nat) (value : Value) :
    Works ground (setModuleSlot slot value) (setModuleSlot slot value) height height := by
  unfold setModuleSlot
  refine .bind home_works fun home => .changeRegistry ?_
  exact fun _ orderly => orderly.setVariable home slot value

theorem moduleVariable_works (moduleId : Nat) (name : String) :
    Works ground (moduleVariable moduleId name) (moduleVariable moduleId name) height height := by
  unfold moduleVariable
  refine .bind
    (lookRegistry_works fun registry => (registry.moduleAt moduleId).assignedByName? name) ?_
  rintro (_ | value)
  · exact .raise _
  · exact .pure value

theorem property_works (receiver : Value) (name : String) :
    Works ground (property receiver name) (property receiver name) height height := by
  unfold property
  cases receiver with
  | object id =>
      refine .bind (lookHeap_works fun heap => heap.field? id name) ?_
      rintro (_ | value)
      · refine .bind (lookHeap_works fun heap => (heap.classOf id).methods[name]?) ?_
        rintro (_ | method)
        · exact .raise _
        · exact .updateHeap fun _ => rfl
      · exact .pure value
  | classObject id =>
      refine .bind (lookHeap_works fun heap => (heap.classAt id).statics[name]?) ?_
      rintro (_ | method)
      · exact .raise _
      · exact .updateHeap fun _ => rfl
  | moduleHandle id moduleName => exact moduleVariable_works id name
  | _ => exact .raise _

theorem indexable_works (receiver : Value) :
    Works ground (indexable receiver) (indexable receiver) height height := by
  unfold indexable
  cases receiver with
  | object id =>
      refine .bind (lookHeap_works fun heap => (heap.objectAt id).data) ?_
      rintro (_ | data)
      · exact .raise _
      · refine .bind (lookHeap_works fun heap => (heap.objectAt id).locked) fun locked => ?_
        split
        · exact .raise _
        · split
          · exact .pure _
          · exact .raise _
  | _ => exact .raise _

theorem getIndex_works (receiver index : Value) :
    Works ground (getIndex receiver index) (getIndex receiver index) height height := by
  unfold getIndex
  refine .bind (indexable_works receiver) ?_
  rintro ⟨id, data⟩
  simp only
  split
  · exact .pure _
  · exact .raise _

theorem setIndex_works (receiver index value : Value) :
    Works ground (setIndex receiver index value) (setIndex receiver index value) height
      height := by
  unfold setIndex
  refine .bind (indexable_works receiver) fun found => ?_
  refine .bind (.updateHeap fun heap => heap.functions_updateData _ _ _) fun result => ?_
  split
  · exact .pure _
  · exact .raise _

theorem binaryNumeric_works (operation : Float → Float → Value) :
    Works ground (binaryNumeric environment operation)
      (binaryNumeric (ground.environment environment) operation) (height + 2) (height + 1) := by
  unfold binaryNumeric
  refine .bind .pop fun right => .bind .pop fun left => ?_
  cases left with
  | number left =>
      cases right with
      | number right => exact .push _ _
      | _ => exact .raise _
  | _ => exact .raise _

theorem add_works :
    Works ground (add environment) (add (ground.environment environment)) (height + 2)
      (height + 1) := by
  unfold add
  refine .bind .pop fun right => .bind .pop fun left => ?_
  cases sum? left right with
  | some value => exact .push _ value
  | none => exact .raise _

theorem getLocal_works (slot : Nat) :
    Works ground (getLocal environment slot) (getLocal (ground.environment environment) slot) height
      (height + 1) := by
  unfold getLocal
  refine .looking fun actual relative carries nonempty => ?_
  rw [carries.back_frames nonempty]
  refine .looking fun actual later carried _ => ?_
  simp only [Frame.raised]
  rw [Nat.add_assoc, carried.getElem?_stack]
  split
  · exact .push _ _
  · exact .raise _

theorem setLocal_works (slot : Nat) :
    Works ground (setLocal slot) (setLocal slot) (height + 1) (height + 1) := by
  unfold setLocal
  refine .looking fun actual relative carries nonempty => ?_
  rw [carries.back_frames nonempty]
  refine .bind (.peek (Nat.succ_pos height)) fun value => ?_
  refine .looking fun actual later carried _ => ?_
  generalize relative.frames.back?.getD default = frame
  have size := carried.size_stack
  have position :
      (frame.raised ground.height).base + slot = ground.height + (frame.base + slot) :=
    Nat.add_assoc _ _ _
  by_cases inside : frame.base + slot < later.stack.size
  · rw [if_pos inside, if_pos (by omega), position]
    exact .setSlot _ value
  · rw [if_neg inside, if_neg (by omega)]
    exact .raise _

theorem attach_works
    (store : Heap → Nat → String → Value → Heap)
    (same : ∀ heap id name method, (store heap id name method).functions = heap.functions)
    (name : String) :
    Works ground (attach store name) (attach store name) (height + 2) (height + 1) := by
  unfold attach
  refine .bind .pop fun method => .bind (.peek (Nat.succ_pos height)) fun owner => ?_
  cases owner with
  | classObject id => exact .changeHeap fun heap => same heap id name method
  | _ => exact .raise _

theorem setProperty_works (name : String) :
    Works ground (setProperty environment name) (setProperty (ground.environment environment) name)
      (height + 2) (height + 1) := by
  unfold setProperty
  refine .bind .pop fun value => .bind .pop fun receiver => ?_
  cases receiver with
  | object id => exact .bind (.changeHeap fun _ => rfl) fun _ => .push _ value
  | _ => exact .raise _

theorem requestSource_works (name : String) :
    Works ground (requestSource environment name)
      (requestSource (ground.environment environment) name) height height := by
  have same : (ground.environment environment).settings.load = environment.settings.load := rfl
  unfold requestSource
  rw [same]
  rcases environment.settings.load with _ | load
  · exact .pure none
  · exact .bind (.change (fun _ _ carries => carries.load name) (fun _ => rfl) fun _ => rfl)
      fun _ => .pure _

end Work

/-! ## Instructions -/

section Instructions

variable
  {frame : Frame}
  {rest : List Frame}
  {height later offset entryDepth : Nat}
  {shape : Shape}
  {instruction : Instruction}

theorem moveTo_active
    (active : Active relative frame rest subRuns height)
    (offset : Nat) :
    Active
      { relative with
        frames := relative.frames.modify (relative.frames.size - 1) fun frame =>
          { frame with offset } }
      { frame with offset } rest subRuns height where
  frames := by
    have whole := congrArg List.reverse active.frames
    rw [List.reverse_reverse, List.reverse_cons] at whole
    have size : relative.frames.size - 1 = rest.reverse.length := by
      rw [← Array.length_toList, whole]
      simp
    show (relative.frames.modify (relative.frames.size - 1) _).toList.reverse = _
    rw [Array.toList_modify, whole, size, State.modify_last]
    simp
  size := active.size
  waiting := active.waiting

/-- Work on the values of a function, after which the function goes on. -/
theorem proceed_goes
    {upper lower : Action Unit}
    (carries : ground.Carries relative actual)
    (active : Active relative frame rest subRuns height)
    (works : Works ground upper lower height later)
    (startable : Startable frame.function frame.offset later) :
    Goes ground subRuns (andProceed upper) (andProceed lower) actual relative := by
  apply Tracks.bind
  apply (works actual relative frame.base carries active.size active.nonempty).mono
  · rintro _ _ after final ⟨-, carried, size, frames⟩
    refine ⟨rfl, carried, .inl ⟨frame, rest, later, ⟨?_, size, active.waiting⟩, startable⟩⟩
    simp only [State.activeFrames, frames]
    exact active.frames
  · rintro after final ⟨carried, bound, frames⟩
    refine ⟨carried, [frame], rest, frame.base, ?_, bound, active.waiting⟩
    simp only [State.activeFrames, frames]
    exact active.frames

/-- Work on the values of a function that comes before a call. -/
theorem bind_goes
    {upper lower : Action α}
    {next following : α → Action Transition}
    (carries : ground.Carries relative actual)
    (active : Active relative frame rest subRuns height)
    (works : Works ground upper lower height later)
    (goes :
      ∀ result after final,
        ground.Carries final after →
        Active final frame rest subRuns later →
          Goes ground subRuns (next result) (following result) after final) :
    Goes ground subRuns (upper >>= next) (lower >>= following) actual relative := by
  apply Tracks.bind
  apply (works actual relative frame.base carries active.size active.nonempty).mono
  · rintro result _ after final ⟨rfl, carried, size, frames⟩
    refine goes result after final carried ⟨?_, size, active.waiting⟩
    simp only [State.activeFrames, frames]
    exact active.frames
  · rintro after final ⟨carried, bound, frames⟩
    refine ⟨carried, [frame], rest, frame.base, ?_, bound, active.waiting⟩
    simp only [State.activeFrames, frames]
    exact active.frames

/-- A function that makes a call waits for the result. -/
theorem calling_of_active
    {lower argumentCount : Nat}
    (carries : ground.Carries relative actual)
    (active : Active relative frame rest subRuns (lower + (argumentCount + 1)))
    (shaped : frame.function.ShapeAt frame.offset (.plain (lower + 1))) :
    Calling ground actual relative subRuns (frame.base + lower) argumentCount where
  carries := carries
  size := by
    have size := active.size
    omega
  waiting := by
    rw [active.frames]
    exact .function shaped (by omega) (by omega) active.waiting

/-- A jump moves the innermost frame to another place of its code. -/
theorem skip_goes
    (carries : ground.Carries relative actual)
    (active : Active relative frame rest subRuns height)
    {distance : Nat}
    (startable : Startable frame.function (frame.offset + distance) height) :
    Goes ground subRuns (andProceed (skip distance)) (andProceed (skip distance)) actual
      relative := by
  apply Tracks.bind
  apply Tracks.bind
  apply Tracks.look
  rw [carries.back_frames active.nonempty, active.back]
  apply Tracks.change
  exact ⟨rfl, carries.moveTo active.nonempty _,
    .inl ⟨_, rest, height, moveTo_active active _, startable⟩⟩

theorem skipBack_goes
    (carries : ground.Carries relative actual)
    (active : Active relative frame rest subRuns height)
    {distance : Nat}
    (backward : distance ≤ frame.offset)
    (startable : Startable frame.function (frame.offset - distance) height) :
    Goes ground subRuns (andProceed (skipBack distance)) (andProceed (skipBack distance)) actual
      relative := by
  apply Tracks.bind
  apply Tracks.bind
  apply Tracks.look
  rw [carries.back_frames active.nonempty, active.back]
  have raised : distance ≤ (frame.raised ground.height).offset := backward
  rw [if_pos raised, if_pos backward]
  apply Tracks.change
  exact ⟨rfl, carries.moveTo active.nonempty _,
    .inl ⟨_, rest, height, moveTo_active active _, startable⟩⟩

theorem jumpIfFalse_goes
    (carries : ground.Carries relative actual)
    (active : Active relative frame rest subRuns (height + 1))
    {distance : Nat}
    (straight : Startable frame.function frame.offset (height + 1))
    (startable : Startable frame.function (frame.offset + distance) (height + 1)) :
    Goes ground subRuns
      (andProceed do if (← peek 0).isFalsey then skip distance)
      (andProceed do if (← peek 0).isFalsey then skip distance)
      actual relative := by
  unfold andProceed
  rw [bind_assoc]
  refine bind_goes carries active (.peek (Nat.succ_pos height))
    fun value after final carried same => ?_
  split
  · exact skip_goes carried same startable
  · exact proceed_goes carried same (.pure ()) straight

/-- The value of a function takes the place of the function and its arguments, or it is the
outcome of the innermost call from outside. -/
theorem leave_goes
    (carries : ground.Carries relative actual)
    (active : Active relative frame rest subRuns (height + 1)) :
    Goes ground subRuns (leave environment (ground.frames.size + entryDepthOf subRuns))
      (leave (ground.environment environment) (entryDepthOf subRuns)) actual relative := by
  unfold leave
  refine bind_goes carries active .pop fun result after final carried remaining => ?_
  have waiting := remaining.waiting
  apply Tracks.bind
  apply Tracks.look
  rw [carried.back_frames remaining.nonempty, remaining.back]
  apply Tracks.bind
  apply Tracks.change
  have popped := carried.popFrame remaining.nonempty
  have frames : final.frames.pop.toList.reverse = rest := by
    have whole := congrArg List.reverse remaining.frames
    rw [List.reverse_reverse, List.reverse_cons] at whole
    rw [Array.toList_pop, whole, List.dropLast_concat, List.reverse_reverse]
  have cut := popped.cutStack frame.base
  have size : (final.stack.shrink frame.base).size = frame.base := by
    have total := remaining.size
    rw [Array.size_shrink]
    omega
  -- From here on the result is known, and stack and frames are cut back.
  have goesOn :
      ∀ value,
        Goes ground subRuns
          (do
            cutStack (ground.height + frame.base)
            if (← look (·.frames.size)) ≤ ground.frames.size + entryDepthOf subRuns then
              return .finished value
            else
              push environment.settings.limits value
              return .proceed)
          (do
            cutStack frame.base
            if (← look (·.frames.size)) ≤ entryDepthOf subRuns then
              return .finished value
            else
              push (ground.environment environment).settings.limits value
              return .proceed)
          { after with frames := after.frames.pop } { final with frames := final.frames.pop } := by
    intro value
    apply Tracks.bind
    apply Tracks.change
    apply Tracks.bind
    apply Tracks.look
    have depth := cut.size_frames
    simp only at depth ⊢
    by_cases ends : final.frames.pop.size ≤ entryDepthOf subRuns
    · rw [if_pos ends, if_pos (by omega)]
      refine ⟨rfl, cut, ?_, ends⟩
      simp only [State.activeFrames, frames, size]
      exact waiting
    · rw [if_neg ends, if_neg (by omega)]
      apply Tracks.bind
      apply Tracks.push cut
      · refine ⟨rfl, cut.push value, .inr ⟨frame.base, ?_, ?_⟩⟩
        · simp only [Array.size_push, size]
        · simp only [State.activeFrames, frames]
          exact waiting
      · refine ⟨cut, [], rest, frame.base, ?_, ?_, waiting⟩
        · simp only [State.activeFrames, frames, List.nil_append]
        · exact Nat.le_of_eq size.symm
  cases isInitializer : frame.initializer with
  | true =>
      simp only [Frame.raised, isInitializer, if_true]
      apply Tracks.bind
      apply Tracks.look
      rw [popped.getD_stack]
      exact goesOn _
  | false =>
      simp only [Frame.raised, isInitializer]
      exact goesOn result

/-- The body of a module is called, or the module is there already. -/
theorem importModule_goes
    (carries : ground.Carries relative actual)
    (active : Active relative frame rest subRuns height)
    (shaped : frame.function.ShapeAt frame.offset (.plain (height + 1)))
    (name : String) :
    Goes ground subRuns (importModule environment name)
      (importModule (ground.environment environment) name) actual relative := by
  have goesOn : Startable frame.function frame.offset (height + 1) :=
    .inr ⟨_, rfl, shaped⟩
  unfold importModule
  refine bind_goes carries active (lookRegistry_works fun registry => registry.find? name) ?_
  intro existing? actual relative carries active
  refine bind_goes carries active
    (lookRegistry_works fun registry =>
      existing?.filter fun id => (registry.moduleAt id).loaded) ?_
  rintro (_ | id) actual relative carries active
  · refine bind_goes carries active (requestSource_works name) ?_
    rintro (_ | source) actual relative carries active
    · rcases existing? with _ | id
      · exact .raise ⟨carries, active.unwinds⟩
      · refine bind_goes carries active (.changeRegistry fun _ orderly => orderly.markLoaded id) ?_
        intro _ actual relative carries active
        exact proceed_goes carries active (.push _ .null) goesOn
    · rcases carries.orderly.registry.ensure name with ⟨ensured, inside⟩
      rcases (carries.withRegistry ensured).addSource .run inside source with ⟨same, added⟩
      have frames :=
        State.frames_addSource { relative with registry := (relative.registry.ensure name).2 } .run
          (relative.registry.ensure name).1 source
      apply Tracks.bind
      apply Tracks.update
      simp only [carries.registry]
      apply Tracks.bind
      apply Tracks.update
      rw [same]
      have stays :
          Active
            (State.addSource { relative with registry := (relative.registry.ensure name).2 } .run
              (relative.registry.ensure name).1 source).2
            frame rest subRuns height := by
        refine ⟨?_, ?_, active.waiting⟩
        · simp only [State.activeFrames, frames.2]
          exact active.frames
        · rw [frames.1]
          exact active.size
      rcases (State.addSource { relative with registry := (relative.registry.ensure name).2 } .run
        (relative.registry.ensure name).1 source).1 with error | body
      · exact .raise ⟨added, stays.unwinds⟩
      · refine bind_goes added stays
          (.changeRegistry fun _ orderly => orderly.markLoaded _) ?_
        intro _ actual relative carries active
        refine bind_goes carries active (.push _ (.function body)) ?_
        intro _ actual relative carries active
        exact callValue_goes (calling_of_active carries active shaped) (.function body)
  · exact proceed_goes carries active (.push _ (.moduleHandle id name)) goesOn

/-- Every instruction of a typed function does the same on any ground. -/
theorem execute_goes
    (carries : ground.Carries relative actual)
    (active : Active relative frame rest subRuns shape.height)
    (steps : frame.function.Steps offset shape instruction)
    (moved : frame.offset = offset + instruction.length) :
    Goes ground subRuns
      (execute environment (ground.frames.size + entryDepthOf subRuns) instruction)
      (execute (ground.environment environment) (entryDepthOf subRuns) instruction)
      actual relative := by
  rcases split_height steps with ⟨lower, heights⟩
  have lowered := active
  rw [heights] at lowered
  have heightAfter : (instruction.after shape).height = lower + instruction.gives := by
    unfold Instruction.after
    simp only
    omega
  have passes := steps.passes
  -- An instruction that is followed by the next one leaves a known number of values.
  have works :
      ∀ {upper lower' : Action Unit},
        instruction.isStraight = true →
        Works ground upper lower' (lower + instruction.takes) (lower + instruction.gives) →
          Goes ground subRuns (andProceed upper) (andProceed lower') actual relative := by
    intro upper lower' straight isWork
    refine proceed_goes carries lowered isWork (.inr ⟨_, heightAfter, ?_⟩)
    apply passes
    rw [Instruction.successors_of_isStraight straight, moved]
    exact List.mem_singleton_self _
  have plain := shapeAt_plain steps moved heights
  cases instruction with
  | constant index | constantLong index =>
      exact works rfl (.bind (constant_works _) fun value => .push _ value)
  | pushNull | pushTrue | pushFalse => exact works rfl (.push _ _)
  | pop => exact works rfl (.bind .pop fun _ => .pure _)
  | getLocal slot => exact works rfl (getLocal_works _)
  | setLocal slot => exact works rfl (setLocal_works _)
  | getModule slot => exact works rfl (.bind (moduleSlot_works _) fun value => .push _ value)
  | setModule slot =>
      exact works rfl
        (.bind (moduleSlot_works _) fun _ =>
          .bind (.peek (Nat.succ_pos lower)) fun value => setModuleSlot_works _ value)
  | defineModule slot => exact works rfl (.bind .pop fun value => setModuleSlot_works _ value)
  | equal => exact works rfl (.bind .pop fun right => .bind .pop fun left => .push _ _)
  | greater | less | subtract | multiply | divide | modulo =>
      exact works rfl (binaryNumeric_works _)
  | add => exact works rfl add_works
  | negateTruth => exact works rfl (.bind .pop fun value => .push _ _)
  | negate =>
      refine works rfl (.bind .pop fun value => ?_)
      cases value with
      | number number => exact .push _ _
      | _ => exact .raise _
  | print =>
      refine works rfl (.bind .pop fun value => ?_)
      exact .bind (lookHeap_works fun heap => heap.display value) fun text => .write _
  | jump distance =>
      refine skip_goes carries lowered (.inr ⟨_, heightAfter, passes _ ?_⟩)
      rw [moved]
      exact List.mem_singleton_self _
  | jumpIfFalse distance =>
      refine jumpIfFalse_goes carries lowered (.inr ⟨_, heightAfter, passes _ ?_⟩)
        (.inr ⟨_, heightAfter, passes _ ?_⟩)
      · rw [moved]
        exact List.mem_cons_self
      · rw [moved]
        exact List.mem_cons_of_mem _ List.mem_cons_self
  | loop distance =>
      have backward : distance.toNat ≤ frame.offset := by
        rw [moved]
        exact steps.backward distance rfl
      refine skipBack_goes carries lowered backward (.inr ⟨_, heightAfter, passes _ ?_⟩)
      rw [moved]
      exact List.mem_singleton_self _
  | call argumentCount =>
      refine bind_goes carries lowered (.peek ?_) fun callee after final carried waits => ?_
      · show argumentCount.toNat < lower + (argumentCount.toNat + 1)
        omega
      · exact callValue_goes (calling_of_active carried waits (plain rfl rfl)) callee
  | invoke index argumentCount =>
      refine bind_goes carries lowered (name_works index) fun name after final carried waits => ?_
      exact invoke_goes (calling_of_active carried waits (plain rfl rfl)) name
  | leave => exact leave_goes carries lowered
  | makeClass index =>
      exact works rfl
        (.bind (name_works index) fun name => .bind (.updateHeap fun _ => rfl) fun id => .push _ _)
  | method index =>
      exact works rfl
        (.bind (name_works index) fun name => attach_works Heap.setMethod (fun _ _ _ _ => rfl) name)
  | staticMethod index =>
      exact works rfl
        (.bind (name_works index) fun name => attach_works Heap.setStatic (fun _ _ _ _ => rfl) name)
  | getProperty index =>
      exact works rfl
        (.bind (name_works index) fun name => .bind .pop fun receiver =>
          .bind (property_works receiver name) fun value => .push _ value)
  | setProperty index =>
      exact works rfl (.bind (name_works index) fun name => setProperty_works name)
  | getIndex =>
      exact works rfl
        (.bind .pop fun index => .bind .pop fun receiver =>
          .bind (getIndex_works receiver index) fun value => .push _ value)
  | setIndex =>
      exact works rfl
        (.bind .pop fun value => .bind .pop fun index => .bind .pop fun receiver =>
          .bind (setIndex_works receiver index value) fun _ => .push _ value)
  | importModule index =>
      refine bind_goes carries lowered (name_works index) fun name after final carried waits => ?_
      exact importModule_goes carried waits (plain rfl rfl) name

theorem moveTo_goes
    {next following : Unit → Action Transition}
    (carries : ground.Carries relative actual)
    (active : Active relative frame rest subRuns height)
    (offset : Nat)
    (goes :
      ∀ after final,
        ground.Carries final after →
        Active final { frame with offset } rest subRuns height →
          Goes ground subRuns (next ()) (following ()) after final) :
    Goes ground subRuns (moveTo offset >>= next) (moveTo offset >>= following) actual relative := by
  apply Tracks.bind
  apply Tracks.change
  exact goes _ _ (carries.moveTo active.nonempty offset) (moveTo_active active offset)

/-- Reading an instruction moves the innermost frame behind it. -/
theorem fetch_goes
    {next following : Unit → Action Transition}
    (carries : ground.Carries relative actual)
    (active : Active relative frame rest subRuns height)
    (goes :
      ∀ after final,
        ground.Carries final after →
        Active final { frame with offset := offset + instruction.length } rest subRuns height →
          Goes ground subRuns (next ()) (following ()) after final) :
    Goes ground subRuns (fetch offset instruction >>= next) (fetch offset instruction >>= following)
      actual relative := by
  unfold fetch
  split
  · simp only [bind_assoc]
    refine moveTo_goes carries active (offset + 3) fun after final carried named => ?_
    refine bind_goes carried named (name_works _) fun _ after final carried named => ?_
    exact moveTo_goes carried named (offset + 4) goes
  · exact moveTo_goes carries active _ goes

/-- The next instruction does the same on any ground. -/
theorem step_goes
    (carries : ground.Carries relative actual)
    (ready : Ready relative subRuns) :
    Goes ground subRuns (step environment (ground.frames.size + entryDepthOf subRuns))
      (step (ground.environment environment) (entryDepthOf subRuns)) actual relative := by
  unfold step
  extract_lets goOn goOnRelative
  have goesOn :
      ∀ after final,
        ground.Carries final after →
        Ready final subRuns →
          Goes ground subRuns (goOn ()) (goOnRelative ()) after final := by
    rintro after final carried ⟨frame, rest, height, active, startable⟩
    apply Tracks.bind
    apply Tracks.look
    rw [carried.back_frames active.nonempty, active.back]
    rcases startable with empty | ⟨shape, rfl, shaped⟩
    · have outside : ∀ offset, Instruction.decode frame.function.chunk.code offset = .outside := by
        intro offset
        rw [empty]
        simp [Instruction.decode]
      simp only [Frame.raised, outside]
      exact ⟨rfl, carried, active.unwinds⟩
    · rcases shaped.steps with ⟨instruction, steps⟩
      simp only [Frame.raised, steps.decoded]
      refine fetch_goes carried active fun after final carried moved => ?_
      exact execute_goes carried moved steps rfl
  show Goes ground subRuns (if environment.settings.trace then _ else _)
    (if environment.settings.trace then _ else _) actual relative
  split
  · apply Tracks.bind
    apply Tracks.change
    refine goesOn _ _ (carries.withJournal carries.texts carries.loads) ?_
    rcases ready with ⟨frame, rest, height, active, startable⟩
    exact ⟨frame, rest, height, ⟨active.frames, active.size, active.waiting⟩, startable⟩
  · exact goesOn actual relative carries ready

end Instructions

end ScriptEngine.Action
