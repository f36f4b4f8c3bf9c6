import ScriptEngine.Proofs.Machine.Change
import ScriptEngine.Proofs.Machine.Step

/-!
# Invariants of every run

Whatever code is run and whatever the host does, an invariant of the changes of a
state is one of the machine: instructions, host routines, faults and calls from
outside keep it (`Machine.Holds`).  Nothing is assumed about the code.

If not every name of an instance is good, a step keeps the invariant or escapes
(`Machine.Holds.stepUnless`).
-/

namespace ScriptEngine

open Value.Pervasive (plain)

/-- The instructions that call a value, which can be a class. -/
def Instruction.callsValue : Instruction → Bool
  | call _ | invoke _ _ => true
  | _ => false

namespace Action

variable
  {environment : Environment}
  {good : Value → Prop}
  {holds : State → Prop}
  {state : State}

/-! ## Instructions -/

theorem andProceed_keeps
    {action : Action Unit}
    (keeps : action.Keeps holds (fun _ => True) state) :
    (andProceed action).Keeps holds (Transition.Hands environment good) state := by
  apply keeps.bind
  intro _ after kept _
  exact .pure kept trivial

variable (invariant : State.Invariant environment.settings.limits good holds)

include invariant

/-- Whatever a value is computed from, it is pushed. -/
theorem pushResult_keeps
    {action : Action Value}
    (keeps : action.Keeps holds good state) :
    (do push environment.settings.limits (← action)).Keeps holds (fun _ => True) state := by
  apply keeps.bind
  intro value after kept isGood
  exact push_keeps invariant kept isGood

variable (kept : holds state)

include kept

theorem getLocal_keeps (slot : Nat) :
    (getLocal environment slot).Keeps holds (fun _ => True) state := by
  unfold getLocal frame
  apply Keeps.look
  apply Keeps.look
  split
  · rename_i value found
    exact push_keeps invariant kept
      ((invariant.each kept).stack value (Array.mem_of_getElem? found))
  · exact .raise kept _

theorem moduleSlot_keeps (slot : Nat) : (moduleSlot slot).Keeps holds good state := by
  unfold moduleSlot home
  apply Keeps.look
  apply Keeps.look
  split
  · rename_i value found
    exact .pure kept ((invariant.each kept).assigned found)
  · unfold raiseUndefined
    exact .look (.look (.raise kept _))

theorem setModuleSlot_keeps (slot : Nat) {value : Value} (isGood : good value) :
    (setModuleSlot slot value).Keeps holds (fun _ => True) state := by
  unfold setModuleSlot home
  apply Keeps.look
  exact ⟨invariant.change kept (.registry (.assign _ slot isGood)), trivial⟩

theorem skip_keeps (distance : Nat) : (skip distance).Keeps holds (fun _ => True) state := by
  unfold skip frame
  exact .look (moveTo_keeps invariant kept _)

theorem skipBack_keeps (distance : Nat) :
    (skipBack distance).Keeps holds (fun _ => True) state := by
  unfold skipBack frame
  apply Keeps.look
  simp only
  split
  · exact moveTo_keeps invariant kept _
  · exact .stuck kept

/-- The value of an initialiser is in slot zero. -/
theorem leave_keeps (entryDepth : Nat) :
    (leave environment entryDepth).Keeps holds (Transition.Hands environment good) state := by
  unfold leave frame
  apply (pop_keeps invariant kept).bind
  intro result popped kept isGood
  apply Keeps.look
  have left :
      (change fun state => { state with frames := state.frames.pop }).Keeps holds
        (fun _ => True) popped := by
    refine ⟨invariant.change kept (.frames ?_ ?_), trivial⟩
    · exact fun frame member => .inl ⟨frame, mem_of_mem_pop member, rfl⟩
    · rw [Array.size_pop]
      exact Nat.le_trans (Nat.sub_le _ _) (Nat.le_max_left _ _)
  apply left.bind
  intro _ after kept _
  extract_lets goOn
  have goesOn :
      ∀ value, good value →
        (goOn value).Keeps holds (Transition.Hands environment good) after := by
    intro value valueGood
    apply (cutStack_keeps invariant kept _).bind
    intro _ cut kept _
    apply Keeps.look
    split
    · exact .pure kept valueGood
    · exact pushProceed_keeps invariant kept valueGood
  split
  · exact .look (goesOn _ (holds_getD (invariant.each kept).stack isGood _))
  · exact goesOn _ isGood

variable [partwise : Value.Partwise good]

theorem setLocal_keeps (slot : Nat) : (setLocal slot).Keeps holds (fun _ => True) state := by
  unfold setLocal frame
  apply Keeps.look
  apply (peek_keeps invariant kept 0).bind
  intro value peeked kept isGood
  apply Keeps.look
  split
  · exact setSlot_keeps invariant kept _ isGood
  · exact .raise kept _

theorem binaryNumeric_keeps
    {operation : Float → Float → Value}
    (isPlain : ∀ left right, (operation left right).isPlain = true) :
    (binaryNumeric environment operation).Keeps holds (fun _ => True) state := by
  unfold binaryNumeric
  apply (pop_keeps invariant kept).bind
  intro right first kept _
  apply (pop_keeps invariant kept).bind
  intro left second kept _
  split
  · exact push_keeps invariant kept (plain _ (isPlain _ _))
  · exact .raise kept _

theorem add_keeps : (add environment).Keeps holds (fun _ => True) state := by
  unfold add
  apply (pop_keeps invariant kept).bind
  intro right first kept _
  apply (pop_keeps invariant kept).bind
  intro left second kept _
  split
  · rename_i value isSum
    refine push_keeps invariant kept (plain value ?_)
    unfold sum? at isSum
    split at isSum <;> cases isSum <;> rfl
  · exact .raise kept _

theorem attach_keeps
    (store : Heap → Nat → String → Value → Heap)
    (functions : ∀ heap id name method, (store heap id name method).functions = heap.functions)
    (objects : ∀ heap id name method, (store heap id name method).objects = heap.objects)
    (stored :
      ∀ {heap : Heap} {method : Value} (id : Nat) (name : String),
        heap.Each good → good method → (store heap id name method).Each good)
    (name : String) :
    (attach store name).Keeps holds (fun _ => True) state := by
  unfold attach
  apply (pop_keeps invariant kept).bind
  intro method popped kept isGood
  apply (peek_keeps invariant kept 0).bind
  intro owner peeked kept _
  split
  · exact changeHeap_keeps invariant kept (functions _ _ _ _)
      (fun each => stored _ name each isGood) (.of_same (objects _ _ _ _))
  · exact .raise kept _

omit partwise in
theorem setProperty_keeps (name : String) :
    (setProperty environment name).Keeps holds (fun _ => True) state := by
  unfold setProperty
  apply (pop_keeps invariant kept).bind
  intro value first kept isGood
  apply (pop_keeps invariant kept).bind
  intro receiver second kept receiverGood
  cases receiver with
  | object id =>
    have assigned :
        (changeHeap fun heap => heap.setField id name value).Keeps holds (fun _ => True) second :=
      changeHeap_keeps invariant kept rfl (fun each => each.setField id name isGood)
        (.modify receiverGood _)
    apply assigned.bind
    intro _ after kept _
    exact push_keeps invariant kept isGood
  | _ => exact .raise kept _

theorem equal_keeps (entryDepth : Nat) :
    (execute environment entryDepth .equal).Keeps holds (Transition.Hands environment good)
      state := by
  apply andProceed_keeps
  apply (pop_keeps invariant kept).bind
  intro right first kept _
  apply (pop_keeps invariant kept).bind
  intro left second kept _
  exact push_keeps invariant kept (plain _ rfl)

theorem negate_keeps (entryDepth : Nat) :
    (execute environment entryDepth .negate).Keeps holds (Transition.Hands environment good)
      state := by
  apply andProceed_keeps
  apply (pop_keeps invariant kept).bind
  intro value after kept _
  split
  · exact push_keeps invariant kept (plain _ rfl)
  · exact .raise kept _

theorem makeClass_keeps (entryDepth : Nat) (index : UInt16) :
    (execute environment entryDepth (.makeClass index)).Keeps holds
      (Transition.Hands environment good) state := by
  apply andProceed_keeps
  apply (name_keeps invariant kept index).bind
  intro name named kept _
  have added : (updateHeap fun heap => heap.addClass { name }).Keeps holds (fun _ => True) named :=
    updateHeap_keeps invariant kept rfl
      (fun each => ⟨trivial, each.addClass ⟨.empty, .empty, nofun⟩⟩) (.of_same rfl)
  apply added.bind
  intro id after kept _
  exact push_keeps invariant kept (plain _ rfl)

theorem getProperty_keeps (entryDepth : Nat) (index : UInt16) :
    (execute environment entryDepth (.getProperty index)).Keeps holds
      (Transition.Hands environment good) state := by
  apply andProceed_keeps
  apply (name_keeps invariant kept index).bind
  intro name named kept _
  apply (pop_keeps invariant kept).bind
  intro receiver popped kept isGood
  exact pushResult_keeps invariant (property_keeps invariant kept isGood name)

theorem getIndex_executes_keeps (entryDepth : Nat) :
    (execute environment entryDepth .getIndex).Keeps holds (Transition.Hands environment good)
      state := by
  apply andProceed_keeps
  apply (pop_keeps invariant kept).bind
  intro index first kept _
  apply (pop_keeps invariant kept).bind
  intro receiver second kept isGood
  exact pushResult_keeps invariant (getIndex_keeps invariant kept isGood index)

omit partwise in
theorem setIndex_executes_keeps (entryDepth : Nat) :
    (execute environment entryDepth .setIndex).Keeps holds (Transition.Hands environment good)
      state := by
  apply andProceed_keeps
  apply (pop_keeps invariant kept).bind
  intro value first kept valueGood
  apply (pop_keeps invariant kept).bind
  intro index second kept indexGood
  apply (pop_keeps invariant kept).bind
  intro receiver third kept receiverGood
  apply (setIndex_keeps invariant kept receiverGood indexGood valueGood).bind
  intro _ after kept _
  exact push_keeps invariant kept valueGood

/-- Every instruction that makes no instance keeps an invariant. -/
theorem execute_keeps
    [compiles : State.Compiles good holds]
    (entryDepth : Nat)
    {instruction : Instruction}
    (makesNone : instruction.callsValue = false) :
    (execute environment entryDepth instruction).Keeps holds (Transition.Hands environment good)
      state := by
  cases instruction with
  | constant index | constantLong index =>
      exact andProceed_keeps (pushResult_keeps invariant (constant_keeps invariant kept _))
  | pushNull | pushTrue | pushFalse =>
      exact andProceed_keeps (push_keeps invariant kept (plain _ rfl))
  | pop =>
      apply andProceed_keeps
      apply (pop_keeps invariant kept).bind
      intro _ after kept _
      exact .pure kept trivial
  | getLocal slot => exact andProceed_keeps (getLocal_keeps invariant kept _)
  | setLocal slot => exact andProceed_keeps (setLocal_keeps invariant kept _)
  | getModule slot =>
      exact andProceed_keeps (pushResult_keeps invariant (moduleSlot_keeps invariant kept _))
  | setModule slot =>
      apply andProceed_keeps
      apply (moduleSlot_keeps invariant kept _).bind
      intro _ read kept _
      apply (peek_keeps invariant kept 0).bind
      intro value peeked kept isGood
      exact setModuleSlot_keeps invariant kept _ isGood
  | defineModule slot =>
      apply andProceed_keeps
      apply (pop_keeps invariant kept).bind
      intro value popped kept isGood
      exact setModuleSlot_keeps invariant kept _ isGood
  | equal => exact equal_keeps invariant kept entryDepth
  | greater | less | subtract | multiply | divide | modulo =>
      exact andProceed_keeps (binaryNumeric_keeps invariant kept fun _ _ => rfl)
  | add => exact andProceed_keeps (add_keeps invariant kept)
  | negateTruth =>
      apply andProceed_keeps
      apply (pop_keeps invariant kept).bind
      intro value after kept _
      exact push_keeps invariant kept (plain _ rfl)
  | negate => exact negate_keeps invariant kept entryDepth
  | print =>
      apply andProceed_keeps
      apply (pop_keeps invariant kept).bind
      intro value after kept _
      exact .look ⟨invariant.change kept (.journal _), trivial⟩
  | jump distance => exact andProceed_keeps (skip_keeps invariant kept _)
  | jumpIfFalse distance =>
      apply andProceed_keeps
      apply (peek_keeps invariant kept 0).bind
      intro value peeked kept _
      split
      · exact skip_keeps invariant kept _
      · exact .pure kept trivial
  | loop distance => exact andProceed_keeps (skipBack_keeps invariant kept _)
  | call | invoke => cases makesNone
  | leave => exact leave_keeps invariant kept entryDepth
  | makeClass index => exact makeClass_keeps invariant kept entryDepth index
  | method index =>
      apply andProceed_keeps
      apply (name_keeps invariant kept index).bind
      intro name named kept _
      exact attach_keeps invariant kept Heap.setMethod (fun _ _ _ _ => rfl) (fun _ _ _ _ => rfl)
        (fun id name each isGood => each.setMethod id name isGood) name
  | staticMethod index =>
      apply andProceed_keeps
      apply (name_keeps invariant kept index).bind
      intro name named kept _
      exact attach_keeps invariant kept Heap.setStatic (fun _ _ _ _ => rfl) (fun _ _ _ _ => rfl)
        (fun id name each isGood => each.setStatic id name isGood) name
  | getProperty index => exact getProperty_keeps invariant kept entryDepth index
  | setProperty index =>
      apply andProceed_keeps
      apply (name_keeps invariant kept index).bind
      intro name named kept _
      exact setProperty_keeps invariant kept name
  | getIndex => exact getIndex_executes_keeps invariant kept entryDepth
  | setIndex => exact setIndex_executes_keeps invariant kept entryDepth
  | importModule index =>
      apply (name_keeps invariant kept index).bind
      intro name named kept _
      exact importModule_keeps invariant kept name

omit partwise in
theorem fetch_keeps (offset : Nat) (instruction : Instruction) :
    (fetch offset instruction).Keeps holds (fun _ => True) state := by
  unfold fetch
  split
  · rename_i index _
    apply (moveTo_keeps invariant kept _).bind
    intro _ moved kept _
    apply (name_keeps invariant kept index).bind
    intro _ named kept _
    exact moveTo_keeps invariant kept _
  · exact moveTo_keeps invariant kept _

omit partwise in
theorem fetchTruncated_keeps {goodResult : α → Prop} (frame : Frame) (operation : Opcode) :
    (fetchTruncated frame operation : Action α).Keeps holds goodResult state := by
  unfold fetchTruncated
  split
  · rename_i index _
    apply (moveTo_keeps invariant kept _).bind
    intro _ moved kept _
    apply (name_keeps invariant kept index).bind
    intro _ named kept _
    exact .stuck kept
  · exact .stuck kept

section Escaping

variable
  [compiles : State.Compiles good holds]
  {escape : State → Prop}
  (escapes : State.Escape environment.settings.limits good holds escape)

include escapes

/-- Every instruction keeps an invariant or escapes. -/
theorem execute_keepsUnless (entryDepth : Nat) (instruction : Instruction) :
    (execute environment entryDepth instruction).KeepsUnless escape holds
      (Transition.Hands environment good) state := by
  cases instruction with
  | call argumentCount =>
      apply (peek_keeps invariant kept _).last
      intro callee peeked kept isGood
      exact callValue_keepsUnless invariant kept escapes isGood _
  | invoke index argumentCount =>
      apply (name_keeps invariant kept index).last
      intro name named kept _
      exact invoke_keepsUnless invariant kept escapes name _
  | _ => exact (execute_keeps invariant kept entryDepth rfl).unless

/-- So does reading and carrying out an instruction, wherever the frame stands. -/
theorem step_keepsUnless (entryDepth : Nat) :
    (step environment entryDepth).KeepsUnless escape holds (Transition.Hands environment good)
      state := by
  unfold step
  extract_lets goOn
  have goesOn :
      ∀ {state : State}, holds state →
        (goOn ()).KeepsUnless escape holds (Transition.Hands environment good) state := by
    intro state kept
    apply KeepsUnless.look
    split
    · rename_i instruction _
      apply (fetch_keeps invariant kept _ instruction).last
      intro _ fetched kept _
      exact execute_keepsUnless invariant kept escapes entryDepth instruction
    · apply (moveTo_keeps invariant kept _).last
      intro _ moved kept _
      exact (Keeps.raise kept _).unless
    · exact (fetchTruncated_keeps invariant kept _ _).unless
    · exact (Keeps.stuck kept).unless
  split
  · have recorded : recordStep.Keeps holds (fun _ => True) state :=
      ⟨invariant.change kept (.journal _), trivial⟩
    apply recorded.last
    intro _ after kept _
    exact goesOn kept
  · exact goesOn kept

end Escaping

end Action

/-! ## The machine -/

/-- The instance that a host call constructs, if any, has a property. -/
def HostCall.Each (good : Value → Prop) (call : HostCall) : Prop :=
  ∀ created, call.constructed = some created → good created

/-- What the machine does next concerns only values with a property. -/
def Control.Each (good : Value → Prop) : Control → Prop
  | .script => True
  | .host call _ => call.Each good
  | .ended outcome => OutcomeEach good outcome
  | .stuck => True

/-- Whoever waits for the outcome of a call goes on with values with a property. -/
def SubRun.Each (good : Value → Prop) (subRun : SubRun) : Prop :=
  ∀ call next, subRun.awaiting = some (call, next) → call.Each good

/-- A property of the state holds, and the machine goes on with good values. -/
structure Machine.Holds (holds : State → Prop) (good : Value → Prop) (machine : Machine) :
    Prop where
  state : holds machine.state
  control : machine.control.Each good
  subRuns : ∀ subRun ∈ machine.subRuns, subRun.Each good

/-- The name of the instance that a request changes, if it changes one, has a property. -/
def HostRequest.Targets (good : Value → Prop) : HostRequest → Prop
  | setField id _ _ | setData id _ | lock id | unlock id => good (.object id)
  | _ => True

theorem HostRequest.targets_of_compound
    {good : Value → Prop}
    [compound : Value.Compound good]
    (request : HostRequest) :
    request.Targets good := by
  cases request with
  | setField | setData | lock | unlock => exact compound.object _
  | _ => trivial

/-- What a host routine is about to hand to the machine has a property. -/
def HostProgram.Supplies (good : Value → Prop) : HostProgram → Prop
  | .finish value => good value
  | .perform request _ => request.Each good
  | .call callee arguments _ => good callee ∧ ∀ argument ∈ arguments, good argument
  | _ => True

/-- What the host hands to the machine in its next step has a property. -/
def Machine.Supplied (good : Value → Prop) (machine : Machine) : Prop :=
  ∀ call program, machine.control = .host call program → program.Supplies good

namespace Machine

variable
  {environment : Environment}
  {good : Value → Prop}
  {holds : State → Prop}
  {state : State}
  {control : Control}
  {subRuns : List SubRun}

/-- Where every value is good, only the state matters. -/
theorem holds_of_forall
    (all : ∀ value, good value)
    {machine : Machine}
    (kept : holds machine.state) :
    machine.Holds holds good where
  state := kept
  control := by
    cases control : machine.control with
    | script | stuck => trivial
    | host call program => exact fun created _ => all created
    | ended outcome => exact fun value _ => all value
  subRuns := fun _ _ _ _ _ created _ => all created

theorem supplied_of_forall (all : ∀ value, good value) (machine : Machine) :
    machine.Supplied good := by
  intro call program _
  cases program with
  | finish value => exact all value
  | perform request next => exact .of_forall all request
  | call callee arguments next => exact ⟨all callee, fun argument _ => all argument⟩
  | fail | inspect => trivial

theorem holds_conclude
    (kept : holds state)
    (waiting : ∀ subRun ∈ subRuns, subRun.Each good)
    {outcome : Except RuntimeError Value}
    (isGood : OutcomeEach good outcome) :
    (conclude { state, control, subRuns } outcome).Holds holds good := by
  cases subRuns with
  | nil => exact ⟨kept, isGood, waiting⟩
  | cons subRun outer =>
      have others := fun other member => waiting other (List.mem_cons_of_mem subRun member)
      rcases subRun with ⟨mark, depth, _ | ⟨call, next⟩⟩
      · exact ⟨kept, isGood, others⟩
      · exact ⟨kept, waiting _ List.mem_cons_self call next rfl, others⟩

variable (invariant : State.Invariant environment.settings.limits good holds)

include invariant

/-- A fault cuts stack and frames back. -/
theorem holds_raise
    (kept : holds state)
    (waiting : ∀ subRun ∈ subRuns, subRun.Each good)
    (fault : Fault) :
    (raise { state, control, subRuns } fault).Holds holds good := by
  unfold raise
  split
  · exact holds_conclude kept waiting nofun
  · rename_i mark depth _ _ _
    have cutStack : holds { state with stack := state.stack.shrink mark } :=
      (Action.cutStack_keeps invariant kept mark).holds
    refine holds_conclude (invariant.change cutStack (.frames ?_ ?_)) waiting nofun
    · exact fun frame member => .inl ⟨frame, mem_of_mem_shrink member, rfl⟩
    · rw [Array.size_shrink]
      exact Nat.le_trans (Nat.min_le_right _ _) (Nat.le_max_left _ _)

theorem holds_resume
    (kept : holds state)
    (waiting : ∀ subRun ∈ subRuns, subRun.Each good) :
    (resume { state, control, subRuns }).Holds holds good := by
  have popped := Action.pop_keeps invariant kept
  unfold Action.Keeps Action.Ensures at popped
  unfold resume
  split
  · exact ⟨kept, trivial, waiting⟩
  · split
    · rename_i value after outcome
      simp only [outcome] at popped
      apply holds_conclude popped.1 waiting
      rintro _ ⟨⟩
      exact popped.2
    · rename_i after outcome
      simp only [outcome] at popped
      exact holds_raise invariant popped waiting _

/-- The machine goes on after an action. -/
theorem holds_settle
    (waiting : ∀ subRun ∈ subRuns, subRun.Each good)
    {action : Action Transition}
    (keeps : action.Keeps holds (Transition.Hands environment good) state) :
    (settle control subRuns (action state)).Holds holds good := by
  unfold Action.Keeps Action.Ensures at keeps
  rcases outcome : action state with ⟨interruption | transition, after⟩
  · rw [outcome] at keeps
    cases interruption with
    | fault fault => exact holds_raise invariant keeps waiting fault
    | stuck => exact ⟨keeps, trivial, waiting⟩
  · rw [outcome] at keeps
    rcases keeps with ⟨kept, handed⟩
    cases transition with
    | proceed => exact holds_resume invariant kept waiting
    | enterHost call program => exact ⟨kept, handed.1, waiting⟩
    | finished value =>
        apply holds_conclude kept waiting
        rintro _ ⟨⟩
        exact handed

omit invariant in
/-- Whatever has been done before the machine goes on, an invariant of the state is kept. -/
theorem settle_keeps
    (invariant : State.Invariant environment.settings.limits (fun _ => True) holds)
    {result : Except Interruption Transition × State}
    (kept : holds result.2) :
    holds (settle control subRuns result).state := by
  have waiting : ∀ subRun ∈ subRuns, subRun.Each fun _ => True := fun _ _ _ _ _ _ _ => trivial
  rcases result with ⟨(fault | _) | (_ | ⟨call, program⟩ | value), after⟩
  · exact (holds_raise invariant kept waiting fault).state
  · exact kept
  · exact (holds_resume invariant kept waiting).state
  · exact kept
  · exact (holds_conclude kept waiting fun _ _ => trivial).state

/-- The machine goes on after an action that may have escaped. -/
theorem settle_holdsUnless
    {escape : State → Prop}
    (escapes : State.Escape environment.settings.limits good holds escape)
    (waiting : ∀ subRun ∈ subRuns, subRun.Each good)
    {action : Action Transition}
    (keeps : action.KeepsUnless escape holds (Transition.Hands environment good) state) :
    escape (settle control subRuns (action state)).state ∨
      (settle control subRuns (action state)).Holds holds good := by
  rcases keeps.escaped_or_keeps with escaped | keeps
  · exact .inl (settle_keeps escapes.invariant escaped)
  · exact .inr (holds_settle invariant waiting keeps)

/-! ## Requests -/

/-- Whatever a host routine asks for, an invariant is kept, unless the request is an escape. -/
theorem perform_keepsUnless
    {escape : State → Prop}
    (escapes : State.Escape environment.settings.limits good holds escape)
    (kept : holds state)
    {request : HostRequest}
    (isGood : request.Each good)
    (targets : request.Targets good) :
    escape (request.perform state).2 ∨ holds (request.perform state).2 := by
  by_cases adds : ∃ classId, request = .addObject classId
  · rcases adds with ⟨classId, rfl⟩
    rcases escapes.created kept classId with named | escaped
    · exact .inr (invariant.change kept
        (.heap rfl (fun each => each.addObject classId) (.addObject named classId)))
    · exact .inl escaped
  refine .inr ?_
  cases request with
  | write text => exact invariant.change kept (.journal _)
  | bind receiver method =>
      exact invariant.change kept
        (.heap rfl (fun each => ⟨each.classes, each.objects⟩) (.of_same rfl))
  | setField id name value =>
      exact invariant.change kept
        (.heap rfl (fun each => each.setField id name isGood) (.modify targets _))
  | setMethod id name method =>
      exact invariant.change kept
        (.heap rfl (fun each => each.setMethod id name isGood) (.of_same rfl))
  | setData id data =>
      exact invariant.change kept
        (.heap rfl (fun each => each.setData id isGood) (.modify targets _))
  | lock id =>
      exact invariant.change kept
        (.heap rfl (fun each => each.setLocked id true) (.modify targets _))
  | unlock id =>
      exact invariant.change kept
        (.heap rfl (fun each => each.setLocked id false) (.modify targets _))
  | defineBuiltin name value => exact invariant.change kept (.registry (.defineBuiltin name isGood))
  | defineVariable moduleName name value =>
      exact invariant.change kept (.registry (.defineVariable moduleName name isGood))
  | addNative native =>
      exact invariant.change kept
        (.heap rfl (fun each => ⟨each.classes, each.objects⟩) (.of_same rfl))
  | addClass newClass =>
      exact invariant.change kept
        (.heap rfl (fun each => each.addClass isGood) (.of_same rfl))
  | addObject classId => exact absurd ⟨classId, rfl⟩ adds
  | ensureModule moduleName => exact invariant.change kept (.registry (.ensure moduleName))
  | compile mode moduleName source =>
      have ensured := invariant.change kept (.registry (.ensure moduleName))
      have marked := invariant.change ensured
        (.registry (.markLoaded (state.registry.ensure moduleName).1))
      have compiled := invariant.change marked
        (.compile mode (Registry.find?_ensure state.registry moduleName) source)
      simp only [HostRequest.perform]
      change holds (state.addNamedSource mode moduleName source).2 at compiled
      split <;> rename_i outcome <;> rw [outcome] at compiled <;> exact compiled

theorem perform_keeps
    [compound : Value.Compound good]
    (kept : holds state)
    {request : HostRequest}
    (isGood : request.Each good) :
    holds (request.perform state).2 :=
  (perform_keepsUnless invariant .none kept isGood request.targets_of_compound).resolve_left id

theorem pushAll_keeps
    (kept : holds state)
    {values : List Value}
    (each : ∀ value ∈ values, good value) :
    (pushAll environment values).Keeps holds (fun _ => True) state := by
  induction values generalizing state with
  | nil => exact .pure kept trivial
  | cons value rest induction =>
      apply (Action.push_keeps invariant kept (each value List.mem_cons_self)).bind
      intro _ after kept _
      exact induction kept fun other member => each other (List.mem_cons_of_mem value member)

section Escaping

variable
  [partwise : Value.Partwise good]
  {escape : State → Prop}
  (escapes : State.Escape environment.settings.limits good holds escape)

include escapes

theorem enter_keepsUnless
    (kept : holds state)
    (depth : Nat)
    {callee : Value}
    {arguments : List Value}
    (calleeGood : good callee)
    (argumentsGood : ∀ argument ∈ arguments, good argument) :
    (enter environment depth callee arguments).KeepsUnless escape holds
      (Transition.Hands environment good) state := by
  unfold enter
  apply Action.KeepsUnless.check kept
  apply Action.KeepsUnless.check kept
  apply (Action.push_keeps invariant kept calleeGood).last
  intro _ pushed kept _
  apply (pushAll_keeps invariant kept argumentsGood).last
  intro _ entered kept _
  exact Action.callValue_keepsUnless invariant kept escapes calleeGood _

/-- The action of the next step keeps an invariant or escapes. -/
theorem nextAction_keepsUnless
    [compiles : State.Compiles good holds]
    {machine : Machine}
    (kept : machine.Holds holds good)
    (supplied : machine.Supplied good)
    {action : Action Transition}
    (isNext : machine.nextAction? environment = some (action, subRuns)) :
    action.KeepsUnless escape holds (Transition.Hands environment good) machine.state ∧
      ∀ subRun ∈ subRuns, subRun.Each good := by
  unfold nextAction? at isNext
  split at isNext <;> cases isNext
  · exact ⟨Action.step_keepsUnless invariant kept.state escapes _, kept.subRuns⟩
  · refine ⟨?_, kept.subRuns⟩
    apply (Action.completeHostCall_keeps invariant kept.state kept.control
      (supplied _ _ rfl)).last
    intro _ after kept _
    exact (Action.Keeps.pure kept trivial).unless
  · rcases supplied _ _ rfl with ⟨calleeGood, argumentsGood⟩
    refine ⟨enter_keepsUnless invariant escapes kept.state _ calleeGood argumentsGood, ?_⟩
    intro subRun member
    rcases List.mem_cons.mp member with rfl | old
    · rintro _ _ ⟨⟩
      exact kept.control
    · exact kept.subRuns subRun old

/-- A step keeps an invariant if the host supplies good values only, or it escapes. -/
theorem Holds.stepUnless
    [compiles : State.Compiles good holds]
    {machine : Machine}
    (kept : machine.Holds holds good)
    (supplied : machine.Supplied good)
    (targets :
      ∀ call request next,
        machine.control = .host call (.perform request next) → request.Targets good) :
    escape (machine.step environment).state ∨ (machine.step environment).Holds holds good := by
  rcases isNext : machine.nextAction? environment with _ | ⟨action, subRuns⟩
  · rcases machine with ⟨state, control, subRuns⟩
    cases control with
    | script => cases isNext
    | host call program =>
        cases program with
        | finish value => cases isNext
        | call callee arguments next => cases isNext
        | fail message => exact .inr (holds_raise invariant kept.state kept.subRuns _)
        | inspect next => exact .inr ⟨kept.state, kept.control, kept.subRuns⟩
        | perform request next =>
            rcases perform_keepsUnless invariant escapes kept.state (supplied call _ rfl)
              (targets call request next rfl) with escaped | performed
            · exact .inl escaped
            · exact .inr ⟨performed, kept.control, kept.subRuns⟩
    | ended outcome => exact .inr kept
    | stuck => exact .inr kept
  · rcases nextAction_keepsUnless invariant escapes kept supplied isNext with ⟨keeps, waiting⟩
    rw [step_eq_settle isNext]
    exact settle_holdsUnless invariant escapes waiting keeps

/-- A call from outside keeps an invariant or escapes. -/
theorem start_holdsUnless
    (kept : holds state)
    (waiting : ∀ subRun ∈ subRuns, subRun.Each good)
    {callee : Value}
    {arguments : List Value}
    (calleeGood : good callee)
    (argumentsGood : ∀ argument ∈ arguments, good argument)
    {awaiting : Option (HostCall × (Except RuntimeError Value → HostProgram))}
    (caller : ∀ call next, awaiting = some (call, next) → call.Each good) :
    escape (start environment state subRuns callee arguments awaiting).state ∨
      (start environment state subRuns callee arguments awaiting).Holds holds good := by
  apply settle_holdsUnless invariant escapes _
    (enter_keepsUnless invariant escapes kept _ calleeGood argumentsGood)
  intro subRun member
  rcases List.mem_cons.mp member with rfl | old
  · exact caller
  · exact waiting subRun old

end Escaping

/-! ## Properties of all instances -/

variable [compound : Value.Compound good]

theorem enter_keeps
    (kept : holds state)
    (depth : Nat)
    {callee : Value}
    {arguments : List Value}
    (calleeGood : good callee)
    (argumentsGood : ∀ argument ∈ arguments, good argument) :
    (enter environment depth callee arguments).Keeps holds (Transition.Hands environment good)
      state :=
  (enter_keepsUnless invariant .none kept depth calleeGood argumentsGood).keeps

/-- The action of the next step keeps an invariant. -/
theorem nextAction_keeps
    [compiles : State.Compiles good holds]
    {machine : Machine}
    (kept : machine.Holds holds good)
    (supplied : machine.Supplied good)
    {action : Action Transition}
    (isNext : machine.nextAction? environment = some (action, subRuns)) :
    action.Keeps holds (Transition.Hands environment good) machine.state ∧
      ∀ subRun ∈ subRuns, subRun.Each good :=
  (nextAction_keepsUnless invariant .none kept supplied isNext).imp_left (·.keeps)

/-- A step keeps an invariant if the host supplies good values only. -/
theorem Holds.step
    [compiles : State.Compiles good holds]
    {machine : Machine}
    (kept : machine.Holds holds good)
    (supplied : machine.Supplied good) :
    (machine.step environment).Holds holds good :=
  (kept.stepUnless invariant .none supplied fun _ request _ _ =>
    request.targets_of_compound).resolve_left id

/-- A call from outside keeps an invariant. -/
theorem holds_start
    (kept : holds state)
    (waiting : ∀ subRun ∈ subRuns, subRun.Each good)
    {callee : Value}
    {arguments : List Value}
    (calleeGood : good callee)
    (argumentsGood : ∀ argument ∈ arguments, good argument)
    {awaiting : Option (HostCall × (Except RuntimeError Value → HostProgram))}
    (caller : ∀ call next, awaiting = some (call, next) → call.Each good) :
    (start environment state subRuns callee arguments awaiting).Holds holds good :=
  (start_holdsUnless invariant .none kept waiting calleeGood argumentsGood caller).resolve_left id

end Machine

end ScriptEngine
