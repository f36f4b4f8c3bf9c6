import ScriptEngine.Proofs.Compiler.Record
import ScriptEngine.Proofs.Machine.Honesty
import ScriptEngine.Proofs.Machine.Marks

/-!
# The class of arrays

The class of arrays is the content of the first variable of every module.  Scripts cannot
assign this variable, whatever they declare, and they cannot give the class other methods.
So as long as the embedding program leaves the name `Array` and the methods of the class
alone (`HostRequest.SparesArrays`), nothing changes about it.
-/

namespace ScriptEngine

/-! ## Modules -/

/-- The first variable holds the class of arrays. -/
def Module.HasArrays (table : Module) : Prop :=
  table.get? 0 = some (.classObject 0)

namespace Module.HasArrays

variable {table after : Module}

theorem set
    (has : table.HasArrays)
    {slot : Nat}
    (isOther : slot ≠ 0)
    (value : Value) :
    (table.set slot value).HasArrays := by
  show (table.values.setIfInBounds slot value)[0]? = _
  rw [Array.getElem?_setIfInBounds_ne isOther]
  exact has

theorem of_declares (has : table.HasArrays) (declares : table.Declares after) :
    after.HasArrays := by
  rcases declares with ⟨names, -, values⟩
  show after.values[0]? = _
  rw [← Array.getElem?_toList, values, List.getElem?_append_left, Array.getElem?_toList]
  · exact has
  · rw [Array.length_toList]
    exact (Array.getElem?_eq_some_iff.mp has).1

theorem declare (has : table.HasArrays) (name : String) : (table.declare name).2.HasArrays :=
  has.of_declares (Module.Grows.declare .same name).declares

/-- No other name stands for the first variable. -/
theorem declare_ne_zero
    (consistent : table.Consistent)
    (named : table.variableName? 0 = some "Array")
    {name : String}
    (isOther : name ≠ "Array")
    {slot : Nat}
    (declared : table.declare name = (some slot, after)) :
    slot ≠ 0 := by
  rintro rfl
  have advances := Module.Advances.declare table name
  rw [declared] at advances
  have found := (advances.consistent consistent).named name 0 (find?_of_declare declared)
  rw [advances.extension.variableName named] at found
  exact isOther (Option.some.inj found).symm

variable
  (has : table.HasArrays)
  (consistent : table.Consistent)
  (named : table.variableName? 0 = some "Array")
  {name : String}
  (isOther : name ≠ "Array")

include has consistent named isOther

theorem define (value : Value) : (Registry.define table name value).2.HasArrays := by
  have declared := has.declare name
  unfold Registry.define
  rcases outcome : table.declare name with ⟨_ | slot, after⟩
  · rw [outcome] at declared
    exact declared
  · rw [outcome] at declared
    exact declared.set (declare_ne_zero consistent named isOther outcome) value

theorem offer (value : Value) : (Registry.offer table name value).HasArrays := by
  have declared := has.declare name
  unfold Registry.offer
  rcases outcome : table.declare name with ⟨_ | slot, after⟩
  · rw [outcome] at declared
    exact declared
  · rw [outcome] at declared
    dsimp only
    split
    · exact declared.set (declare_ne_zero consistent named isOther outcome) value
    · exact declared

end Module.HasArrays

/-- The first variable of every module is called `Array`. -/
structure Registry.NamesArrays (registry : Registry) : Prop where
  consistent : registry.Consistent
  named : ∀ table ∈ registry.modules, table.variableName? 0 = some "Array"

/-- The first variable of every module holds the class of arrays. -/
structure Registry.HasArrays (registry : Registry) : Prop where
  nonempty : 0 < registry.modules.size
  modules : ∀ table ∈ registry.modules, table.HasArrays

namespace Registry.NamesArrays

theorem advances
    {before after : Registry}
    (names : before.NamesArrays)
    (advances : before.Advances after) :
    after.NamesArrays := by
  refine ⟨advances.consistent names.consistent, fun table member => ?_⟩
  rcases advances.descends names.consistent table member with ⟨seed, isSeed, longer⟩
  have named := names.named seed isSeed
  unfold Module.variableName? at named ⊢
  rw [← Array.getElem?_toList] at named ⊢
  rcases List.getElem?_eq_some_iff.mp named with ⟨inside, same⟩
  rw [List.prefix_iff_getElem?.mp longer 0 inside, same]

end Registry.NamesArrays

namespace Registry.HasArrays

variable {registry : Registry} (has : registry.HasArrays)

include has

theorem moduleAt {id : Nat} (inside : id < registry.modules.size) :
    (registry.moduleAt id).HasArrays := by
  rw [Registry.moduleAt_eq inside]
  exact has.modules _ (Array.getElem_mem inside)

theorem modify
    (id : Nat)
    {change : Module → Module}
    (keeps : ∀ table, table.HasArrays → (change table).HasArrays) :
    (registry.modify id change).HasArrays := by
  refine ⟨by simpa [Registry.modify] using has.nonempty, fun table member => ?_⟩
  rcases Array.getElem?_of_mem member with ⟨place, found⟩
  simp only [Registry.modify, Array.getElem?_modify] at found
  split at found
  · rcases Option.map_eq_some_iff.mp found with ⟨old, here, rfl⟩
    exact keeps old (has.modules old (Array.mem_of_getElem? here))
  · exact has.modules table (Array.mem_of_getElem? found)

theorem ensure (name : String) : (registry.ensure name).2.HasArrays := by
  unfold Registry.ensure
  split
  · exact has
  · refine ⟨by simp, fun table member => ?_⟩
    rcases Array.mem_push.mp member with old | rfl
    · exact has.modules table old
    · exact has.moduleAt has.nonempty

theorem replace
    (id : Nat)
    {table : Module}
    (has' : table.HasArrays) :
    (registry.replace id table).HasArrays := by
  refine ⟨by simpa [Registry.replace] using has.nonempty, fun other member => ?_⟩
  rcases Array.mem_or_eq_of_mem_setIfInBounds member with old | rfl
  · exact has.modules other old
  · exact has'

omit has in
theorem addSource
    {state : State}
    (has : state.registry.HasArrays)
    (mode : CompileMode)
    (id : Nat)
    (source : String) :
    (state.addSource mode id source).2.registry.HasArrays := by
  have size : (state.addSource mode id source).2.registry.modules.size =
      state.registry.modules.size := by
    rw [State.registry_addSource, Registry.size_replace]
  refine ⟨size ▸ has.nonempty, fun table member => ?_⟩
  rcases Array.getElem?_of_mem member with ⟨place, found⟩
  have inside : place < state.registry.modules.size :=
    size ▸ (Array.getElem?_eq_some_iff.mp found).1
  rcases state.addSource_declares mode id source (Array.getElem?_eq_getElem inside) with
    ⟨later, there, declares⟩
  cases there.symm.trans found
  exact (has.modules _ (Array.getElem_mem inside)).of_declares declares

omit has in
theorem importKeeps : Action.ImportKeeps Registry.HasArrays where
  markLoaded _ id has := has.modify id fun _ kept => kept
  ensure _ name has := has.ensure name
  addSource _ mode id source has := addSource has mode id source

theorem defineBuiltin
    (names : registry.NamesArrays)
    {name : String}
    (isOther : name ≠ "Array")
    (value : Value) :
    (registry.defineBuiltin name value).HasArrays := by
  refine ⟨by simpa [Registry.defineBuiltin] using has.nonempty, fun table member => ?_⟩
  rcases Array.mem_mapIdx.mp member with ⟨place, inside, rfl⟩
  have isMember := Array.getElem_mem inside
  have here := has.modules _ isMember
  have consistent := names.consistent.modules _ isMember
  split
  · exact here.define consistent (names.named _ isMember) isOther value
  · exact here.offer consistent (names.named _ isMember) isOther value

theorem defineVariable
    (names : registry.NamesArrays)
    (moduleName : String)
    {name : String}
    (isOther : name ≠ "Array")
    (value : Value) :
    (registry.defineVariable moduleName name value).2.HasArrays := by
  have ensured := has.ensure moduleName
  have namesEnsured := names.advances (.ensure registry moduleName)
  have inside := namesEnsured.consistent.inside (Registry.find?_ensure registry moduleName)
  have isMember := Array.getElem_mem inside
  show ((registry.ensure moduleName).2.replace (registry.ensure moduleName).1
    (Registry.define ((registry.ensure moduleName).2.moduleAt (registry.ensure moduleName).1) name
      value).2).HasArrays
  apply ensured.replace
  rw [Registry.moduleAt_eq inside]
  exact (ensured.modules _ isMember).define (namesEnsured.consistent.modules _ isMember)
    (namesEnsured.named _ isMember) isOther value

omit has in
/-- Another variable is assigned. -/
theorem assign
    {before after : Registry}
    (has : before.HasArrays)
    (names : before.NamesArrays)
    {moduleName name : String}
    (isOther : name ≠ "Array")
    {value : Value}
    (assigned : before.assign? moduleName name value = some after) :
    after.HasArrays := by
  unfold Registry.assign? at assigned
  rcases Option.bind_eq_some_iff.mp assigned with ⟨id, found, assigned⟩
  rcases Option.bind_eq_some_iff.mp assigned with ⟨slot, isSlot, same⟩
  cases same
  have inside := names.consistent.inside found
  have isMember := Array.getElem_mem inside
  rw [Registry.moduleAt_eq inside] at isSlot
  have named := (names.consistent.modules _ isMember).named name slot isSlot
  refine has.modify id fun table kept => kept.set ?_ value
  rintro rfl
  rw [names.named _ isMember] at named
  exact isOther (Option.some.inj named).symm

end Registry.HasArrays

/-! ## Code -/

/-- The code of a function nowhere assigns the first variable of its module. -/
theorem Function.RecordedAs.spares
    {function : Function}
    (recorded : function.RecordedAs Instruction.SparesArrayClass)
    {offset : Nat}
    {instruction : Instruction}
    (boundary : Boundary function.chunk.code offset)
    (decoded : Instruction.decode function.chunk.code offset = .complete instruction) :
    instruction.SparesArrayClass := by
  rcases recorded with ⟨history, emits, allowed⟩
  have jumps : ∀ (kind : ForwardJump) distance, (kind.past distance).SparesArrayClass := by
    intro kind distance
    cases kind <;> exact Instruction.sparesArrayClass_of_unassigning rfl
  rcases Chunk.Emits.code_of_forall jumps emits allowed with ⟨instructions, code, -, all⟩
  rcases Chunk.split_of_boundary code boundary decoded with ⟨before, after, rfl, -⟩
  exact all instruction (by simp)

/-- No function that is there assigns the first variable of its module. -/
structure State.SparesArrays (state : State) : Prop where
  registry : state.registry.NamesArrays
  functions :
    ∀ function ∈ state.heap.functions, function.RecordedAs Instruction.SparesArrayClass
  frames : ∀ frame ∈ state.frames, frame.function.RecordedAs Instruction.SparesArrayClass

namespace State.SparesArrays

theorem addSource
    {state : State}
    (spares : state.SparesArrays)
    (mode : CompileMode)
    {id : Nat}
    (inside : id < state.registry.modules.size)
    (source : String) :
    (state.addSource mode id source).2.SparesArrays := by
  have isMember := Array.getElem_mem inside
  have holds : (state.registry.moduleAt id).HoldsArrayClass := by
    rw [Registry.moduleAt_eq inside]
    exact ⟨(spares.registry.consistent.modules _ isMember).toIndexed,
      spares.registry.named _ isMember⟩
  refine ⟨spares.registry.advances (state.advances_addSource mode id source), ?_, ?_⟩
  · intro function member
    rcases outcome : (compile mode source (state.registry.moduleAt id) id
        state.heap.functions.size).functions with error | functions
    · unfold State.addSource at member
      simp only [outcome] at member
      exact spares.functions function member
    · unfold State.addSource at member
      simp only [outcome] at member
      rcases Array.mem_append.mp member with old | new
      · exact spares.functions function old
      · exact arrayClass_spared_of_compile holds outcome function new
  · rw [(frames_addSource state mode id source).2]
    exact spares.frames

end State.SparesArrays

/-- Whatever changes the state, no function assigns the class of arrays. -/
theorem State.sparesArrays_invariant (limits : Limits) :
    State.Invariant limits (fun _ => True) State.SparesArrays where
  each := fun {state} _ => .of_forall (fun _ => trivial) state
  change := by
    intro before after spares change
    cases change with
    | stack | journal => exact ⟨spares.registry, spares.functions, spares.frames⟩
    | registry change =>
        exact ⟨spares.registry.advances change.advances, spares.functions, spares.frames⟩
    | heap functions =>
        refine ⟨spares.registry, ?_, spares.frames⟩
        rw [functions]
        exact spares.functions
    | frames known =>
        refine ⟨spares.registry, spares.functions, fun frame member => ?_⟩
        rcases known frame member with ⟨old, isOld, same⟩ | ⟨id, same⟩
        · rw [same]
          exact spares.frames old isOld
        · rw [same]
          unfold Heap.function
          rw [Array.getD_eq_getD_getElem?]
          rcases found : before.heap.functions[id]? with _ | function
          · exact ⟨[], .blank, nofun⟩
          · exact spares.functions function (Array.mem_of_getElem? found)
    | compile mode found source =>
        exact spares.addSource mode (spares.registry.consistent.inside found) source

/-- In histories without code written by hand, no function assigns the class of arrays. -/
theorem Machine.Leads.sparesArrays
    {environment : Environment}
    {machine : Machine}
    (leads : equipped.Leads environment .compiled machine) :
    machine.state.SparesArrays := by
  have begins : equipped.state.SparesArrays := by
    refine ⟨⟨Fresh.equipped.consistent, ?_⟩, nofun, nofun⟩
    have stays : equipped.Leads environment .any equipped := .refl
    exact fun table member => stays.firstVariable member
  have admits : Admits .compiled State.SparesArrays := fun _ _ supplied => False.elim supplied
  exact (leads.keeps (State.sparesArrays_invariant _) admits
    (holds_of_forall (fun _ => trivial) begins)).state

/-! ## States -/

/-- A request that leaves the name and the methods of the class of arrays alone. -/
def HostRequest.SparesArrays : HostRequest → Prop
  | defineBuiltin name _ | defineVariable _ name _ => name ≠ "Array"
  | setMethod classId _ _ => classId ≠ 0
  | _ => True

/-- The class of arrays is the one with which the machine began, and every module has it. -/
structure State.KeepsArrays (state : State) : Prop where
  registry : state.registry.HasArrays
  kinds : Machine.equipped.state.KeepsKinds 1 state

namespace State.KeepsArrays

variable {state after : State}

theorem of_same
    (keeps : state.KeepsArrays)
    (registry : after.registry = state.registry)
    (kinds : state.KeepsKinds 1 after) :
    after.KeepsArrays :=
  ⟨registry ▸ keeps.registry, keeps.kinds.trans kinds⟩

theorem one_le_classes (keeps : state.KeepsArrays) : 1 ≤ state.heap.classes.size := by
  refine Nat.le_trans ?_ keeps.kinds.size
  decide

/-- Every method of the class is there as it was. -/
theorem classAt (keeps : state.KeepsArrays) :
    state.heap.classAt 0 = Machine.equipped.state.heap.classAt 0 := by
  unfold Heap.classAt
  rw [Array.getD_eq_getD_getElem?, Array.getD_eq_getD_getElem?,
    keeps.kinds.classes 0 Nat.one_pos]

theorem perform
    (keeps : state.KeepsArrays)
    (names : state.registry.NamesArrays)
    {request : HostRequest}
    (spares : request.SparesArrays) :
    (request.perform state).2.KeepsArrays := by
  cases request with
  | defineBuiltin name value =>
      exact ⟨keeps.registry.defineBuiltin names spares value, keeps.kinds.trans (.of_same rfl)⟩
  | defineVariable moduleName name value =>
      exact ⟨keeps.registry.defineVariable names moduleName spares value,
        keeps.kinds.trans (.of_same rfl)⟩
  | ensureModule moduleName =>
      exact ⟨keeps.registry.ensure moduleName, keeps.kinds.trans (.of_same rfl)⟩
  | setMethod classId name method =>
      exact keeps.of_same rfl
        (Action.modify_kinds (Nat.one_le_iff_ne_zero.mpr spares)
          (fun owner => { owner with methods := owner.methods.insert name method }) rfl rfl)
  | addClass newClass =>
      exact keeps.of_same rfl (Action.addClass_kinds 1 keeps.one_le_classes newClass)
  | addNative native =>
      refine keeps.of_same rfl ⟨fun _ _ => rfl, Nat.le_refl _, ?_⟩
      show state.heap.natives.toList <+: (state.heap.natives.push native).toList
      rw [Array.toList_push]
      exact List.prefix_append _ _
  | compile mode moduleName source =>
      have marked : State.KeepsArrays
          { state with
            registry := (state.registry.ensure moduleName).2.modify
              (state.registry.ensure moduleName).1 Module.markLoaded } :=
        ⟨(keeps.registry.ensure moduleName).modify _ fun _ kept => kept,
          keeps.kinds.trans (.of_same rfl)⟩
      have compiled : (state.addNamedSource mode moduleName source).2.KeepsArrays :=
        ⟨Registry.HasArrays.addSource marked.registry mode _ source, marked.kinds.trans
          (.of_same ((Action.Spares.compileModule mode _ source).same _))⟩
      simp only [HostRequest.perform]
      split <;> rename_i outcome <;> rw [outcome] at compiled <;> exact compiled
  | _ => exact keeps.of_same rfl (.of_same rfl)

end State.KeepsArrays

/-! ## Steps -/

namespace OuterCall

open Machine

variable {environment : Environment} {call : OuterCall} {machine : Machine}

/-- A script leaves the modules' first variables alone. -/
theorem hasArrays_of_script
    (reaches : call.Reaches environment machine)
    (orderly : call.state.Orderly)
    (lasts : call.Lasts machine)
    (spares : machine.state.SparesArrays)
    (has : machine.state.registry.HasArrays)
    (isScript : machine.control = .script) :
    (machine.step environment).state.registry.HasArrays := by
  have steps :
      (machine.step environment).state.registry = machine.state.registry ∨
        ∃ frame instruction,
          machine.Executes frame instruction ∧ instruction.changesModules = true :=
    Machine.registry_step isScript
  rcases steps with same | ⟨frame, instruction, executes, changes⟩
  · rw [same]
    exact has
  · have member : frame ∈ machine.state.frames := Array.mem_of_back? executes.innermost
    have sparing := (spares.frames frame member).spares
      (reaches.boundary orderly lasts executes) executes.decoded
    have assigns {slot : UInt16} (isOther : slot ≠ 0)
        (assigned :
          Action.Assigned frame.function slot.toNat machine.state.registry
            (machine.step environment).state.registry) :
        (machine.step environment).state.registry.HasArrays := by
      rcases assigned with same | ⟨value, same⟩
      · rw [same]
        exact has
      · rw [same]
        refine has.modify _ fun table kept => kept.set (fun isZero => isOther ?_) value
        exact UInt16.toNat_inj.mp isZero
    cases instruction with
    | setModule slot =>
        exact assigns (fun isZero => sparing.1 (congrArg _ isZero))
          (Executes.assigned (.inl executes))
    | defineModule slot =>
        exact assigns (fun isZero => sparing.2 (congrArg _ isZero))
          (Executes.assigned (.inr executes))
    | importModule index => exact executes.keeps_registry Registry.HasArrays.importKeeps has
    | _ => cases changes

/-- What an action of the host leaves alone, the step leaves alone. -/
theorem keepsArrays_settle
    {state : State}
    (keeps : state.KeepsArrays)
    (subRuns : List SubRun)
    (action : Action Transition)
    [registry : action.Spares State.registry]
    [kinds : action.Spares State.kinds] :
    (settle .script subRuns (action state)).state.KeepsArrays :=
  keeps.of_same ((registry_settle _ _ _).trans (registry.same state))
    ((State.KeepsKinds.of_same (kinds.same state)).trans (kinds_settle _ _ _))

/-- A step leaves the class of arrays alone if the host does. -/
theorem keepsArrays_step
    (reaches : call.Reaches environment machine)
    (orderly : call.state.Orderly)
    (lasts : call.Lasts machine)
    (spares : machine.state.SparesArrays)
    (marking : Marking 1 machine)
    (keeps : machine.state.KeepsArrays)
    (sparing :
      ∀ routine request next,
        machine.control = .host routine (.perform request next) → request.SparesArrays) :
    (machine.step environment).state.KeepsArrays := by
  cases control : machine.control with
  | script =>
      exact ⟨hasArrays_of_script reaches orderly lasts spares keeps.registry control,
        keeps.kinds.trans
          (keepsKinds_of_script reaches orderly lasts keeps.one_le_classes marking control)⟩
  | host routine program =>
      rcases machine with ⟨state, other, subRuns⟩
      cases control
      cases program with
      | finish value =>
          exact keepsArrays_settle keeps subRuns (do
            Action.completeHostCall environment routine value
            return .proceed)
      | call callee arguments next =>
          exact keepsArrays_settle keeps (_ :: subRuns)
            (enter environment (subRuns.length + 1) callee arguments)
      | fail message =>
          rcases state_raise { state, control := .script, subRuns } (.host message) with
            ⟨stack, frames, same, -⟩
          show (raise _ _).state.KeepsArrays
          rw [same]
          exact keeps.of_same rfl (.of_same rfl)
      | inspect next => exact keeps
      | perform request next => exact keeps.perform spares.registry (sparing _ _ _ rfl)
  | ended outcome =>
      rw [step_of_isEnded (by rw [control]; rfl)]
      exact keeps
  | stuck =>
      rcases machine with ⟨state, other, subRuns⟩
      cases control
      exact keeps

end OuterCall

/-! ## Histories -/

namespace Machine

/--
Something that happens to a machine while the embedding program leaves the class of arrays
alone.  What the embedding program hands to the machine mentions only instances that are there.
-/
inductive Tame (environment : Environment) (machine : Machine) : Machine → Prop where
  | step
      (spares :
        ∀ routine request next,
          machine.control = .host routine (.perform request next) → request.SparesArrays) :
      Tame environment machine (machine.step environment)
  | call
      (idle : machine.control.isEnded = true)
      {callee : Value}
      {arguments : List Value}
      (calleeKnown : callee.IsKnown machine.state.heap)
      (argumentsKnown : ∀ argument ∈ arguments, argument.IsKnown machine.state.heap) :
      Tame environment machine (start environment machine.state [] callee arguments none)
  | request
      (idle : machine.control.isEnded = true)
      {request : HostRequest}
      (spares : request.SparesArrays)
      (known : ∀ id, machine.state.heap.objects.size ≤ id → request.Each (Value.Lacks id))
      (targets : ∀ id, machine.state.heap.objects.size ≤ id → request.Targets (Value.Lacks id)) :
      Tame environment machine { machine with state := (request.perform machine.state).2 }
  | assign
      (idle : machine.control.isEnded = true)
      {moduleName name : String}
      (isOther : name ≠ "Array")
      {value : Value}
      (known : value.IsKnown machine.state.heap)
      {registry : Registry}
      (assigned : machine.state.registry.assign? moduleName name value = some registry) :
      Tame environment machine { machine with state := { machine.state with registry } }
  | takeRecords (idle : machine.control.isEnded = true) :
      Tame environment machine { machine with state := { machine.state with journal := {} } }

/-- What a machine becomes while the embedding program leaves the class of arrays alone. -/
def TamelyLeads (environment : Environment) : Machine → Machine → Prop :=
  Relation.ReflTransGen (Tame environment)

variable {environment : Environment} {machine next : Machine}

theorem Tame.event (tame : machine.Tame environment next) :
    machine.Event environment .compiled next := by
  cases tame with
  | step => exact .step (supplied_of_forall (fun _ => trivial) _)
  | call idle => exact .call idle trivial fun _ _ => trivial
  | request idle => exact .request idle (.of_forall (fun _ => trivial) _)
  | assign idle _ _ assigned => exact .assign idle trivial assigned
  | takeRecords idle => exact .takeRecords idle

theorem TamelyLeads.leads (leads : machine.TamelyLeads environment next) :
    machine.Leads environment .compiled next := by
  induction leads with
  | refl => exact .refl
  | tail _ tame induction => exact induction.tail tame.event

/-- The machine is at rest, or in a call that the embedding program has made at rest. -/
inductive Situated (environment : Environment) (machine : Machine) : Prop where
  | idle (idle : machine.control.isEnded = true)
  | inCall
      {before : Machine}
      (begins : equipped.TamelyLeads environment before)
      (callee : Value)
      (arguments : List Value)
      (count : Nat)
      (lasted :
        let call := OuterCall.outermost before.state callee arguments
        ∀ earlier < count,
          call.Lasts (call.machineAt environment earlier) ∧
            (call.machineAt environment earlier).state.KeepsArrays)
      (isPresent :
        machine = (OuterCall.outermost before.state callee arguments).machineAt environment count)

/-- A call that the embedding program makes at rest is prepared. -/
theorem TamelyLeads.prepared
    (leads : equipped.TamelyLeads environment machine)
    (callee : Value)
    (arguments : List Value) :
    (OuterCall.outermost machine.state callee arguments).Prepared environment where
  orderly := (leads.leads.inOrder .equipped).1
  within := (Arises.withinLimits ⟨equipped, .equipped, leads.leads.any⟩).state
  calls := Nat.zero_le _

theorem keepsArrays_equipped : equipped.state.KeepsArrays := by
  refine ⟨⟨by decide, fun table member => ?_⟩, .refl 1 _⟩
  have contents :
      equipped.state.registry.modules.map Module.values =
        #[#[.classObject 0, .classObject 1]] := by
    cbv
  have isContent : table.values = #[.classObject 0, .classObject 1] := by
    apply Array.mem_singleton.mp
    rw [← contents]
    exact Array.mem_map_of_mem member
  unfold Module.HasArrays Module.get?
  rw [isContent]
  rfl

/-- What happens next leaves the class of arrays alone. -/
theorem keepsArrays_tame
    (leads : equipped.TamelyLeads environment machine)
    (situated : machine.Situated environment)
    (keeps : machine.state.KeepsArrays)
    (tame : machine.Tame environment next) :
    next.state.KeepsArrays ∧ next.Situated environment := by
  have spares := leads.leads.sparesArrays
  cases tame with
  | request idle sparing => exact ⟨keeps.perform spares.registry sparing, .idle idle⟩
  | takeRecords idle => exact ⟨keeps.of_same rfl (.of_same rfl), .idle idle⟩
  | assign idle isOther known assigned =>
      exact ⟨⟨keeps.registry.assign spares.registry isOther assigned,
        keeps.kinds.trans (.of_same rfl)⟩, .idle idle⟩
  | @call idle callee arguments =>
      exact ⟨OuterCall.keepsArrays_settle keeps [_] (enter environment _ callee arguments),
        .inCall leads callee arguments 0 nofun rfl⟩
  | step sparing =>
      by_cases ended : machine.control.isEnded = true
      · rw [step_of_isEnded ended]
        exact ⟨keeps, situated⟩
      · cases situated with
        | idle idle => exact absurd idle ended
        | @inCall before begins callee arguments count lasted isPresent =>
            subst isPresent
            let call := OuterCall.outermost before.state callee arguments
            have prepared := begins.prepared callee arguments
            have reaches : call.Reaches environment (call.machineAt environment count) :=
              OuterCall.reaches_iff_machineAt.mpr
                ⟨count, rfl, fun earlier bound => (lasted earlier bound).1⟩
            have lasts := OuterCall.lasts_of_not_ended reaches (Bool.eq_false_of_not_eq_true ended)
            have marking : OuterCall.Marking 1 (call.machineAt environment count) :=
              OuterCall.marking_machineAt prepared (fun earlier bound => (lasted earlier bound).1)
                fun earlier bound => (lasted earlier bound).2.one_le_classes
            refine ⟨OuterCall.keepsArrays_step reaches prepared.orderly lasts spares marking keeps
              sparing, .inCall begins callee arguments (count + 1) ?_ rfl⟩
            intro _ earlier bound
            rcases Nat.lt_succ_iff_lt_or_eq.mp bound with before | rfl
            · exact lasted earlier before
            · exact ⟨lasts, keeps⟩

/-- The class of arrays stays what and where it is. -/
theorem TamelyLeads.keepsArrays (leads : equipped.TamelyLeads environment machine) :
    machine.state.KeepsArrays ∧ machine.Situated environment := by
  induction leads with
  | refl => exact ⟨keepsArrays_equipped, .idle rfl⟩
  | tail leads tame induction => exact keepsArrays_tame leads induction.2 induction.1 tame

/-! ### Instances that are not there yet -/

/-- An instance that is there stays. -/
theorem Tame.size_le
    {id : Nat}
    (tame : machine.Tame environment next)
    (there : id < machine.state.heap.objects.size) :
    id < next.state.heap.objects.size := by
  have invariant := (State.awaits_escape id environment.settings.limits).invariant
  have admits :
      Admits .compiled fun state : State => id < state.heap.objects.size :=
    fun _ _ supplied => False.elim supplied
  exact (tame.event.keeps invariant admits (holds_of_forall (fun _ => trivial) there)).state

/-- Until an instance is made, nothing mentions it. -/
theorem unaware_tame
    {id : Nat}
    (honest : environment.host.Honest)
    (unaware : machine.Unaware id (State.Awaits id))
    (tame : machine.Tame environment next) :
    id < next.state.heap.objects.size ∨ next.Unaware id (State.Awaits id) := by
  have invariant := State.awaits_invariant id environment.settings.limits
  have escapes := State.awaits_escape id environment.settings.limits
  have isNew := unaware.holds.state.isNew
  cases tame with
  | step =>
      exact unaware.stepUnless invariant honest escapes fun awaits => awaits.each.hides
  | call idle calleeKnown argumentsKnown =>
      exact unaware_start invariant honest escapes unaware.holds.state (calleeKnown id isNew)
        fun argument member => argumentsKnown argument member id isNew
  | request idle spares known targets =>
      refine (perform_keepsUnless invariant escapes unaware.holds.state (known id isNew)
        (targets id isNew)).imp_right fun kept => ?_
      exact ⟨⟨kept, unaware.holds.control, unaware.holds.subRuns⟩, unaware.discreet.control,
        unaware.discreet.subRuns⟩
  | assign idle isOther known assigned =>
      refine .inr ⟨⟨invariant.change unaware.holds.state (.registry ?_), unaware.holds.control,
        unaware.holds.subRuns⟩, unaware.discreet.control, unaware.discreet.subRuns⟩
      exact Registry.Change.of_assign assigned (known id isNew)
  | takeRecords idle =>
      exact .inr ⟨⟨invariant.change unaware.holds.state (.journal {}), unaware.holds.control,
        unaware.holds.subRuns⟩, unaware.discreet.control, unaware.discreet.subRuns⟩

/-- An instance is made, or nothing mentions it. -/
theorem TamelyLeads.unaware
    (honest : environment.host.Honest)
    (leads : equipped.TamelyLeads environment machine)
    (id : Nat) :
    id < machine.state.heap.objects.size ∨ machine.Unaware id (State.Awaits id) := by
  induction leads with
  | refl =>
      have begins : equipped.Holds _ (Value.Lacks id) := Fresh.equipped.each
      refine .inr ⟨⟨⟨begins.state.1, begins.state.2, ?_⟩, begins.control, begins.subRuns⟩,
        trivial, nofun⟩
      exact Nat.zero_le id
  | tail _ tame induction =>
      rcases induction with there | unaware
      · exact .inl (tame.size_le there)
      · exact unaware_tame honest unaware tame

end Machine

end ScriptEngine
