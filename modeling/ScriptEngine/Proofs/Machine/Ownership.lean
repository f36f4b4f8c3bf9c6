import ScriptEngine.Proofs.Machine.Importing
import ScriptEngine.Proofs.Machine.Slots
import ScriptEngine.Proofs.Machine.Framing

/-!
# Variables belong to their module

A step of a script changes a module variable in one way only: a function of the module
assigns it.  Every other action leaves the modules as they are (`Action.SparesModules`),
except that an import can add modules, add variables without a value and mark a module
as loaded (`Registry.Imported`).
-/

namespace ScriptEngine

/-! ## Actions that leave the modules as they are -/

namespace Action

/-- An action that does not touch the modules, also if it is interrupted. -/
abbrev SparesModules (action : Action α) : Prop :=
  action.Spares State.registry

/-- An instruction that neither assigns a module variable nor imports a module. -/
theorem SparesModules.execute
    (environment : Environment)
    (entryDepth : Nat)
    {instruction : Instruction}
    (spares : instruction.changesModules = false) :
    SparesModules (execute environment entryDepth instruction) := by
  cases instruction with
  | makeClass | method | staticMethod =>
      dsimp only [Action.execute]
      infer_instance
  | _ => exact Spares.execute environment entryDepth spares rfl

/-! ## Assignments -/

/-- The modules are the same, or one variable of the module of a function has been assigned. -/
def Assigned (function : Function) (slot : Nat) (before after : Registry) : Prop :=
  after = before ∨
    ∃ value, after = before.modify function.home fun table => table.set slot value

variable {environment : Environment} {state : State} {frame : Frame}

/-- An action that touches neither modules nor frames, followed by one that assigns. -/
theorem Assigned.bind
    {first : Action β}
    {next : β → Action α}
    {function : Function}
    {slot : Nat}
    (spares : ∀ after, (first state).2 = after →
      after.registry = state.registry ∧ after.frames = state.frames)
    (assigns :
      ∀ value after,
        after.registry = state.registry →
        after.frames = state.frames →
          Assigned function slot after.registry (next value after).2.registry) :
    Assigned function slot state.registry ((first >>= next) state).2.registry := by
  rcases spares _ rfl with ⟨registry, frames⟩
  rcases outcome : first state with ⟨interruption | value, after⟩
  · rw [outcome] at registry
    rw [bind_of_error outcome]
    exact .inl registry
  · rw [outcome] at registry frames
    rw [bind_of_ok outcome]
    have assigned := assigns value after registry frames
    rw [registry] at assigned
    exact assigned

theorem setModuleSlot_assigns
    (innermost : state.frames.back? = some frame)
    (slot : Nat)
    (value : Value) :
    Assigned frame.function slot state.registry (setModuleSlot slot value state).2.registry := by
  refine .inr ⟨value, ?_⟩
  unfold setModuleSlot home
  rw [look_bind, innermost]
  rfl

theorem state_andProceed (action : Action Unit) (state : State) :
    (andProceed action state).2 = (action state).2 := by
  unfold andProceed
  rcases outcome : action state with ⟨interruption | ⟨⟩, after⟩
  · rw [bind_of_error outcome]
  · rw [bind_of_ok outcome]
    rfl

theorem state_moduleSlot (slot : Nat) (state : State) : (moduleSlot slot state).2 = state := by
  unfold moduleSlot home
  rw [look_bind, look_bind]
  generalize (state.registry.moduleAt _).assigned? slot = value?
  cases value? <;> rfl

theorem state_peek (distance : Nat) (state : State) : (peek distance state).2 = state := by
  unfold peek
  split <;> rfl

/-- The variable that is assigned belongs to the module of the innermost function. -/
theorem setModule_assigns
    (environment : Environment)
    (innermost : state.frames.back? = some frame)
    (entryDepth : Nat)
    (slot : UInt16) :
    Assigned frame.function slot.toNat state.registry
      (execute environment entryDepth (.setModule slot) state).2.registry := by
  show Assigned _ _ _ (andProceed _ state).2.registry
  rw [state_andProceed]
  apply Assigned.bind
  · rintro after rfl
    rw [state_moduleSlot]
    exact ⟨rfl, rfl⟩
  · intro _ read _ framesRead
    apply Assigned.bind
    · rintro after rfl
      rw [state_peek]
      exact ⟨rfl, rfl⟩
    · intro value peeked _ framesPeeked
      apply setModuleSlot_assigns
      rw [framesPeeked, framesRead, innermost]

theorem defineModule_assigns
    (environment : Environment)
    (innermost : state.frames.back? = some frame)
    (entryDepth : Nat)
    (slot : UInt16) :
    Assigned frame.function slot.toNat state.registry
      (execute environment entryDepth (.defineModule slot) state).2.registry := by
  show Assigned _ _ _ (andProceed _ state).2.registry
  rw [state_andProceed]
  apply Assigned.bind
  · rintro after rfl
    exact ⟨Spares.same state, Spares.same state⟩
  · intro value popped _ framesPopped
    apply setModuleSlot_assigns
    rw [framesPopped, innermost]

end Action

/-! ## Imports -/

/--
Every module that is there stays.  Variables without a value may have been added to it and
it may have been marked as loaded.
-/
def Registry.Imported (before after : Registry) : Prop :=
  ∀ (id : Nat) (table : Module),
    before.modules[id]? = some table →
      ∃ later, after.modules[id]? = some later ∧ table.Declares later ∧ table.Extends later

namespace Registry.Imported

variable {before between after : Registry}

theorem refl (registry : Registry) : registry.Imported registry :=
  fun _ table here => ⟨table, here, ⟨[], by simp⟩, .refl table⟩

theorem trans (first : before.Imported between) (second : between.Imported after) :
    before.Imported after := by
  intro id table here
  rcases first id table here with ⟨middle, there, ⟨names, sameNames, sameValues⟩, extended⟩
  rcases second id middle there with
    ⟨last, present, ⟨moreNames, laterNames, laterValues⟩, further⟩
  refine ⟨last, present, ⟨names ++ moreNames, ?_, ?_⟩, extended.trans further⟩
  · rw [laterNames, sameNames, List.append_assoc]
  · rw [laterValues, sameValues, List.append_assoc, List.length_append, List.replicate_add]

theorem markLoaded (registry : Registry) (id : Nat) :
    registry.Imported (registry.modify id Module.markLoaded) := by
  intro position table here
  simp only [Registry.modify, Array.getElem?_modify, here, Option.map_some]
  split
  · exact ⟨_, rfl, ⟨[], by simp [Module.markLoaded]⟩, (Module.Advances.markLoaded table).extension⟩
  · exact ⟨table, rfl, ⟨[], by simp⟩, .refl table⟩

theorem ensure (registry : Registry) (name : String) :
    registry.Imported (registry.ensure name).2 := by
  unfold Registry.ensure
  split
  · exact .refl registry
  · intro id table here
    have inside : id < registry.modules.size := (Array.getElem?_eq_some_iff.mp here).1
    refine ⟨table, ?_, ⟨[], by simp⟩, .refl table⟩
    rw [Array.getElem?_push_lt inside, ← here, Array.getElem?_eq_getElem inside]

theorem addSource (state : State) (mode : CompileMode) (id : Nat) (source : String) :
    state.registry.Imported (state.addSource mode id source).2.registry := by
  intro position table here
  rcases state.addSource_declares mode id source here with ⟨later, there, declares⟩
  rcases (state.advances_addSource mode id source).extension.modules position table here with
    ⟨same, alsoThere, extends_⟩
  cases alsoThere.symm.trans there
  exact ⟨later, there, declares, extends_⟩

end Registry.Imported

namespace Action

variable {environment : Environment} {state : State} {first : Registry}

/-- What does not touch the modules keeps every property of the modules. -/
theorem SparesModules.keeps
    {holds : Registry → Prop}
    (action : Action α)
    [spares : SparesModules action]
    (kept : holds state.registry) :
    action.Ensures state (fun _ after => holds after.registry) fun _ after =>
      holds after.registry := by
  refine (ensures_after_iff fun after => holds after.registry).mpr ?_
  rw [spares.same state]
  exact kept

/-- What an import keeps: a module is marked or added, and a text is compiled. -/
structure ImportKeeps (holds : Registry → Prop) : Prop where
  markLoaded : ∀ registry id, holds registry → holds (registry.modify id Module.markLoaded)
  ensure : ∀ (registry : Registry) (name : String), holds registry → holds (registry.ensure name).2
  addSource :
    ∀ (state : State) (mode : CompileMode) (id : Nat) (source : String),
      holds state.registry → holds (state.addSource mode id source).2.registry

theorem importModule_keeps_registry
    {holds : Registry → Prop}
    (keeps : ImportKeeps holds)
    (kept : holds state.registry)
    (name : String) :
    (importModule environment name).Ensures state (fun _ after => holds after.registry)
      fun _ after => holds after.registry := by
  unfold importModule
  extract_lets limits
  apply Ensures.bind
  apply Ensures.look
  apply Ensures.bind
  apply Ensures.look
  split
  · exact SparesModules.keeps _ kept
  · apply Ensures.bind
    apply (SparesModules.keeps (Action.requestSource environment name) kept).mono
    · intro source? asked kept
      split
      · split
        · rename_i id _
          apply Ensures.bind
          apply Ensures.change
          exact SparesModules.keeps _ (keeps.markLoaded asked.registry id kept)
        · exact .raise kept
      · rename_i source
        apply Ensures.bind
        apply Ensures.update
        apply Ensures.bind
        apply Ensures.update
        have compiled := keeps.addSource
          { asked with registry := (asked.registry.ensure name).2 } .run
          (asked.registry.ensure name).1 source (keeps.ensure asked.registry name kept)
        split
        · exact .raise compiled
        · apply Ensures.bind
          apply Ensures.change
          exact SparesModules.keeps _ (keeps.markLoaded _ _ compiled)

end Action

/-! ## Steps -/

namespace Machine

variable {environment : Environment} {machine : Machine}

/-- A step of a script that changes the modules carries out an assignment or an import. -/
theorem registry_step (runs : machine.control = .script) :
    (machine.step environment).state.registry = machine.state.registry ∨
      ∃ frame instruction,
        machine.Executes frame instruction ∧ instruction.changesModules = true := by
  by_cases changes :
      ∃ frame instruction,
        machine.Executes frame instruction ∧ instruction.changesModules = true
  · exact .inr changes
  · left
    rcases machine with ⟨state, control, subRuns⟩
    cases runs
    unfold step
    rw [registry_settle]
    refine Action.Spares.step_same environment fun instruction decoded =>
      Action.SparesModules.execute environment _ (Bool.eq_false_of_not_eq_true fun isChange => ?_)
    rcases innermost : state.frames.back? with _ | frame
    · rw [innermost] at decoded
      cases decoded
    · rw [innermost] at decoded
      exact changes ⟨frame, instruction, ⟨rfl, innermost, decoded⟩, isChange⟩

/-- An assignment reaches one variable of the module of the innermost function. -/
theorem Executes.assigned
    {frame : Frame}
    {slot : UInt16}
    (executes :
      machine.Executes frame (.setModule slot) ∨ machine.Executes frame (.defineModule slot)) :
    Action.Assigned frame.function slot.toNat machine.state.registry
      (machine.step environment).state.registry := by
  rcases executes with sets | defines
  · rw [sets.step_eq nofun, registry_settle]
    have innermost :
        (machine.state.fetched environment frame (.setModule slot)).frames.back? = some _ :=
      State.back?_fetched sets.innermost
    have assigned := Action.setModule_assigns environment innermost machine.entryDepth slot
    rw [State.registry_fetched] at assigned
    exact assigned
  · rw [defines.step_eq nofun, registry_settle]
    have innermost :
        (machine.state.fetched environment frame (.defineModule slot)).frames.back? = some _ :=
      State.back?_fetched defines.innermost
    have assigned := Action.defineModule_assigns environment innermost machine.entryDepth slot
    rw [State.registry_fetched] at assigned
    exact assigned

/-- What an import keeps, the step keeps. -/
theorem Executes.keeps_registry
    {frame : Frame}
    {index : UInt16}
    (executes : machine.Executes frame (.importModule index))
    {holds : Registry → Prop}
    (keeps : Action.ImportKeeps holds)
    (kept : holds machine.state.registry) :
    holds (machine.step environment).state.registry := by
  rw [executes.step_eq nofun, registry_settle]
  have imports :
      (Action.execute environment machine.entryDepth (.importModule index)).Ensures
        (machine.state.fetched environment frame (.importModule index))
        (fun _ after => holds after.registry)
        fun _ after => holds after.registry := by
    rw [← State.registry_fetched] at kept
    apply Action.Ensures.bind
    apply (Action.SparesModules.keeps (Action.name index) kept).mono
    intro name named kept
    exact Action.importModule_keeps_registry keeps kept name
  exact (Action.ensures_after_iff fun after => holds after.registry).mp imports

/-- An import adds to the modules at most. -/
theorem Executes.imported
    {frame : Frame}
    {index : UInt16}
    (executes : machine.Executes frame (.importModule index)) :
    machine.state.registry.Imported (machine.step environment).state.registry :=
  executes.keeps_registry
    { markLoaded := fun _ id imported => imported.trans (.markLoaded _ id)
      ensure := fun _ name imported => imported.trans (.ensure _ name)
      addSource := fun state mode id source imported =>
        imported.trans (.addSource state mode id source) }
    (.refl machine.state.registry)

/-- A variable of a module cannot be assigned through a handle. -/
theorem Executes.refusesField
    {frame : Frame}
    {index : UInt16}
    {field moduleName : String}
    {id : Nat}
    {value : Value}
    {below : Array Value}
    (executes : machine.Executes frame (.setProperty index))
    (named : frame.HasName index field)
    (operands : machine.state.stack = (below.push (.moduleHandle id moduleName)).push value) :
    ∃ state,
      machine.step environment = raise { machine with state } .noFields ∧
        state.registry = machine.state.registry := by
  rw [executes.step_eq nofun]
  generalize isFetched :
    machine.state.fetched environment frame (.setProperty index) = fetched
  have registry : fetched.registry = machine.state.registry := by
    rw [← isFetched, State.registry_fetched]
  have stack : fetched.stack = (below.push (.moduleHandle id moduleName)).push value := by
    rw [← isFetched, State.stack_fetched, operands]
  have reads : Action.name index fetched = (.ok field, fetched) := by
    rw [← isFetched]
    exact Action.name_of_hasName (State.back?_fetched executes.innermost) named
  have popsValue :
      Action.pop fetched =
        (.ok value, { fetched with stack := below.push (.moduleHandle id moduleName) }) := by
    unfold Action.pop
    rw [stack]
    simp
  have popsHandle :
      Action.pop { fetched with stack := below.push (.moduleHandle id moduleName) } =
        (.ok (.moduleHandle id moduleName), { fetched with stack := below }) := by
    unfold Action.pop
    simp
  have fails :
      Action.execute environment machine.entryDepth (.setProperty index) fetched =
        (.error (.fault .noFields), { fetched with stack := below }) := by
    apply Action.bind_of_error
    rw [Action.bind_of_ok reads]
    unfold Action.setProperty
    rw [Action.bind_of_ok popsValue, Action.bind_of_ok popsHandle]
    rfl
  refine ⟨{ fetched with stack := below }, ?_, registry⟩
  rw [fails, executes.control]
  rfl

/-! ## Modules are isolated -/

/-- What the next step can make of the module at a position. -/
inductive AltersModule (machine : Machine) (id : Nat) (table : Module) : Module → Prop where
  | same : AltersModule machine id table table
  /-- An import leaves the values and adds variables without a value. -/
  | imported
      {frame : Frame}
      {index : UInt16}
      {later : Module}
      (executes : machine.Executes frame (.importModule index))
      (declares : table.Declares later)
      (extended : table.Extends later) :
      AltersModule machine id table later
  /-- A function of the module assigns one variable. -/
  | assigned
      {frame : Frame}
      {slot : UInt16}
      {value : Value}
      (executes :
        machine.Executes frame (.setModule slot) ∨ machine.Executes frame (.defineModule slot))
      (home : frame.function.home = id) :
      AltersModule machine id table (table.set slot.toNat value)

theorem altersModule_of_assigned
    {frame : Frame}
    {slot : UInt16}
    {id : Nat}
    {table : Module}
    {after : Registry}
    (executes :
      machine.Executes frame (.setModule slot) ∨ machine.Executes frame (.defineModule slot))
    (here : machine.state.registry.modules[id]? = some table)
    (assigned : Action.Assigned frame.function slot.toNat machine.state.registry after) :
    ∃ later, after.modules[id]? = some later ∧ machine.AltersModule id table later := by
  rcases assigned with rfl | ⟨value, rfl⟩
  · exact ⟨table, here, .same⟩
  · simp only [Registry.modify, Array.getElem?_modify, here, Option.map_some]
    split
    · rename_i home
      exact ⟨_, rfl, .assigned executes home⟩
    · exact ⟨table, rfl, .same⟩

theorem altersModule_step
    (runs : machine.control = .script)
    {id : Nat}
    {table : Module}
    (here : machine.state.registry.modules[id]? = some table) :
    ∃ later,
      (machine.step environment).state.registry.modules[id]? = some later ∧
        machine.AltersModule id table later := by
  rcases registry_step runs with same | ⟨frame, instruction, executes, changes⟩
  · rw [same]
    exact ⟨table, here, .same⟩
  · cases instruction with
    | setModule slot =>
        exact altersModule_of_assigned (.inl executes) here (Executes.assigned (.inl executes))
    | defineModule slot =>
        exact altersModule_of_assigned (.inr executes) here (Executes.assigned (.inr executes))
    | importModule index =>
        rcases executes.imported id table here with ⟨later, there, declares, extended⟩
        exact ⟨later, there, .imported executes declares extended⟩
    | _ => cases changes

end Machine

/--
In a step of a script, the variables of the module at position `id` change only if a
function of that module assigns one of them.  An import leaves all values as they are;
it adds variables without a value and marks modules as loaded.  In all other steps, also
in those that fail, a module stays as it is.  The attempt to assign a property of a
module is one of them.

The functions of a text belong to the module in which it is compiled.
-/
theorem variables_change_in_their_module_only
    (environment : Environment)
    {machine : Machine}
    (runs : machine.control = .script) :
    (∀ (id : Nat) (table : Module),
        machine.state.registry.modules[id]? = some table →
          ∃ later,
            (machine.step environment).state.registry.modules[id]? = some later ∧
              machine.AltersModule id table later) ∧
      (∀ (frame : Frame) (index : UInt16) (field moduleName : String) (moduleId : Nat)
          (value : Value) (below : Array Value),
        machine.Executes frame (.setProperty index) →
        frame.HasName index field →
        machine.state.stack = (below.push (.moduleHandle moduleId moduleName)).push value →
          ∃ state,
            machine.step environment = Machine.raise { machine with state } .noFields ∧
              state.registry = machine.state.registry) ∧
      ∀ (mode : CompileMode) (source : String) (table : Module) (home firstFunction : Nat)
          (functions : Array Function),
        (compile mode source table home firstFunction).functions = .ok functions →
          ∀ function ∈ functions, function.home = home := by
  refine ⟨?_, ?_, ?_⟩
  · intro id table here
    exact Machine.altersModule_step runs here
  · intro frame index field moduleName moduleId value below executes named operands
    exact executes.refusesField named operands
  · intro mode source table home firstFunction functions success
    exact home_of_compile success

/-- The main module is altered by a function of its own. -/
theorem definingMachine_alters_main :
    definingMachine.control = .script ∧
      ∃ table later,
        definingMachine.state.registry.modules[1]? = some table ∧
          (definingMachine.step quietEnvironment).state.registry.modules[1]? = some later ∧
          definingMachine.AltersModule 1 table later := by
  have runs : definingMachine.control = .script := by
    cbv
  have inside : 1 < definingMachine.state.registry.modules.size := by
    decide +kernel
  have here := Array.getElem?_eq_getElem inside
  rcases (variables_change_in_their_module_only quietEnvironment runs).1 1 _
    here with ⟨later, there, alters⟩
  exact ⟨runs, _, later, here, there, alters⟩

end ScriptEngine
