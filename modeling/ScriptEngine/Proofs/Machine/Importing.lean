import ScriptEngine.Proofs.Compiler.ImportCode
import ScriptEngine.Proofs.Machine.Executing
import ScriptEngine.Proofs.Machine.Tables

/-!
# Imports

An import that is not refused leaves the module loaded, whatever becomes of its body
(`Action.importModule_loads`).  A module that is loaded stays so for as long as the
machine exists, and an import of a loaded module only pushes the module
(`Machine.GivesModule`).  So the body of a module is started at most once.
-/

namespace ScriptEngine

/-! ## Loaded modules -/

/-- A name stands for a module that needs no further loading. -/
structure Registry.Loaded (registry : Registry) (name : String) (id : Nat) : Prop where
  found : registry.find? name = some id
  loaded : (registry.moduleAt id).loaded = true

namespace Registry

variable {registry after : Registry} {name : String} {id : Nat}

/-- A module that is loaded stays so, under the same name and at the same position. -/
theorem Loaded.advances
    (isLoaded : registry.Loaded name id)
    (consistent : registry.Consistent)
    (advances : registry.Advances after) :
    after.Loaded name id where
  found :=
    consistent.find?_of_extends (advances.consistent consistent) advances.extension isLoaded.found
  loaded := (advances.extension.moduleAt (consistent.inside isLoaded.found)).loaded isLoaded.loaded

theorem loaded_markLoaded
    (consistent : registry.Consistent)
    (found : registry.find? name = some id) :
    (registry.modify id Module.markLoaded).Consistent ∧
      (registry.modify id Module.markLoaded).Loaded name id := by
  refine ⟨(Advances.modify registry id .markLoaded).consistent consistent, found, ?_⟩
  rw [moduleAt_modify (consistent.inside found)]
  rfl

end Registry

/-- Whatever changes the state, a loaded module stays loaded. -/
theorem State.loaded_invariant (limits : Limits) (name : String) (id : Nat) :
    State.Invariant limits (fun _ => True) fun state =>
      state.registry.Consistent ∧ state.registry.Loaded name id where
  each := fun {state} _ => .of_forall (fun _ => trivial) state
  change := by
    rintro before after ⟨consistent, isLoaded⟩ change
    exact ⟨change.advances.consistent consistent, isLoaded.advances consistent change.advances⟩

namespace Action

/-- The import of a module is refused: there is no such module, or its text does not compile. -/
def RefusesModule (name : String) (interruption : Interruption) : Prop :=
  interruption = .fault (.moduleNotFound name) ∨
    ∃ error, interruption = .fault (.moduleRefused name error)

/-- Some module has a name and is loaded. -/
def HasLoaded (name : String) (state : State) : Prop :=
  ∃ id, state.registry.Loaded name id

variable {environment : Environment} {state : State} {name : String} {id : Nat}

/-- An action that keeps a module loaded. -/
theorem Keeps.hasLoaded
    {good : α → Prop}
    {action : Action α}
    (keeps :
      action.Keeps (fun state => state.registry.Consistent ∧ state.registry.Loaded name id) good
        state) :
    action.Ensures state (fun _ after => HasLoaded name after)
      fun interruption after => HasLoaded name after ∨ RefusesModule name interruption := by
  unfold Keeps Ensures at keeps
  unfold Ensures
  rcases outcome : action state with ⟨interruption | result, after⟩
  · rw [outcome] at keeps
    exact .inl ⟨id, keeps.2⟩
  · rw [outcome] at keeps
    exact ⟨id, keeps.1.2⟩

/-- An import that is not refused leaves the module loaded. -/
theorem importModule_loads (consistent : state.registry.Consistent) :
    (importModule environment name).Ensures state (fun _ after => HasLoaded name after)
      fun interruption after => HasLoaded name after ∨ RefusesModule name interruption := by
  have invariant := State.loaded_invariant environment.settings.limits name
  unfold importModule
  extract_lets limits
  apply Ensures.bind
  apply Ensures.look
  apply Ensures.bind
  apply Ensures.look
  split
  · rename_i id present
    rcases Option.filter_eq_some_iff.mp present with ⟨found, isLoaded⟩
    exact (pushProceed_keeps (invariant id) ⟨consistent, found, isLoaded⟩ trivial).hasLoaded
  · apply Ensures.bind
    -- Asking for a text does not change the modules.
    have asks :
        (requestSource environment name).Ensures state
          (fun _ asked => asked.registry = state.registry)
          fun interruption after => HasLoaded name after ∨ RefusesModule name interruption := by
      unfold requestSource
      split
      · exact .pure rfl
      · exact .bind (.change (.pure rfl))
    apply asks.mono
    intro source? asked same
    split
    · split
      · rename_i id found
        apply Ensures.bind
        apply Ensures.change
        rw [← same] at consistent found
        exact (pushProceed_keeps (invariant id) (Registry.loaded_markLoaded consistent found)
          trivial).hasLoaded
      · exact .raise (.inr (.inl rfl))
    · rename_i source
      apply Ensures.bind
      apply Ensures.update
      apply Ensures.bind
      apply Ensures.update
      split
      · rename_i error _
        exact .raise (.inr (.inr ⟨error, rfl⟩))
      · rename_i body _
        apply Ensures.bind
        apply Ensures.change
        rw [← same] at consistent
        -- The module is marked before its body is entered.
        have ensured := Registry.Advances.ensure asked.registry name
        have found := Registry.find?_ensure asked.registry name
        generalize asked.registry.ensure name = created at ensured found ⊢
        have added := State.advances_addSource { asked with registry := created.2 } .run created.1
          source
        have known := (State.find?_addSource { asked with registry := created.2 } .run created.1
          source name).trans found
        have compiled := added.consistent (ensured.consistent consistent)
        apply Keeps.hasLoaded
        apply (push_keeps (invariant created.1) (Registry.loaded_markLoaded compiled known)
          trivial).bind
        intro _ pushed kept _
        exact callFunction_keeps (invariant created.1) kept body 0

/-- An import of a module that is loaded pushes the module. -/
theorem importModule_of_loaded (isLoaded : state.registry.Loaded name id) :
    importModule environment name state =
      (do
        push environment.settings.limits (.moduleHandle id name)
        return .proceed : Action Transition) state := by
  unfold importModule
  rw [look_bind, look_bind, isLoaded.found]
  simp only [Option.filter_some, isLoaded.loaded, if_true]

end Action

/-! ## Machines -/

namespace Machine

theorem state_conclude (machine : Machine) (outcome : Except RuntimeError Value) :
    (machine.conclude outcome).state = machine.state := by
  rcases machine with ⟨state, control, _ | ⟨⟨mark, depth, _ | ⟨call, next⟩⟩, outer⟩⟩ <;> rfl

/-- A fault only cuts stack and frames back. -/
theorem state_raise (machine : Machine) (fault : Fault) :
    ∃ stack frames,
      (machine.raise fault).state = { machine.state with stack, frames } ∧
        frames.size ≤ machine.state.frames.size := by
  unfold raise
  split
  · exact ⟨_, _, state_conclude _ _, Nat.le_refl _⟩
  · refine ⟨_, _, state_conclude _ _, ?_⟩
    rw [Array.size_shrink]
    exact Nat.min_le_right _ _

/-- Whatever comes of an action, only stack and frames are cut back. -/
theorem state_settle
    (control : Control)
    (subRuns : List SubRun)
    (result : Except Interruption Transition × State) :
    ∃ stack frames, (settle control subRuns result).state = { result.2 with stack, frames } := by
  have raises (state : State) (fault : Fault) :
      ∃ stack frames,
        (raise { state, control, subRuns } fault).state = { state with stack, frames } :=
    (state_raise _ fault).imp fun _ cut => cut.imp fun _ same => same.1
  unfold settle
  split
  · unfold resume
    split
    · exact ⟨_, _, rfl⟩
    · unfold Action.pop
      split <;> rename_i popped <;> split at popped <;> cases popped
      · exact ⟨_, _, state_conclude _ _⟩
      · exact raises _ _
  · exact ⟨_, _, rfl⟩
  · exact ⟨_, _, state_conclude _ _⟩
  · exact raises _ _
  · exact ⟨_, _, rfl⟩

/-- The modules are those that an action has left. -/
theorem registry_settle
    (control : Control)
    (subRuns : List SubRun)
    (result : Except Interruption Transition × State) :
    (settle control subRuns result).state.registry = result.2.registry := by
  rcases state_settle control subRuns result with ⟨stack, frames, same⟩
  rw [same]

/-- The machine is about to import a module. -/
def Imports (machine : Machine) (name : String) : Prop :=
  ∃ frame index, machine.Executes frame (.importModule index) ∧ frame.HasName index name

/--
The next step pushes a module.  The instruction is passed, and if there is room the
module is on top of the stack; nothing else changes.
-/
def GivesModule (environment : Environment) (machine : Machine) (name : String) (id : Nat) :
    Prop :=
  ∃ frame index,
    machine.Executes frame (.importModule index) ∧
      let fetched := machine.state.fetched environment frame (.importModule index)
      machine.step environment =
        if fetched.stack.size < environment.settings.limits.stackCapacity then
          { machine with
            state := { fetched with stack := fetched.stack.push (.moduleHandle id name) } }
        else
          raise { machine with state := fetched } .stackOverflow

variable {environment : Environment} {machine : Machine} {name : String} {id : Nat}

theorem Executes.import_eq
    {frame : Frame}
    {index : UInt16}
    (executes : machine.Executes frame (.importModule index))
    (named : frame.HasName index name) :
    machine.step environment =
      settle .script machine.subRuns
        (Action.importModule environment name
          (machine.state.fetched environment frame (.importModule index))) := by
  rw [executes.step_eq nofun]
  congr 1
  exact Action.bind_of_ok (Action.name_of_hasName (State.back?_fetched executes.innermost) named) _

/-- An import of a module that is loaded gives the module. -/
theorem Imports.givesModule
    (imports : machine.Imports name)
    (inFrame : machine.InFrame)
    (isLoaded : machine.state.registry.Loaded name id) :
    machine.GivesModule environment name id := by
  rcases imports with ⟨frame, index, executes, named⟩
  refine ⟨frame, index, executes, ?_⟩
  extract_lets fetched
  have stays : fetched.registry.Loaded name id := by
    rw [State.registry_fetched]
    exact isLoaded
  have inside : machine.entryDepth < fetched.frames.size := by
    rw [State.size_frames_fetched]
    exact inFrame executes.control
  rw [executes.import_eq named, Action.importModule_of_loaded stays]
  split
  · rename_i room
    have pushed :
        Action.push environment.settings.limits (.moduleHandle id name) fetched =
          (.ok (), { fetched with stack := fetched.stack.push (.moduleHandle id name) }) :=
      if_pos room
    rw [Action.bind_of_ok pushed, executes.control]
    exact if_pos inside
  · rename_i full
    have overflows :
        Action.push environment.settings.limits (.moduleHandle id name) fetched =
          (.error (.fault .stackOverflow), fetched) :=
      if_neg full
    rw [Action.bind_of_error overflows, executes.control]
    rfl

/-- An import that gives a module asks for nothing, compiles nothing and enters nothing. -/
theorem GivesModule.unchanged
    (gives : machine.GivesModule environment name id) :
    (machine.step environment).state.journal.loads = machine.state.journal.loads ∧
      (machine.step environment).state.heap = machine.state.heap ∧
      (machine.step environment).state.frames.size ≤ machine.state.frames.size := by
  rcases gives with ⟨frame, index, -, same⟩
  rw [same]
  split
  · simp
  · rcases state_raise
      { machine with state := machine.state.fetched environment frame (.importModule index) }
      .stackOverflow with ⟨stack, frames, cut, shorter⟩
    rw [cut]
    simpa using shorter

/-- An import is refused, or the module is loaded from then on. -/
theorem Imports.refused_or_loaded
    (imports : machine.Imports name)
    (consistent : machine.state.registry.Consistent) :
    (∃ state fault,
      Action.RefusesModule name (.fault fault) ∧
        machine.step environment = raise { machine with state } fault) ∨
      ∃ id, (machine.step environment).state.registry.Loaded name id := by
  rcases imports with ⟨frame, index, executes, named⟩
  have fetched :
      (machine.state.fetched environment frame (.importModule index)).registry.Consistent := by
    rw [State.registry_fetched]
    exact consistent
  have loads : (Action.importModule environment name).Ensures _ _ _ :=
    Action.importModule_loads fetched
  rw [executes.import_eq named]
  unfold Action.Ensures at loads
  rcases outcome : Action.importModule environment name
      (machine.state.fetched environment frame (.importModule index)) with
    ⟨interruption | transition, after⟩
  · rw [outcome] at loads
    rcases loads with ⟨id, isLoaded⟩ | refuses
    · refine .inr ⟨id, ?_⟩
      rw [registry_settle]
      exact isLoaded
    · have isFault : ∃ fault, interruption = .fault fault := by
        rcases refuses with rfl | ⟨error, rfl⟩ <;> exact ⟨_, rfl⟩
      rcases isFault with ⟨fault, rfl⟩
      exact .inl ⟨after, fault, refuses, by rw [executes.control]; rfl⟩
  · rw [outcome] at loads
    rcases loads with ⟨id, isLoaded⟩
    refine .inr ⟨id, ?_⟩
    rw [registry_settle]
    exact isLoaded

end Machine

/--
An import of a module is refused, because there is no such module or its text does
not compile; or from then on, whatever becomes of the body of the module, every import
of it gives the same module, without asking for a text and without entering anything.
The further imports that an import declaration makes are of this kind, since they have
the operand of its first one.
-/
theorem module_body_starts_at_most_once
    {environment : Environment}
    {before : Machine}
    {name : String}
    (arises : before.Arises environment .any)
    (imports : before.Imports name) :
    ((∃ state fault,
        Action.RefusesModule name (.fault fault) ∧
          before.step environment = Machine.raise { before with state } fault) ∨
      ∃ id, ∀ after,
        (before.step environment).Leads environment .any after →
        after.Imports name →
          after.GivesModule environment name id ∧
            (after.step environment).state.journal.loads = after.state.journal.loads ∧
            (after.step environment).state.heap = after.state.heap ∧
            (after.step environment).state.frames.size ≤ after.state.frames.size) ∧
      ∀ state,
        Compiler.Guarantees Compiler.Inner.importDeclaration state
          (fun _ written =>
            ∃ index rest,
              written.written =
                  state.written ++ Instruction.encode (.importModule index :: .pop :: rest) ∧
                ∀ other, Instruction.importModule other ∈ rest → other = index)
          fun _ => True := by
  refine ⟨?_, Compiler.importDeclaration_importsOnly⟩
  rcases imports.refused_or_loaded arises.consistent with refused | ⟨id, isLoaded⟩
  · exact .inl refused
  · refine .inr ⟨id, ?_⟩
    intro after leads importsAgain
    have stepped : before.Leads environment .any (before.step environment) :=
      .single (.step (Machine.supplied_of_forall (fun _ => trivial) before))
    have between := arises.leads stepped
    have stays := isLoaded.advances between.consistent leads.advances
    have gives : after.GivesModule environment name id :=
      importsAgain.givesModule (between.leads leads).inFrame stays
    exact ⟨gives, gives.unchanged⟩

/-- A function that imports a module. -/
def importingFunction : Function where
  name := some "f"
  arity := 0
  home := 0
  chunk :=
    { code := (Instruction.encode [.importModule 0, .leave]).toArray
      entries := #[.ofValue (.string "lib")] }

/-- Every module has a text that imports the module `lib`. -/
def cyclicEnvironment : Environment where
  settings := { load := some fun _ => some "import \"lib\";" }
  host := Host.empty

/-- The function has been called and is about to import the module. -/
def firstImport : Machine :=
  .start cyclicEnvironment { heap := { functions := #[importingFunction] } } [] (.function 0) []
    none

/-- The body of the module has been entered and is about to import the module itself. -/
def innerImport : Machine :=
  firstImport.step cyclicEnvironment

theorem firstImport_arises : firstImport.Arises cyclicEnvironment .any := by
  refine ⟨.bare, .bare, ?_⟩
  have written :
      Machine.bare.Event cyclicEnvironment .any
        { Machine.bare with state := { heap := { functions := #[importingFunction] } } } :=
    .write rfl trivial
  have called :
      Machine.Event cyclicEnvironment .any
        { Machine.bare with state := { heap := { functions := #[importingFunction] } } }
        firstImport :=
    .call rfl trivial (List.forall_mem_nil _)
  exact .tail (.single written) called

theorem firstImport_imports : firstImport.Imports "lib" :=
  ⟨firstImport.state.frames.back?.getD default, 0, ⟨rfl, rfl, rfl⟩, rfl⟩

theorem innerImport_runs : innerImport.control = .script := by
  cbv

theorem innerImport_imports : innerImport.Imports "lib" := by
  refine ⟨innerImport.state.frames.back?.getD default, 0, ⟨innerImport_runs, ?_, ?_⟩, ?_⟩
  · cbv
  · cbv
  · unfold Frame.HasName
    cbv

/-- The running body of a module gets the module when it imports itself. -/
theorem innerImport_gives_module :
    firstImport.Imports "lib" ∧
      innerImport.Imports "lib" ∧
      ∃ id, innerImport.GivesModule cyclicEnvironment "lib" id := by
  refine ⟨firstImport_imports, innerImport_imports, ?_⟩
  rcases (module_body_starts_at_most_once firstImport_arises firstImport_imports).1 with
    ⟨state, fault, -, refused⟩ | ⟨id, gives⟩
  · have runs := innerImport_runs
    unfold innerImport at runs
    rw [refused] at runs
    cases runs
  · exact ⟨id, (gives innerImport .refl innerImport_imports).1⟩

end ScriptEngine
