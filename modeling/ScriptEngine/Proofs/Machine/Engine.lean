import ScriptEngine.Engine
import ScriptEngine.Proofs.Machine.Step

/-!
# Histories of an engine

An engine is used by the embedding program through a number of operations.
`Engine.Reached` lists them; whatever the order in which they are used, the state
between two of them is sound.
-/

namespace ScriptEngine

open State

/-! ## Whole calls -/

namespace Machine

variable {environment : Environment} {machine : Machine}

theorem sound_run
    (behaves : environment.host.Behaves)
    (sound : machine.Sound)
    (bound : Nat) :
    (run environment bound machine).Sound := by
  induction bound generalizing machine with
  | zero => exact sound
  | succ bound induction =>
      unfold run
      split
      · exact sound
      · exact induction (sound_step behaves sound)

/-- How a machine that has stopped left its state. -/
theorem sound_outcome
    (sound : machine.Sound)
    (finished : machine.outcome ≠ .unfinished) :
    machine.state.Sound [] ∧
      machine.outcome ≠ .stuck ∧
      ∀ value, machine.outcome = .returned value → value.Refers machine.state.known := by
  rcases machine with ⟨state, control, subRuns⟩
  cases control with
  | script | host => exact absurd rfl finished
  | stuck => cases sound
  | ended outcome =>
      rcases sound with ⟨stateSound, refers⟩
      cases outcome with
      | error error => exact ⟨stateSound, nofun, nofun⟩
      | ok value =>
          refine ⟨stateSound, nofun, ?_⟩
          rintro _ ⟨⟩
          exact refers value rfl

end Machine

/-- A call that ends leaves a sound state and a value that refers to functions. -/
theorem State.Sound.call
    {environment : Environment}
    {state : State}
    {callee : Value}
    {arguments : List Value}
    (behaves : environment.host.Behaves)
    (sound : state.Sound [])
    (calleeRefers : callee.Refers state.known)
    (argumentsRefer : ∀ argument ∈ arguments, argument.Refers state.known)
    (finished : (state.call environment callee arguments).1 ≠ .unfinished) :
    (state.call environment callee arguments).2.Sound [] ∧
      (state.call environment callee arguments).1 ≠ .stuck ∧
      ∀ value,
        (state.call environment callee arguments).1 = .returned value →
          value.Refers (state.call environment callee arguments).2.known :=
  Machine.sound_outcome
    (Machine.sound_run behaves
      (Machine.sound_start_outermost behaves sound calleeRefers argumentsRefer) _)
    finished

/-! ## Classes of the embedding program -/

theorem Heap.Sound.addMethods
    {known : Nat}
    {held : List Nat}
    {heap : Heap}
    (sound : heap.Sound known held)
    (methods : List Native) :
    Table.Refers known (heap.addMethods methods).1 ∧
      (heap.addMethods methods).2.Sound known held ∧
      (heap.addMethods methods).2.functions = heap.functions := by
  unfold Heap.addMethods
  have refers : Table.Refers known ∅ := .empty
  generalize (∅ : Table) = table at refers ⊢
  induction methods generalizing table heap with
  | nil => exact ⟨refers, sound, rfl⟩
  | cons method rest induction =>
      have added : (heap.addNative method).2.Sound known held :=
        ⟨sound.classes, sound.objects, sound.locks⟩
      have inserted : Table.Refers known
          (table.insert method.name (.hostMethod heap.natives.size)) :=
        refers.insert method.name trivial
      exact induction added _ inserted

theorem Heap.Sound.build
    {known : Nat}
    {held : List Nat}
    {heap : Heap}
    (sound : heap.Sound known held)
    {blueprint : Blueprint}
    (refers : ∀ data, blueprint.template = some data → data.Refers known) :
    (heap.build blueprint).1.Refers known ∧
      (heap.build blueprint).2.Sound known held ∧
      (heap.build blueprint).2.functions = heap.functions := by
  rcases sound.addMethods blueprint.methods with ⟨methods, first, same⟩
  rcases first.addMethods blueprint.statics with ⟨statics, second, unchanged⟩
  exact ⟨trivial, second.addClass ⟨methods, statics, refers⟩, unchanged.trans same⟩

theorem State.Sound.build
    {held : List Nat}
    {state : State}
    (sound : state.Sound held)
    {blueprint : Blueprint}
    (refers : ∀ data, blueprint.template = some data → data.Refers state.known) :
    (state.build blueprint).2.Sound held ∧
      (state.build blueprint).1.Refers (state.build blueprint).2.known := by
  rcases sound.heap.build refers with ⟨value, heap, same⟩
  constructor
  · exact sound.withHeap same heap
  · exact value.mono (Nat.le_of_eq (congrArg Array.size same).symm)

/-! ## Engines -/

/-- An engine between two operations. -/
structure Engine.Sound (engine : Engine) : Prop where
  behaves : engine.environment.host.Behaves
  state : engine.state.Sound []

namespace Engine

/-- A registry with nothing but an empty seed is sound. -/
theorem sound_initial (known : Nat) : Registry.initial.Sound known where
  nonempty := Nat.one_pos
  inside := by
    intro name id found
    unfold Registry.find? Registry.initial at found
    rw [Std.TreeMap.getElem?_insert] at found
    split at found
    · cases found
      exact Nat.one_pos
    · simp at found
  modules := by
    intro table member
    rw [Array.mem_singleton.mp member]
    exact ⟨Module.indexed_empty "" true, nofun⟩

/-- A new engine is sound. -/
theorem sound_create
    {environment : Environment}
    (behaves : environment.host.Behaves) :
    (create environment).Sound := by
  have empty : Heap.Sound 0 [] {} := ⟨nofun, nofun, fun id locked => by cases locked⟩
  have array : ∀ data, Blueprint.array.template = some data → data.Refers 0 := by
    rintro _ ⟨⟩
    exact nofun
  have map : ∀ data, Blueprint.map.template = some data → data.Refers 0 := by
    rintro _ ⟨⟩
    exact nofun
  rcases empty.build array with ⟨arrayRefers, first, -⟩
  rcases first.build map with ⟨mapRefers, second, -⟩
  have registry :=
    ((sound_initial 0).defineBuiltin "Array" arrayRefers).defineBuiltin "Map" mapRefers
  exact ⟨behaves, nofun, second, nofun, registry⟩

/-! ## Operations of an engine -/

section Operations

variable {engine : Engine}

/-- A request of the embedding program, as a host routine could make it. -/
def request (engine : Engine) (request : HostRequest) : Value × Engine :=
  let (answer, state) := request.perform engine.state
  (answer, { engine with state })

theorem sound_request
    (sound : engine.Sound)
    (request : HostRequest)
    (refers : request.Refers engine.state.known)
    (keeps : request.heldAfter [] = []) :
    (engine.request request).2.Sound := by
  have performed := (HostRequest.performed sound.state refers).sound
  rw [keeps] at performed
  exact ⟨sound.behaves, performed⟩

theorem sound_reportFailure
    {result : Except EngineError α × Engine}
    (sound : result.2.Sound)
    (moduleName : String) :
    (reportFailure moduleName result).2.Sound := by
  rcases result with ⟨error | value, engine⟩
  · exact ⟨sound.behaves, sound.state⟩
  · exact sound

theorem fst_reportFailure (moduleName : String) (result : Except EngineError α × Engine) :
    (reportFailure moduleName result).1 = result.1 := by
  rcases result with ⟨error | value, engine⟩ <;> rfl

theorem finished_withoutUndefined
    {result : Except EngineError Value × Engine}
    (finished : (withoutUndefined result).1 ≠ .error .unfinished) :
    result.1 ≠ .error .unfinished := by
  intro unfinished
  apply finished
  unfold withoutUndefined
  rw [unfinished]
  rfl

theorem sound_callMachine
    (sound : engine.Sound)
    {callee : Value}
    {arguments : List Value}
    (calleeRefers : callee.Refers engine.state.known)
    (argumentsRefer : ∀ argument ∈ arguments, argument.Refers engine.state.known)
    (finished : (engine.callMachine callee arguments).1 ≠ .error .unfinished) :
    (engine.callMachine callee arguments).2.Sound := by
  have called := sound.state.call sound.behaves calleeRefers argumentsRefer
  rcases engine with ⟨environment, state, reports⟩
  unfold callMachine at finished ⊢
  simp only at finished ⊢
  split at finished <;> rename_i outcome
  all_goals
    simp only [outcome] at called
    first
    | exact absurd rfl finished
    | exact ⟨sound.behaves, (called nofun).1⟩

theorem sound_callValue
    (sound : engine.Sound)
    {callee : Value}
    {arguments : List Value}
    (calleeRefers : callee.Refers engine.state.known)
    (argumentsRefer : ∀ argument ∈ arguments, argument.Refers engine.state.known)
    (finished : (engine.callValue callee arguments).1 ≠ .error .unfinished) :
    (engine.callValue callee arguments).2.Sound := by
  unfold callValue at finished ⊢
  rw [fst_reportFailure] at finished
  apply sound_reportFailure
  exact sound_callMachine sound calleeRefers argumentsRefer (finished_withoutUndefined finished)

/-- What a module variable holds can be called. -/
theorem lookup_refers
    (sound : engine.Sound)
    {moduleName name : String}
    {value : Value}
    (found : engine.lookup? moduleName name = some value) :
    value.Refers engine.state.known := by
  rcases Option.bind_eq_some_iff.mp found with ⟨table, isTable, isValue⟩
  rcases Option.bind_eq_some_iff.mp isTable with ⟨id, -, here⟩
  exact (sound.state.registry.modules table (Array.mem_of_getElem? here)).assignedByName isValue

theorem sound_call
    (sound : engine.Sound)
    {moduleName name : String}
    {arguments : List Value}
    (argumentsRefer : ∀ argument ∈ arguments, argument.Refers engine.state.known)
    (finished : (engine.call moduleName name arguments).1 ≠ .error .unfinished) :
    (engine.call moduleName name arguments).2.Sound := by
  unfold call at finished ⊢
  split
  · rename_i callee found
    simp only [found] at finished
    exact sound_callValue sound (lookup_refers sound found) argumentsRefer finished
  · exact sound_reportFailure sound moduleName

theorem sound_compileIn
    (sound : engine.Sound)
    (mode : CompileMode)
    (moduleName source : String) :
    (engine.compileIn mode moduleName source).2.Sound ∧
      ∀ body,
        (engine.compileIn mode moduleName source).1 = .ok body →
          body < (engine.compileIn mode moduleName source).2.state.known := by
  have added := sound.state.addNamedSource mode moduleName source
  have inside :
      ∀ body,
        (engine.state.addNamedSource mode moduleName source).1 = .ok body →
          body < (engine.state.addNamedSource mode moduleName source).2.known :=
    fun _ isBody => sound.state.lt_of_addNamedSource isBody
  rcases engine with ⟨environment, state, reports⟩
  unfold compileIn
  simp only
  split
  · rename_i body after outcome
    simp only [outcome] at added inside
    refine ⟨⟨sound.behaves, added⟩, ?_⟩
    rintro _ ⟨⟩
    exact inside body rfl
  · rename_i error after outcome
    simp only [outcome] at added
    exact ⟨⟨sound.behaves, added⟩, nofun⟩

theorem sound_interpret
    (sound : engine.Sound)
    {mode : CompileMode}
    {moduleName source : String}
    (finished : (engine.interpret mode moduleName source).1 ≠ .error .unfinished) :
    (engine.interpret mode moduleName source).2.Sound := by
  rcases sound_compileIn sound mode moduleName source with ⟨compiled, inside⟩
  unfold interpret at finished ⊢
  split
  · rename_i body after outcome
    simp only [outcome] at compiled inside finished
    exact sound_callMachine compiled (inside body rfl) nofun finished
  · rename_i error after outcome
    simp only [outcome] at compiled
    exact compiled

theorem sound_runModule
    (sound : engine.Sound)
    {moduleName source : String}
    (finished : (engine.runModule moduleName source).1 ≠ .error .unfinished) :
    (engine.runModule moduleName source).2.Sound := by
  unfold runModule at finished ⊢
  rw [fst_reportFailure] at finished
  apply sound_reportFailure
  exact sound_interpret sound (finished_withoutUndefined finished)

theorem sound_evaluate
    (sound : engine.Sound)
    {source : String}
    (finished : (engine.evaluate source).1 ≠ .error .unfinished) :
    (engine.evaluate source).2.Sound :=
  sound_interpret sound (finished_withoutUndefined finished)

theorem sound_assign
    (sound : engine.Sound)
    {moduleName name : String}
    {value : Value}
    (refers : value.Refers engine.state.known) :
    (engine.assign moduleName name value).2.Sound := by
  unfold assign
  split
  · rename_i registry assigned
    rcases sound.state.registry.assign refers assigned with ⟨registrySound, size⟩
    exact ⟨sound.behaves, sound.state.withRegistry registrySound (Nat.le_of_eq size.symm)⟩
  · exact sound_reportFailure sound moduleName

theorem sound_define
    (sound : engine.Sound)
    {moduleName name : String}
    {value : Value}
    (refers : value.Refers engine.state.known) :
    (engine.define moduleName name value).Sound := by
  unfold define
  split
  · exact sound_request sound (.defineBuiltin name value) refers rfl
  · have defined := sound_request sound (.defineVariable moduleName name value) refers rfl
    split
    · rename_i after outcome
      have same : after = (engine.defineVariable moduleName name value).2 := by
        rw [outcome]
      rw [same]
      exact defined
    · rename_i after outcome
      have same : after = (engine.defineVariable moduleName name value).2 := by
        rw [outcome]
      rw [same]
      exact ⟨defined.behaves, defined.state⟩

theorem sound_registerFunction
    (sound : engine.Sound)
    (moduleName : String)
    (native : Native) :
    (engine.registerFunction moduleName native).Sound := by
  have added := sound_request sound (.addNative native) trivial rfl
  apply sound_define
  · exact added
  · trivial

theorem sound_registerClass
    (sound : engine.Sound)
    (moduleName : String)
    {blueprint : Blueprint}
    (refers : ∀ data, blueprint.template = some data → data.Refers engine.state.known) :
    (engine.registerClass moduleName blueprint).Sound := by
  rcases sound.state.build refers with ⟨built, value⟩
  apply sound_define
  · exact ⟨sound.behaves, built⟩
  · exact value

end Operations

/--
The engines that an embedding program can have.  A call that does not end is not
followed by anything.
-/
inductive Reached (environment : Environment) : Engine → Prop where
  | create : Reached environment (create environment)
  | run
      {engine : Engine}
      (before : Reached environment engine)
      (source : String)
      (finished : (engine.run source).1 ≠ .error .unfinished) :
      Reached environment (engine.run source).2
  | runModule
      {engine : Engine}
      (before : Reached environment engine)
      (moduleName source : String)
      (finished : (engine.runModule moduleName source).1 ≠ .error .unfinished) :
      Reached environment (engine.runModule moduleName source).2
  | evaluate
      {engine : Engine}
      (before : Reached environment engine)
      (source : String)
      (finished : (engine.evaluate source).1 ≠ .error .unfinished) :
      Reached environment (engine.evaluate source).2
  | compile
      {engine : Engine}
      (before : Reached environment engine)
      (mode : CompileMode)
      (moduleName source : String) :
      Reached environment (engine.compileIn mode moduleName source).2
  | call
      {engine : Engine}
      (before : Reached environment engine)
      (moduleName name : String)
      {arguments : List Value}
      (refer : ∀ argument ∈ arguments, argument.Refers engine.state.known)
      (finished : (engine.call moduleName name arguments).1 ≠ .error .unfinished) :
      Reached environment (engine.call moduleName name arguments).2
  | callValue
      {engine : Engine}
      (before : Reached environment engine)
      {callee : Value}
      {arguments : List Value}
      (refers : callee.Refers engine.state.known)
      (refer : ∀ argument ∈ arguments, argument.Refers engine.state.known)
      (finished : (engine.callValue callee arguments).1 ≠ .error .unfinished) :
      Reached environment (engine.callValue callee arguments).2
  | assign
      {engine : Engine}
      (before : Reached environment engine)
      (moduleName name : String)
      {value : Value}
      (refers : value.Refers engine.state.known) :
      Reached environment (engine.assign moduleName name value).2
  | define
      {engine : Engine}
      (before : Reached environment engine)
      (moduleName name : String)
      {value : Value}
      (refers : value.Refers engine.state.known) :
      Reached environment (engine.define moduleName name value)
  | registerFunction
      {engine : Engine}
      (before : Reached environment engine)
      (moduleName : String)
      (native : Native) :
      Reached environment (engine.registerFunction moduleName native)
  | registerClass
      {engine : Engine}
      (before : Reached environment engine)
      (moduleName : String)
      {blueprint : Blueprint}
      (refers : ∀ data, blueprint.template = some data → data.Refers engine.state.known) :
      Reached environment (engine.registerClass moduleName blueprint)
  /-- Any other change that a host routine could ask for, except to keep a container. -/
  | request
      {engine : Engine}
      (before : Reached environment engine)
      {request : HostRequest}
      (refers : request.Refers engine.state.known)
      (keeps : request.heldAfter [] = []) :
      Reached environment (engine.request request).2
  | takeRecords
      {engine : Engine}
      (before : Reached environment engine) :
      Reached environment engine.takeRecords.2.2

/-- Whatever was done with an engine, it is sound. -/
theorem Reached.sound
    {environment : Environment}
    {engine : Engine}
    (behaves : environment.host.Behaves)
    (reached : engine.Reached environment) :
    engine.Sound := by
  induction reached with
  | create => exact sound_create behaves
  | run _ source finished induction => exact sound_runModule induction finished
  | runModule _ moduleName source finished induction => exact sound_runModule induction finished
  | evaluate _ source finished induction => exact sound_evaluate induction finished
  | compile _ mode moduleName source induction =>
      exact (sound_compileIn induction mode moduleName source).1
  | call _ moduleName name refer finished induction => exact sound_call induction refer finished
  | callValue _ refers refer finished induction =>
      exact sound_callValue induction refers refer finished
  | assign _ moduleName name refers induction => exact sound_assign induction refers
  | define _ moduleName name refers induction => exact sound_define induction refers
  | registerFunction _ moduleName native induction =>
      exact sound_registerFunction induction moduleName native
  | registerClass _ moduleName refers induction =>
      exact sound_registerClass induction moduleName refers
  | request _ refers keeps induction => exact sound_request induction _ refers keeps
  | takeRecords _ induction =>
      have state := induction.state
      exact ⟨induction.behaves, state.stack, state.heap, state.functions, state.registry⟩

end Engine

end ScriptEngine
