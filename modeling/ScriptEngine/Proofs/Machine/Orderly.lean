import ScriptEngine.Proofs.Machine.Engine

/-!
# Orderly states

A state is orderly if its functions come from the compiler and its modules are in
order, so that texts can be compiled into them.  Unlike a sound state it may hold
values that refer to nothing and containers that are kept locked: whatever host
routines do, the state stays orderly.
-/

namespace ScriptEngine

/-- Every value refers to functions up to some number. -/
theorem Value.exists_refers (value : Value) : ∃ known, value.Refers known := by
  induction value with
  | function id => exact ⟨id + 1, Nat.lt_succ_self id⟩
  | boundMethod _ receiver method receiverRefers methodRefers =>
      rcases receiverRefers with ⟨first, receiverRefers⟩
      rcases methodRefers with ⟨second, methodRefers⟩
      exact ⟨max first second, receiverRefers.mono (Nat.le_max_left _ _),
        methodRefers.mono (Nat.le_max_right _ _)⟩
  | _ => exact ⟨0, trivial⟩

/-- A function whose code is typed. -/
def Function.IsTyped (function : Function) : Prop :=
  ∃ slots known, function.WellTyped slots known

theorem Function.IsTyped.shapeAt_zero
    {function : Function}
    (typed : function.IsTyped) :
    function.ShapeAt 0 (.plain (function.arity + 1)) := by
  rcases typed with ⟨slots, known, wellTyped⟩
  exact wellTyped.shapeAt_zero

/-! ## Modules -/

/-- Every name stands for a module that is there, and the tables of the modules are in order. -/
def Registry.Orderly (registry : Registry) : Prop :=
  ∃ known, registry.Sound known

namespace Registry.Orderly

variable {registry : Registry}

/-- A change that keeps all references keeps the order, whatever value it stores. -/
theorem storing
    (orderly : registry.Orderly)
    (value : Value)
    {after : Registry}
    (keeps : ∀ known, registry.Sound known → value.Refers known → after.Sound known) :
    after.Orderly := by
  rcases orderly with ⟨known, sound⟩
  rcases value.exists_refers with ⟨more, refers⟩
  exact ⟨max known more,
    keeps _ (sound.mono (Nat.le_max_left _ _)) (refers.mono (Nat.le_max_right _ _))⟩

theorem setVariable (orderly : registry.Orderly) (id slot : Nat) (value : Value) :
    (registry.modify id fun table => table.set slot value).Orderly :=
  orderly.storing value fun _ sound refers => sound.modify (fun _ old => old.set slot refers) id

theorem markLoaded (orderly : registry.Orderly) (id : Nat) :
    (registry.modify id Module.markLoaded).Orderly := by
  rcases orderly with ⟨known, sound⟩
  exact ⟨known, sound.markLoaded id⟩

theorem ensure (orderly : registry.Orderly) (name : String) :
    (registry.ensure name).2.Orderly ∧
      (registry.ensure name).1 < (registry.ensure name).2.modules.size := by
  rcases orderly with ⟨known, sound⟩
  exact ⟨⟨known, (sound.ensure name).1⟩, (sound.ensure name).2⟩

theorem defineBuiltin (orderly : registry.Orderly) (name : String) (value : Value) :
    (registry.defineBuiltin name value).Orderly :=
  orderly.storing value fun _ sound refers => sound.defineBuiltin name refers

theorem defineVariable (orderly : registry.Orderly) (moduleName name : String) (value : Value) :
    (registry.defineVariable moduleName name value).2.Orderly :=
  orderly.storing value fun _ sound refers => sound.defineVariable moduleName name refers

theorem assign
    (orderly : registry.Orderly)
    {moduleName name : String}
    {value : Value}
    {after : Registry}
    (assigned : registry.assign? moduleName name value = some after) :
    after.Orderly :=
  orderly.storing value fun _ sound refers => (sound.assign refers assigned).1

end Registry.Orderly

/-! ## States -/

theorem Heap.functions_addMethods (heap : Heap) (methods : List Native) :
    (heap.addMethods methods).2.functions = heap.functions := by
  unfold Heap.addMethods
  generalize (∅ : Table) = table
  induction methods generalizing table heap with
  | nil => rfl
  | cons method rest induction => exact induction (heap.addNative method).2 _

theorem Heap.objects_addMethods (heap : Heap) (methods : List Native) :
    (heap.addMethods methods).2.objects = heap.objects := by
  unfold Heap.addMethods
  generalize (∅ : Table) = table
  induction methods generalizing table heap with
  | nil => rfl
  | cons method rest induction => exact induction (heap.addNative method).2 _

/-- The functions come from the compiler and the modules are in order. -/
structure State.Orderly (state : State) : Prop where
  functions : ∀ function ∈ state.heap.functions, function.IsTyped
  registry : state.registry.Orderly

namespace State.Orderly

variable {state : State}

theorem of_same
    (orderly : state.Orderly)
    {after : State}
    (functions : after.heap.functions = state.heap.functions)
    (registry : after.registry = state.registry) :
    after.Orderly := by
  constructor
  · rw [functions]
    exact orderly.functions
  · rw [registry]
    exact orderly.registry

theorem withRegistry
    (orderly : state.Orderly)
    {registry : Registry}
    (isOrderly : registry.Orderly) :
    Orderly { state with registry } :=
  ⟨orderly.functions, isOrderly⟩

/-- A text is compiled into typed functions, or refused. -/
theorem addSource
    (orderly : state.Orderly)
    (mode : CompileMode)
    {moduleId : Nat}
    (inside : moduleId < state.registry.modules.size)
    (source : String) :
    (state.addSource mode moduleId source).2.Orderly := by
  rcases orderly.registry with ⟨known, registry⟩
  have table := registry.moduleAt inside
  have grows := grows_compile mode source (state.registry.moduleAt moduleId) moduleId
    state.heap.functions.size
  have tableSound :
      (compile mode source (state.registry.moduleAt moduleId) moduleId
        state.heap.functions.size).table.Sound known := by
    refine ⟨grows.indexed table.indexed, ?_⟩
    intro value member
    rcases grows.mem_values member with old | rfl
    · exact table.values value old
    · trivial
  have replaced : (state.registry.replace moduleId _).Orderly :=
    ⟨known, registry.replace tableSound moduleId⟩
  unfold State.addSource
  simp only
  split
  · exact orderly.withRegistry replaced
  · rename_i functions success
    refine ⟨?_, replaced⟩
    intro function member
    rcases Array.mem_append.mp member with old | new
    · exact orderly.functions function old
    · exact ⟨_, _, (compile_wellTyped table.indexed success).functions function new⟩

theorem addNamedSource
    (orderly : state.Orderly)
    (mode : CompileMode)
    (moduleName source : String) :
    (state.addNamedSource mode moduleName source).2.Orderly := by
  rcases orderly.registry.ensure moduleName with ⟨ensured, inside⟩
  have prepared := orderly.withRegistry (ensured.markLoaded (state.registry.ensure moduleName).1)
  refine prepared.addSource mode ?_ source
  rw [Registry.size_modify]
  exact inside

/-- Whatever a host routine asks for, the state stays orderly. -/
theorem perform (orderly : state.Orderly) (request : HostRequest) :
    (request.perform state).2.Orderly := by
  cases request with
  | defineBuiltin name value =>
      exact orderly.withRegistry (orderly.registry.defineBuiltin name value)
  | defineVariable moduleName name value =>
      exact orderly.withRegistry (orderly.registry.defineVariable moduleName name value)
  | ensureModule moduleName => exact orderly.withRegistry (orderly.registry.ensure moduleName).1
  | compile mode moduleName source =>
      have added := orderly.addNamedSource mode moduleName source
      simp only [HostRequest.perform]
      split
      · rename_i outcome
        rw [outcome] at added
        exact added
      · rename_i outcome
        rw [outcome] at added
        exact added
  | _ => exact orderly.of_same rfl rfl

theorem build (orderly : state.Orderly) (blueprint : Blueprint) :
    (state.build blueprint).2.Orderly := by
  have first := state.heap.functions_addMethods blueprint.methods
  have second := (state.heap.addMethods blueprint.methods).2.functions_addMethods blueprint.statics
  exact orderly.of_same (second.trans first) rfl

end State.Orderly

/-- A request touches neither the stack nor the frames. -/
theorem HostRequest.frames_perform (request : HostRequest) (state : State) :
    (request.perform state).2.stack = state.stack ∧
      (request.perform state).2.frames = state.frames := by
  cases request with
  | compile mode moduleName source =>
      have unchanged := State.frames_addNamedSource state mode moduleName source
      simp only [HostRequest.perform]
      split
      · rename_i outcome
        rw [outcome] at unchanged
        exact unchanged
      · rename_i outcome
        rw [outcome] at unchanged
        exact unchanged
  | _ => exact ⟨rfl, rfl⟩

end ScriptEngine
