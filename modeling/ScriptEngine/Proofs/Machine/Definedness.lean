import ScriptEngine.Proofs.Machine.Isolation
import ScriptEngine.Proofs.Machine.Loading

/-!
# Unassigned variables

The mark of an unassigned variable stands in module variables only.  Nothing that the
machine computes with is or contains the mark, unless it was supplied from outside
(`State.each_invariant`): what is compiled into a function are literals and functions,
and a variable without a value cannot be read.
-/

namespace ScriptEngine

open Value.Pervasive (plain)

/-- A value is not the mark of an unassigned variable, and its parts are not either. -/
def Value.Defined : Value → Prop
  | .undefined => False
  | .boundMethod _ receiver method => receiver.Defined ∧ method.Defined
  | _ => True

instance : Value.Inherited Value.Defined where
  plain := by
    intro value isPlain
    cases value with
    | undefined | boundMethod => cases isPlain
    | _ => trivial
  object := fun _ => trivial
  function := fun _ => trivial
  boundMethod := fun _ _ _ => Iff.rfl

/-! ## Variables with a property -/

namespace Module.Each

variable {good : Value → Prop} {table : Module}

theorem declare (each : table.Each good) (name : String) : (table.declare name).2.Each good := by
  rcases declare_cases table name with ⟨_, -, same⟩ | ⟨-, -, appended⟩ | ⟨-, -, same⟩
  · rw [same]
    exact each
  · rw [appended]
    exact forall_mem_push each (.inl rfl)
  · rw [same]
    exact each

theorem of_grows
    {after : Module}
    (each : table.Each good)
    (grows : table.Grows after) :
    after.Each good := by
  intro value member
  rcases grows.mem_values member with old | new
  · exact each value old
  · exact .inl new

theorem set
    (each : table.Each good)
    (slot : Nat)
    {value : Value}
    (isGood : good value) :
    (table.set slot value).Each good :=
  forall_mem_setIfInBounds each (.inr isGood) slot

theorem define
    (each : table.Each good)
    (name : String)
    {value : Value}
    (isGood : good value) :
    (Registry.define table name value).2.Each good := by
  have declared := each.declare name
  unfold Registry.define
  split
  · rename_i outcome
    rw [outcome] at declared
    exact declared
  · rename_i slot after outcome
    rw [outcome] at declared
    exact declared.set slot isGood

theorem offer
    (each : table.Each good)
    (name : String)
    {value : Value}
    (isGood : good value) :
    (Registry.offer table name value).Each good := by
  have declared := each.declare name
  unfold Registry.offer
  split
  · rename_i outcome
    rw [outcome] at declared
    exact declared
  · rename_i slot after outcome
    rw [outcome] at declared
    split
    · exact declared.set slot isGood
    · exact declared

end Module.Each

/-- All changes of the modules keep a property that the new values have. -/
theorem Registry.Change.each
    {good : Value → Prop}
    {before after : Registry}
    (change : Change good before after)
    (each : ∀ table ∈ before.modules, table.Each good) :
    ∀ table ∈ after.modules, table.Each good := by
  have unnamed : (default : Module).Each good := fun value member =>
    absurd member Chunk.not_mem_constants_empty
  -- A module that is created has the variables of the seed.
  have ensured : ∀ name, ∀ table ∈ (before.ensure name).2.modules, table.Each good := by
    intro name
    unfold Registry.ensure
    split
    · exact each
    · apply forall_mem_push each
      exact holds_getD each unnamed builtin
  cases change with
  | assign id slot isGood =>
      exact forall_mem_modify each (fun _ table => table.set slot isGood) id
  | markLoaded id =>
      have marked : ∀ table : Module, table.Each good → table.markLoaded.Each good :=
        fun _ same => same
      exact forall_mem_modify each marked id
  | ensure name => exact ensured name
  | defineBuiltin name isGood =>
      intro table member
      rcases Array.mem_iff_getElem?.mp member with ⟨id, here⟩
      rw [Registry.defineBuiltin, Array.getElem?_mapIdx] at here
      rcases Option.map_eq_some_iff.mp here with ⟨old, there, rfl⟩
      have oldEach := each old (Array.mem_of_getElem? there)
      split
      · exact oldEach.define name isGood
      · exact oldEach.offer name isGood
  | defineVariable moduleName name isGood =>
      apply forall_mem_setIfInBounds (ensured moduleName)
      exact (holds_getD (ensured moduleName) unnamed _).define name isGood

/-! ## States with a property -/

section Partwise

variable
  {good : Value → Prop}
  [partwise : Value.Partwise good]
  {known : Nat}
  (new : ∀ id, known ≤ id → good (.function id))

include new

/-- What a text is compiled to contains literals and functions of the text only. -/
theorem Function.each_of_compile
    {mode : CompileMode}
    {source : String}
    {table : Module}
    {home firstFunction : Nat}
    {functions : Array Function}
    (indexed : table.Indexed)
    (bound : known ≤ firstFunction)
    (success : (compile mode source table home firstFunction).functions = .ok functions) :
    ∀ function ∈ functions, function.Each good := by
  intro function member value isConstant
  rcases ((compile_wellTyped indexed success).functions function member).constants value
    isConstant with literal | ⟨id, rfl, first, -⟩
  · cases value with
    | number | string => exact plain _ rfl
    | _ => cases literal
  · exact new id (Nat.le_trans bound first)

theorem State.Each.addSource
    {state : State}
    (each : state.Each good)
    (bound : known ≤ state.heap.functions.size)
    (consistent : state.registry.Consistent)
    (mode : CompileMode)
    {id : Nat}
    (inside : id < state.registry.modules.size)
    (source : String) :
    (state.addSource mode id source).2.Each good := by
  have indexed := (consistent.moduleAt inside).toIndexed
  have table := (each.values id).of_grows
    (grows_compile mode source (state.registry.moduleAt id) id state.heap.functions.size)
  have modules := forall_mem_setIfInBounds each.modules table id
  unfold State.addSource
  simp only
  split
  · exact ⟨each.stack, each.frames, each.functions, each.heap, modules⟩
  · rename_i functions success
    refine ⟨each.stack, each.frames, ?_, ⟨each.heap.classes, each.heap.objects⟩, modules⟩
    intro function member
    rcases Array.mem_append.mp member with old | added
    · exact each.functions function old
    · exact Function.each_of_compile new indexed bound success function added

/-- A property that new functions have is kept by all changes. -/
theorem State.each_invariant_of_known (limits : Limits) :
    State.Invariant limits good fun state =>
      state.Each good ∧ state.registry.Consistent ∧ known ≤ state.heap.functions.size where
  each := And.left
  change := by
    rintro before after ⟨each, consistent, bound⟩ change
    refine ⟨?_, change.advances.consistent consistent, ?_⟩
    · cases change with
      | stack stored bounded =>
          refine ⟨?_, each.frames, each.functions, each.heap, each.modules⟩
          intro value member
          rcases stored value member with old | isGood
          · exact each.stack value old
          · exact isGood
      | frames active bounded =>
          refine ⟨each.stack, ?_, each.functions, each.heap, each.modules⟩
          intro frame member
          rcases active frame member with ⟨other, old, same⟩ | ⟨id, same⟩
          · rw [same]
            exact each.frames other old
          · rw [same]
            exact holds_getD each.functions
              (fun value member => absurd member Chunk.not_mem_constants_empty) id
      | heap functions stored =>
          refine ⟨each.stack, each.frames, ?_, stored each.heap, each.modules⟩
          rw [functions]
          exact each.functions
      | registry change =>
          exact ⟨each.stack, each.frames, each.functions, each.heap, change.each each.modules⟩
      | compile mode found source =>
          exact each.addSource new bound consistent mode (consistent.inside found) source
      | journal =>
          exact ⟨each.stack, each.frames, each.functions, each.heap, each.modules⟩
    · cases change with
      | heap functions stored =>
          rw [functions]
          exact bound
      | compile mode found source =>
          exact Nat.le_trans bound (State.extends_addSource before mode _ source).functions
      | stack | frames | registry | journal => exact bound

omit partwise in
/-- The body of a text that is compiled now is new. -/
theorem State.compiles_of_known :
    State.Compiles good fun state =>
      state.Each good ∧ state.registry.Consistent ∧ known ≤ state.heap.functions.size where
  body := by
    rintro state mode id body source ⟨-, consistent, bound⟩ added
    have indexed : (state.registry.moduleAt id).Indexed := by
      rcases Nat.lt_or_ge id state.registry.modules.size with inside | outside
      · exact (consistent.moduleAt inside).toIndexed
      · unfold Registry.moduleAt
        rw [Array.getD_eq_getD_getElem?, Array.getElem?_eq_none outside]
        exact Module.indexed_empty "" false
    unfold State.addSource at added
    simp only at added
    split at added
    · cases added
    · rename_i functions success
      have nonempty := (compile_wellTyped indexed success).nonempty
      cases added
      apply new
      simp only [Array.size_append]
      omega

end Partwise

/-- A property of everything in a state that all functions have is kept by all changes. -/
theorem State.each_invariant_of_functions
    {good : Value → Prop}
    [partwise : Value.Partwise good]
    (functions : ∀ id, good (.function id))
    (limits : Limits) :
    State.Invariant limits good fun state =>
      state.Each good ∧ state.registry.Consistent where
  each := And.left
  change := by
    rintro before after ⟨each, consistent⟩ change
    have supplied : ∀ id, 0 ≤ id → good (.function id) := fun id _ => functions id
    have kept :=
      (State.each_invariant_of_known supplied limits).change ⟨each, consistent, Nat.zero_le _⟩
        change
    exact ⟨kept.1, kept.2.1⟩

/-- An inherited property of everything in a state is kept by all changes. -/
theorem State.each_invariant
    {good : Value → Prop}
    [inherited : Value.Inherited good]
    (limits : Limits) :
    State.Invariant limits good fun state =>
      state.Each good ∧ state.registry.Consistent :=
  State.each_invariant_of_functions inherited.function limits

/-! ### The beginning -/

section Beginning

variable {good : Value → Prop} [partwise : Value.Partwise good]

theorem Heap.Each.addMethods
    {heap : Heap}
    (each : heap.Each good)
    (methods : List Native) :
    Table.Each good (heap.addMethods methods).1 ∧
      (heap.addMethods methods).2.Each good ∧
      (heap.addMethods methods).2.functions = heap.functions := by
  unfold Heap.addMethods
  have empty : Table.Each good ∅ := .empty
  generalize (∅ : Table) = table at empty ⊢
  induction methods generalizing table heap with
  | nil => exact ⟨empty, each, rfl⟩
  | cons method rest induction =>
      have added : (heap.addNative method).2.Each good := ⟨each.classes, each.objects⟩
      exact induction added _ (empty.insert method.name (plain _ rfl))

theorem State.Each.build
    {state : State}
    (each : state.Each good)
    {blueprint : Blueprint}
    (template : ∀ data, blueprint.template = some data → data.Each good) :
    (state.build blueprint).2.Each good ∧ good (state.build blueprint).1 := by
  rcases each.heap.addMethods blueprint.methods with ⟨methods, first, same⟩
  rcases first.addMethods blueprint.statics with ⟨statics, second, unchanged⟩
  refine ⟨⟨each.stack, each.frames, ?_, second.addClass ⟨methods, statics, template⟩,
    each.modules⟩, plain _ rfl⟩
  intro function member
  change function ∈ Heap.functions _ at member
  have functions := unchanged.trans same
  apply each.functions
  rw [← functions]
  exact member

theorem State.Each.defineBuiltinClass
    {state : State}
    (each : state.Each good)
    {blueprint : Blueprint}
    (template : ∀ data, blueprint.template = some data → data.Each good) :
    (state.defineBuiltinClass blueprint).Each good := by
  rcases each.build template with ⟨built, isGood⟩
  exact ⟨built.stack, built.frames, built.functions, built.heap,
    (Registry.Change.defineBuiltin blueprint.name isGood).each built.modules⟩

/-- In the beginning there is nothing but plain values. -/
theorem Machine.Fresh.each
    {machine : Machine}
    (fresh : machine.Fresh) :
    machine.Holds (fun state => state.Each good ∧ state.registry.Consistent) good := by
  have empty : State.Each good {} := by
    refine ⟨nofun, nofun, nofun, ⟨nofun, nofun⟩, ?_⟩
    intro table member
    rw [Array.mem_singleton.mp member]
    exact nofun
  have ended : OutcomeEach good (.ok .null : Except RuntimeError Value) := by
    rintro _ ⟨⟩
    exact plain .null rfl
  have consistent := fresh.consistent
  cases fresh with
  | bare => exact ⟨⟨empty, consistent⟩, ended, nofun⟩
  | equipped =>
      have array : (State.defineBuiltinClass {} .array).Each good := by
        apply empty.defineBuiltinClass
        rintro _ ⟨⟩
        exact nofun
      have equipped : (State.installBuiltins {}).Each good := by
        apply array.defineBuiltinClass
        rintro _ ⟨⟩
        exact nofun
      exact ⟨⟨equipped, consistent⟩, ended, nofun⟩

end Beginning

/-- Values that are not the mark, and functions written by hand without it. -/
def Supply.defined : Supply where
  value := Value.Defined
  function := Function.Each Value.Defined

instance : Value.Inherited Supply.defined.value :=
  inferInstanceAs (Value.Inherited Value.Defined)

/-! ## Reading unassigned variables -/

/-- A variable of a module that is there has no value. -/
structure Registry.Unassigned (registry : Registry) (id slot : Nat) (name : String) : Prop where
  content : (registry.moduleAt id).get? slot = some .undefined
  name : (registry.moduleAt id).variableName? slot = some name

namespace Registry.Unassigned

variable {registry : Registry} {id slot : Nat} {name : String}

theorem assigned? (unassigned : registry.Unassigned id slot name) :
    (registry.moduleAt id).assigned? slot = none := by
  unfold Module.assigned?
  rw [unassigned.content]
  rfl

/-- A slot with a content is one of a module that is there. -/
theorem inside_of_content
    {value : Value}
    (content : (registry.moduleAt id).get? slot = some value) :
    id < registry.modules.size := by
  by_contra outside
  have within : slot < (registry.moduleAt id).values.size :=
    (Array.getElem?_eq_some_iff.mp content).1
  unfold Registry.moduleAt at within
  rw [Array.getD_eq_getD_getElem?, Array.getElem?_eq_none (Nat.le_of_not_lt outside)] at within
  exact absurd within (Nat.not_lt_zero slot)

/-- Every slot has a name. -/
theorem of_content
    (consistent : registry.Consistent)
    (content : (registry.moduleAt id).get? slot = some .undefined) :
    ∃ name, registry.Unassigned id slot name := by
  have within : slot < (registry.moduleAt id).values.size :=
    (Array.getElem?_eq_some_iff.mp content).1
  have counted := (consistent.moduleAt (inside_of_content content)).counted
  have named : slot < (registry.moduleAt id).names.size := by
    rw [counted]
    exact within
  exact ⟨_, content, Array.getElem?_eq_getElem named⟩

theorem name_eq
    (unassigned : registry.Unassigned id slot name)
    (consistent : registry.Consistent)
    {other : String}
    (found : (registry.moduleAt id).find? other = some slot) :
    other = name := by
  have table := consistent.moduleAt (inside_of_content unassigned.content)
  have named := table.find?_eq_some_iff.mp found
  rw [unassigned.name] at named
  exact (Option.some.inj named).symm

end Registry.Unassigned

namespace Action

variable {environment : Environment} {state : State} {frame : Frame} {name : String}

theorem moduleSlot_of_unassigned
    (innermost : state.frames.back? = some frame)
    {slot : Nat}
    (unassigned : state.registry.Unassigned frame.function.home slot name) :
    moduleSlot slot state = (.error (.fault (.undefinedVariable name)), state) := by
  unfold moduleSlot home
  rw [look_bind, look_bind, innermost, Option.getD_some, unassigned.assigned?]
  show raiseUndefined slot state = _
  unfold raiseUndefined home
  rw [look_bind, look_bind, innermost, Option.getD_some, unassigned.name]
  rfl

theorem moduleVariable_of_unassigned
    {id slot : Nat}
    (unassigned : state.registry.Unassigned id slot name)
    (found : (state.registry.moduleAt id).find? name = some slot) :
    moduleVariable id name state = (.error (.fault (.undefinedVariable name)), state) := by
  unfold moduleVariable Module.assignedByName?
  rw [look_bind, found, Option.bind_some, unassigned.assigned?]
  rfl

end Action

namespace Machine

variable {environment : Environment} {first machine : Machine}

/-- The next step reads a variable of a module. -/
inductive Reads (machine : Machine) (id slot : Nat) : Prop where
  /-- A function of the module reads the variable, or looks whether it can be assigned. -/
  | slot
      {frame : Frame}
      {operand : UInt16}
      (executes :
        machine.Executes frame (.getModule operand) ∨ machine.Executes frame (.setModule operand))
      (home : frame.function.home = id)
      (same : operand.toNat = slot)
  /-- The variable is read as a property of the module. -/
  | property
      {frame : Frame}
      {index : UInt16}
      {name moduleName : String}
      {below : Array Value}
      (executes : machine.Executes frame (.getProperty index))
      (named : frame.HasName index name)
      (found : (machine.state.registry.moduleAt id).find? name = some slot)
      (receiver : machine.state.stack = below.push (.moduleHandle id moduleName))
  /-- The variable is called as a method of the module. -/
  | method
      {frame : Frame}
      {index : UInt16}
      {argumentCount : UInt8}
      {name moduleName : String}
      {below arguments : Array Value}
      (executes : machine.Executes frame (.invoke index argumentCount))
      (named : frame.HasName index name)
      (found : (machine.state.registry.moduleAt id).find? name = some slot)
      (receiver :
        machine.state.stack = below.push (.moduleHandle id moduleName) ++ arguments)
      (counted : arguments.size = argumentCount.toNat)

/-- The next step fails and leaves the modules as they are. -/
def Refuses (environment : Environment) (machine : Machine) (fault : Fault) : Prop :=
  machine.FailsWith environment fault ∧
    (machine.step environment).state.registry = machine.state.registry

/-- An instruction that fails without touching the modules. -/
theorem Executes.refuses
    {frame : Frame}
    {instruction : Instruction}
    {fault : Fault}
    (executes : machine.Executes frame instruction)
    (named :
      ∀ index argumentCount,
        instruction = .invoke index argumentCount → ∃ name, frame.HasName index name)
    (fails :
      ∀ fetched : State,
        fetched.frames.back? =
            some { frame with offset := frame.offset + instruction.length } →
        fetched.stack = machine.state.stack →
        fetched.registry = machine.state.registry →
          ∃ after,
            Action.execute environment machine.entryDepth instruction fetched =
                (.error (.fault fault), after) ∧
              after.registry = machine.state.registry) :
    machine.Refuses environment fault := by
  rcases fails (machine.state.fetched environment frame instruction)
    (State.back?_fetched executes.innermost) State.stack_fetched State.registry_fetched with
    ⟨after, outcome, same⟩
  have stepped :
      machine.step environment =
        settle .script machine.subRuns
          (Action.execute environment machine.entryDepth instruction
            (machine.state.fetched environment frame instruction)) :=
    executes.step_eq named
  rw [outcome] at stepped
  refine ⟨⟨after, ?_⟩, ?_⟩
  · rw [stepped, executes.control]
    rfl
  · rw [stepped, registry_settle]
    exact same

/-- A variable without a value cannot be read. -/
theorem Reads.refuses
    {id slot : Nat}
    {name : String}
    (reads : machine.Reads id slot)
    (consistent : machine.state.registry.Consistent)
    (unassigned : machine.state.registry.Unassigned id slot name) :
    machine.Refuses environment (.undefinedVariable name) := by
  cases reads with
  | @slot frame operand executes home same =>
      -- Both instructions look at the variable first.
      have looks :
          ∀ fetched : State,
            (∃ offset, fetched.frames.back? = some { frame with offset }) →
            fetched.registry = machine.state.registry →
              Action.moduleSlot operand.toNat fetched =
                (.error (.fault (.undefinedVariable name)), fetched) := by
        rintro fetched ⟨offset, innermost⟩ registry
        apply Action.moduleSlot_of_unassigned innermost
        rw [registry, home, same]
        exact unassigned
      rcases executes with gets | sets
      · apply gets.refuses nofun
        intro fetched innermost _ registry
        have fails := looks fetched ⟨_, innermost⟩ registry
        exact ⟨fetched, Action.bind_of_error (Action.bind_of_error fails _) _, registry⟩
      · apply sets.refuses nofun
        intro fetched innermost _ registry
        have fails := looks fetched ⟨_, innermost⟩ registry
        exact ⟨fetched, Action.bind_of_error (Action.bind_of_error fails _) _, registry⟩
  | @property frame index other moduleName below executes named found receiver =>
      cases unassigned.name_eq consistent found
      apply executes.refuses nofun
      intro fetched innermost stack registry
      have reads := Action.name_of_hasName innermost named
      have pops :
          Action.pop fetched =
            (.ok (.moduleHandle id moduleName), { fetched with stack := below }) := by
        unfold Action.pop
        rw [stack, receiver]
        simp
      have fails :
          Action.moduleVariable id name { fetched with stack := below } =
            (.error (.fault (.undefinedVariable name)), { fetched with stack := below }) := by
        rw [← registry] at unassigned found
        exact Action.moduleVariable_of_unassigned unassigned found
      refine ⟨{ fetched with stack := below }, ?_, registry⟩
      apply Action.bind_of_error
      rw [Action.bind_of_ok reads, Action.bind_of_ok pops]
      exact Action.bind_of_error fails _
  | @method frame index argumentCount other moduleName below arguments executes named found
      receiver counted =>
      cases unassigned.name_eq consistent found
      apply executes.refuses
      · rintro _ _ ⟨⟩
        exact ⟨name, named⟩
      intro fetched innermost stack registry
      have reads := Action.name_of_hasName innermost named
      have peeks :
          Action.peek argumentCount.toNat fetched =
            (.ok (.moduleHandle id moduleName), fetched) := by
        have position : below.size + 1 + arguments.size - 1 - arguments.size = below.size := by
          omega
        unfold Action.peek
        rw [stack, receiver, ← counted, Array.size_append, Array.size_push,
          if_pos (by omega), position, Array.getD_eq_getD_getElem?,
          Array.getElem?_append_left (by simp), Array.getElem?_push_size]
        rfl
      have fails :
          Action.moduleVariable id name fetched =
            (.error (.fault (.undefinedVariable name)), fetched) := by
        rw [← registry] at unassigned found
        exact Action.moduleVariable_of_unassigned unassigned found
      refine ⟨fetched, ?_, registry⟩
      show (Action.name index >>= _) fetched = _
      rw [Action.bind_of_ok reads]
      unfold Action.invoke Action.calleeSlot
      rw [Action.bind_of_ok peeks, Action.look_bind]
      exact Action.bind_of_error fails _

/-! ## Histories without the mark -/

/-- The mark does not leave the module variables. -/
theorem Leads.defined
    (fresh : first.Fresh)
    (leads : first.Leads environment .defined machine) :
    machine.Holds (fun state => state.Each Value.Defined ∧ state.registry.Consistent)
      Value.Defined := by
  apply leads.keeps (State.each_invariant _)
  · rintro state function isDefined ⟨each, consistent⟩
    exact ⟨⟨each.stack, each.frames, forall_mem_push each.functions isDefined,
      ⟨each.heap.classes, each.heap.objects⟩, each.modules⟩, consistent⟩
  · exact fresh.each

/-- A host routine is begun with a receiver and arguments that are not the mark. -/
def BeginsDefined (environment : Environment) (program : HostProgram) : Prop :=
  ∃ key receiver arguments,
    program = environment.host key receiver arguments ∧
      Value.Defined receiver ∧
      ∀ argument ∈ arguments, Value.Defined argument

/-- Whoever keeps the mark out of the state keeps it out of the calls of host routines. -/
theorem beginsDefined_of_keeps
    {holds : State → Prop}
    {state after : State}
    {action : Action Transition}
    {call : HostCall}
    {program : HostProgram}
    (keeps : action.Keeps holds (Transition.Hands environment Value.Defined) state)
    (begins : action state = (.ok (.enterHost call program), after)) :
    BeginsDefined environment program := by
  unfold Action.Keeps Action.Ensures at keeps
  rw [begins] at keeps
  exact keeps.2.2

end Machine

/--
As long as the embedding program neither hands over nor returns the mark of an unassigned
variable, nothing but module variables holds it: not the stack, from which operands and
arguments are taken, no constant, no class, no instance, no array and no map, and no part of
a bound method.  Host routines do not get it either.

A variable that holds the mark has a name, and every attempt to read it fails with that
name and leaves the modules as they are.  An import of variables reads them as properties of
the module.
-/
theorem undefined_stays_in_module_variables
    {environment : Environment}
    {first machine : Machine}
    (fresh : first.Fresh)
    (leads : first.Leads environment .defined machine) :
    machine.state.Each Value.Defined ∧
      (∀ outcome value,
        machine.control = .ended outcome → outcome = .ok value → value.Defined) ∧
      (∀ action subRuns call program after,
        machine.Supplied Value.Defined →
        machine.nextAction? environment = some (action, subRuns) →
        action machine.state = (.ok (.enterHost call program), after) →
          Machine.BeginsDefined environment program) ∧
      (∀ depth callee arguments call program after,
        callee.Defined →
        (∀ argument ∈ arguments, Value.Defined argument) →
        Machine.enter environment depth callee arguments machine.state =
            (.ok (.enterHost call program), after) →
          Machine.BeginsDefined environment program) ∧
      (∀ id slot,
        (machine.state.registry.moduleAt id).get? slot = some .undefined →
          ∃ name,
            (machine.state.registry.moduleAt id).variableName? slot = some name ∧
              (machine.Reads id slot →
                machine.Refuses environment (.undefinedVariable name))) ∧
      ∀ state moduleIndex,
        Compiler.Guarantees (Compiler.Inner.importedVariable moduleIndex) state
          (fun _ after =>
            ∃ index rest,
              after.written =
                  state.written ++
                    Instruction.encode (.importModule moduleIndex :: .getProperty index :: rest) ∧
                ∀ instruction ∈ rest, ∃ slot, instruction = .defineModule slot)
          fun _ => True := by
  have defined := leads.defined fresh
  refine ⟨defined.state.1, ?_, ?_, ?_, ?_, ?_⟩
  · rintro outcome value ended rfl
    have control := defined.control
    rw [ended] at control
    exact control value rfl
  · intro action subRuns call program after supplied isNext begins
    have keeps := Machine.nextAction_keeps (State.each_invariant _) defined supplied isNext
    exact Machine.beginsDefined_of_keeps keeps.1 begins
  · intro depth callee arguments call program after calleeDefined argumentsDefined begins
    have keeps :
        (Machine.enter environment depth callee arguments).Keeps _
          (Transition.Hands environment Value.Defined) machine.state :=
      Machine.enter_keeps (State.each_invariant _) defined.state depth calleeDefined
        argumentsDefined
    exact Machine.beginsDefined_of_keeps keeps begins
  · intro id slot content
    rcases Registry.Unassigned.of_content defined.state.2 content with ⟨name, unassigned⟩
    exact ⟨name, unassigned.name, fun reads => reads.refuses defined.state.2 unassigned⟩
  · exact fun state moduleIndex => Compiler.importedVariable_reads moduleIndex

/-- A machine into which a text has been compiled that mentions a variable. -/
def mentioningMachine : Machine :=
  { Machine.equipped with
    state := ((HostRequest.compile .run "main" "a;").perform Machine.equipped.state).2 }

/-- The body of the text has been called and is about to read the variable. -/
def readingMachine : Machine :=
  .start quietEnvironment mentioningMachine.state [] (.function 0) [] none

theorem readingMachine_leads :
    Machine.equipped.Leads quietEnvironment .defined readingMachine := by
  have compiled : Machine.equipped.Event quietEnvironment .defined mentioningMachine :=
    .request rfl trivial
  have called : mentioningMachine.Event quietEnvironment .defined readingMachine :=
    .call rfl trivial (List.forall_mem_nil _)
  exact .tail (.single compiled) called

theorem readingMachine_reads : readingMachine.Reads 1 2 := by
  have executes :
      readingMachine.Executes (readingMachine.state.frames.back?.getD default) (.getModule 2) := by
    constructor <;> cbv
  have home : (readingMachine.state.frames.back?.getD default).function.home = 1 := by
    decide +kernel
  exact .slot (.inl executes) home rfl

/-- The variable of the text has no value, and reading it fails. -/
theorem readingMachine_fails :
    readingMachine.state.Each Value.Defined ∧
      readingMachine.Refuses quietEnvironment (.undefinedVariable "a") := by
  rcases undefined_stays_in_module_variables .equipped readingMachine_leads with
    ⟨each, -, -, -, reads, -⟩
  have content : (readingMachine.state.registry.moduleAt 1).get? 2 = some .undefined := by
    cbv
  have named : (readingMachine.state.registry.moduleAt 1).variableName? 2 = some "a" := by
    decide +kernel
  rcases reads 1 2 content with ⟨name, isName, refuses⟩
  cases named.symm.trans isName
  exact ⟨each, refuses readingMachine_reads⟩

end ScriptEngine
