import ScriptEngine.Proofs.Machine.History

/-!
# Tables of modules

The registry finds modules by name and by position, and a module finds its variables
by name and by slot.  Both ways agree (`Module.Consistent`, `Registry.Consistent`).
A module is never removed, and a variable keeps its slot and its name
(`Module.Extends`, `Registry.Extends`).

Every change of the state keeps this up (`State.Change.advances`), and so does
everything that happens to a machine (`Machine.Leads.advances`).  A compilation does
less: it appends variables without a value (`State.addSource_declares`).
-/

namespace ScriptEngine

/-! ## Variables of a module -/

namespace Module

/-- A name stands for a slot exactly if the slot has the name. -/
structure Consistent (table : Module) : Prop extends table.Indexed where
  found : ∀ name slot, table.variableName? slot = some name → table.find? name = some slot

/-- Variables have been added behind those that were there. -/
structure Extends (before after : Module) : Prop where
  name : after.name = before.name
  names : before.names.toList <+: after.names.toList
  loaded : before.loaded = true → after.loaded = true

/-- A change of a table that adds variables and keeps names and slots in agreement. -/
structure Advances (before after : Module) : Prop where
  extension : before.Extends after
  consistent : before.Consistent → after.Consistent

namespace Consistent

variable {table : Module}

theorem find?_eq_some_iff (consistent : table.Consistent) {name : String} {slot : Nat} :
    table.find? name = some slot ↔ table.variableName? slot = some name :=
  ⟨consistent.named name slot, consistent.found name slot⟩

/-- No two variables have the same name. -/
theorem nodup_names (consistent : table.Consistent) : table.names.toList.Nodup := by
  apply List.nodup_iff_getElem?_ne_getElem?.mpr
  intro first second before inside same
  rw [Array.length_toList] at inside
  simp only [Array.getElem?_toList] at same
  have named : table.variableName? second = some table.names[second] :=
    Array.getElem?_eq_getElem inside
  have firstFound := consistent.found _ first (same.trans named)
  rw [consistent.found _ second named] at firstFound
  exact Nat.ne_of_lt before (Option.some.inj firstFound).symm

theorem append
    (consistent : table.Consistent)
    {name : String}
    (missing : table.find? name = none)
    (room : table.size < maxVariables) :
    (table.append name).Consistent where
  toIndexed := consistent.toIndexed.append name room
  found other slot named := by
    change (table.names.push name)[slot]? = some other at named
    rw [find?_append]
    rw [Array.getElem?_push] at named
    split at named
    · rename_i isLast
      cases named
      rw [if_pos rfl, isLast, consistent.counted]
    · have old := consistent.found other slot named
      rw [if_neg]
      · exact old
      · rintro rfl
        rw [missing] at old
        cases old

end Consistent

namespace Extends

variable {before between after : Module}

theorem refl (table : Module) : table.Extends table :=
  ⟨rfl, List.prefix_refl _, id⟩

theorem trans (first : before.Extends between) (second : between.Extends after) :
    before.Extends after where
  name := second.name.trans first.name
  names := first.names.trans second.names
  loaded := second.loaded ∘ first.loaded

/-- A slot keeps its name. -/
theorem variableName
    (extension : before.Extends after)
    {slot : Nat}
    {name : String}
    (named : before.variableName? slot = some name) :
    after.variableName? slot = some name := by
  unfold variableName? at named ⊢
  rw [← Array.getElem?_toList] at named ⊢
  rcases List.getElem?_eq_some_iff.mp named with ⟨inside, rfl⟩
  exact List.prefix_iff_getElem?.mp extension.names slot inside

end Extends

namespace Advances

variable {before between after table : Module}

theorem refl (table : Module) : table.Advances table :=
  ⟨.refl table, id⟩

theorem trans (first : before.Advances between) (second : between.Advances after) :
    before.Advances after where
  extension := first.extension.trans second.extension
  consistent := second.consistent ∘ first.consistent

theorem declare (table : Module) (name : String) : table.Advances (table.declare name).2 := by
  rcases declare_cases table name with ⟨_, -, same⟩ | ⟨missing, room, appended⟩ | ⟨-, -, same⟩
  · rw [same]
    exact .refl table
  · rw [appended]
    refine ⟨⟨rfl, ?_, id⟩, fun consistent => consistent.append missing room⟩
    show table.names.toList <+: (table.names.push name).toList
    rw [Array.toList_push]
    exact List.prefix_append _ _
  · rw [same]
    exact .refl table

theorem set (table : Module) (slot : Nat) (value : Value) :
    table.Advances (table.set slot value) where
  extension := ⟨rfl, List.prefix_refl _, id⟩
  consistent := fun consistent => ⟨consistent.toIndexed.set slot value, consistent.found⟩

theorem markLoaded (table : Module) : table.Advances table.markLoaded where
  extension := ⟨rfl, List.prefix_refl _, fun _ => rfl⟩
  consistent := fun consistent =>
    ⟨consistent.toIndexed.relabelled table.name true, consistent.found⟩

theorem define (table : Module) (name : String) (value : Value) :
    table.Advances (Registry.define table name value).2 := by
  have declared := declare table name
  rcases Registry.define_cases table name value with ⟨slot, -, same⟩ | same
  · rw [same]
    exact declared.trans (.set _ slot value)
  · rw [same]
    exact declared

theorem offer (table : Module) (name : String) (value : Value) :
    table.Advances (Registry.offer table name value) := by
  have declared := declare table name
  unfold Registry.offer
  split
  · rename_i same
    rw [same] at declared
    exact declared
  · rename_i slot after same
    rw [same] at declared
    split
    · exact declared.trans (.set after slot value)
    · exact declared

theorem of_grows (grows : before.Grows after) : before.Advances after := by
  induction grows with
  | same => exact .refl before
  | declare _ name induction => exact induction.trans (.declare _ name)

end Advances

/-- Variables without a value have been appended. -/
def Declares (before after : Module) : Prop :=
  ∃ names : List String,
    after.names.toList = before.names.toList ++ names ∧
      after.values.toList = before.values.toList ++ List.replicate names.length .undefined

theorem Grows.declares
    {before after : Module}
    (grows : before.Grows after) :
    before.Declares after := by
  induction grows with
  | same => exact ⟨[], by simp⟩
  | @declare between _ name induction =>
      rcases induction with ⟨names, sameNames, sameValues⟩
      rcases declare_cases between name with ⟨_, -, same⟩ | ⟨-, -, appended⟩ | ⟨-, -, same⟩
      · rw [same]
        exact ⟨names, sameNames, sameValues⟩
      · rw [appended]
        refine ⟨names ++ [name], ?_, ?_⟩
        · show (between.names.push name).toList = _
          rw [Array.toList_push, sameNames, List.append_assoc]
        · show (between.values.push .undefined).toList = _
          rw [Array.toList_push, sameValues, List.append_assoc, List.length_append,
            List.length_singleton, List.replicate_succ']
      · rw [same]
        exact ⟨names, sameNames, sameValues⟩

end Module

/-! ## Modules of a registry -/

namespace Registry

/-- A name stands for a position exactly if the module there has the name. -/
structure Consistent (registry : Registry) : Prop where
  nonempty : builtin < registry.modules.size
  modules : ∀ table ∈ registry.modules, table.Consistent
  found :
    ∀ name id,
      registry.find? name = some id ↔
        ∃ table, registry.modules[id]? = some table ∧ table.name = name

/-- Modules have been added behind those that were there. -/
structure Extends (before after : Registry) : Prop where
  modules :
    ∀ (id : Nat) (table : Module),
      before.modules[id]? = some table →
        ∃ later, after.modules[id]? = some later ∧ table.Extends later

/-- A change of the modules that keeps names, positions and slots in agreement. -/
structure Advances (before after : Registry) : Prop where
  extension : before.Extends after
  consistent : before.Consistent → after.Consistent
  /-- A new module begins with the variables of one that was there. -/
  descends :
    before.Consistent →
      ∀ later ∈ after.modules,
        ∃ table ∈ before.modules, table.names.toList <+: later.names.toList

namespace Extends

variable {before between after : Registry}

theorem refl (registry : Registry) : registry.Extends registry :=
  ⟨fun _ table here => ⟨table, here, .refl table⟩⟩

theorem trans (first : before.Extends between) (second : between.Extends after) :
    before.Extends after := by
  constructor
  intro id table here
  rcases first.modules id table here with ⟨middle, there, earlier⟩
  rcases second.modules id middle there with ⟨last, finally_, later⟩
  exact ⟨last, finally_, earlier.trans later⟩

/-- A module that is there has been extended. -/
theorem moduleAt
    (extension : before.Extends after)
    {id : Nat}
    (inside : id < before.modules.size) :
    (before.moduleAt id).Extends (after.moduleAt id) := by
  rcases extension.modules id _ (Array.getElem?_eq_getElem inside) with ⟨later, here, extended⟩
  rw [moduleAt_eq inside]
  unfold Registry.moduleAt
  rw [Array.getD_eq_getD_getElem?, here, Option.getD_some]
  exact extended

/-- A module that is there keeps the names of its variables. -/
theorem variableName
    (extension : before.Extends after)
    {id slot : Nat}
    {name : String}
    (named : (before.moduleAt id).variableName? slot = some name) :
    (after.moduleAt id).variableName? slot = some name := by
  by_cases inside : id < before.modules.size
  · exact (extension.moduleAt inside).variableName named
  · unfold Registry.moduleAt at named
    rw [Array.getD_eq_getD_getElem?, Array.getElem?_eq_none (Nat.le_of_not_lt inside)] at named
    cases named

end Extends

namespace Consistent

variable {registry : Registry}

theorem inside
    (consistent : registry.Consistent)
    {name : String}
    {id : Nat}
    (found : registry.find? name = some id) :
    id < registry.modules.size := by
  rcases (consistent.found name id).mp found with ⟨table, here, -⟩
  exact (Array.getElem?_eq_some_iff.mp here).1

theorem moduleAt
    (consistent : registry.Consistent)
    {id : Nat}
    (inside : id < registry.modules.size) :
    (registry.moduleAt id).Consistent := by
  rw [moduleAt_eq inside]
  exact consistent.modules _ (Array.getElem_mem inside)

/-- A module keeps its position. -/
theorem find?_of_extends
    (consistent : registry.Consistent)
    {after : Registry}
    (later : after.Consistent)
    (extension : registry.Extends after)
    {name : String}
    {id : Nat}
    (found : registry.find? name = some id) :
    after.find? name = some id := by
  rcases (consistent.found name id).mp found with ⟨table, here, isNamed⟩
  rcases extension.modules id table here with ⟨last, there, extended⟩
  exact (later.found name id).mpr ⟨last, there, extended.name.trans isNamed⟩

end Consistent

namespace Advances

variable {before between after : Registry}

theorem refl (registry : Registry) : registry.Advances registry where
  extension := .refl registry
  consistent := id
  descends := fun _ table member => ⟨table, member, List.prefix_refl _⟩

theorem trans (first : before.Advances between) (second : between.Advances after) :
    before.Advances after where
  extension := first.extension.trans second.extension
  consistent := second.consistent ∘ first.consistent
  descends := by
    intro consistent later member
    rcases second.descends (first.consistent consistent) later member with
      ⟨middle, present, longer⟩
    rcases first.descends consistent middle present with ⟨table, known, long⟩
    exact ⟨table, known, long.trans longer⟩

/-- No module is added, and those that are there are changed one by one. -/
theorem of_each
    (index : after.index = before.index)
    (size : after.modules.size = before.modules.size)
    (each :
      ∀ (id : Nat) (table : Module),
        before.modules[id]? = some table →
          ∃ later, after.modules[id]? = some later ∧ table.Advances later) :
    before.Advances after := by
  -- Every module was there before.
  have earlier :
      ∀ (id : Nat) (later : Module),
        after.modules[id]? = some later →
          ∃ table, before.modules[id]? = some table ∧ table.Advances later := by
    intro id later here
    have inside : id < before.modules.size :=
      size ▸ (Array.getElem?_eq_some_iff.mp here).1
    have present := Array.getElem?_eq_getElem inside
    rcases each id _ present with ⟨other, there, advances⟩
    rw [here] at there
    cases there
    exact ⟨_, present, advances⟩
  refine ⟨⟨?_⟩, ?_, ?_⟩
  · intro id table here
    rcases each id table here with ⟨later, there, advances⟩
    exact ⟨later, there, advances.extension⟩
  · intro consistent
    refine ⟨size ▸ consistent.nonempty, ?_, ?_⟩
    · intro later member
      rcases Array.mem_iff_getElem?.mp member with ⟨id, here⟩
      rcases earlier id later here with ⟨table, there, advances⟩
      exact advances.consistent (consistent.modules table (Array.mem_of_getElem? there))
    · intro name id
      have sameFind : after.find? name = before.find? name := by
        unfold find?
        rw [index]
      rw [sameFind, consistent.found name id]
      constructor
      · rintro ⟨table, here, isNamed⟩
        rcases each id table here with ⟨later, there, advances⟩
        exact ⟨later, there, advances.extension.name.trans isNamed⟩
      · rintro ⟨later, here, isNamed⟩
        rcases earlier id later here with ⟨table, there, advances⟩
        exact ⟨table, there, advances.extension.name.symm.trans isNamed⟩
  · intro _ later member
    rcases Array.mem_iff_getElem?.mp member with ⟨id, here⟩
    rcases earlier id later here with ⟨table, there, advances⟩
    exact ⟨table, Array.mem_of_getElem? there, advances.extension.names⟩

theorem modify
    (registry : Registry)
    (id : Nat)
    {change : Module → Module}
    (advances : ∀ table : Module, table.Advances (change table)) :
    registry.Advances (registry.modify id change) := by
  refine of_each rfl (size_modify _ _ _) ?_
  intro other table here
  simp only [Registry.modify, Array.getElem?_modify, here, Option.map_some]
  split
  · exact ⟨_, rfl, advances table⟩
  · exact ⟨_, rfl, .refl table⟩

theorem replace
    (registry : Registry)
    (id : Nat)
    {table : Module}
    (advances : (registry.moduleAt id).Advances table) :
    registry.Advances (registry.replace id table) := by
  refine of_each rfl (size_replace _ _ _) ?_
  intro other present here
  have inside : other < registry.modules.size := (Array.getElem?_eq_some_iff.mp here).1
  simp only [Registry.replace, Array.getElem?_setIfInBounds]
  split
  · rename_i same
    subst same
    rw [moduleAt_eq inside, (Array.getElem?_eq_some_iff.mp here).2] at advances
    exact ⟨table, if_pos inside, advances⟩
  · exact ⟨present, here, .refl present⟩

/-- A new module has the variables of the seed. -/
theorem ensure (registry : Registry) (name : String) :
    registry.Advances (registry.ensure name).2 := by
  unfold Registry.ensure
  split
  · exact .refl registry
  · rename_i missing
    refine ⟨⟨?_⟩, ?_, ?_⟩
    · intro id table here
      have inside : id < registry.modules.size := (Array.getElem?_eq_some_iff.mp here).1
      refine ⟨table, ?_, .refl table⟩
      rw [Array.getElem?_push_lt inside, ← here, Array.getElem?_eq_getElem inside]
    · intro consistent
      have seed := consistent.moduleAt consistent.nonempty
      refine ⟨?_, ?_, ?_⟩
      · rw [Array.size_push]
        exact Nat.succ_pos _
      · apply forall_mem_push consistent.modules
        exact ⟨seed.toIndexed.relabelled name false, seed.found⟩
      · intro other id
        simp only [find?, Std.TreeMap.getElem?_insert, Std.compare_eq_iff_eq, Array.getElem?_push]
        by_cases isNew : name = other
        · subst isNew
          rw [if_pos rfl]
          constructor
          · rintro ⟨⟩
            exact ⟨_, if_pos rfl, rfl⟩
          · rintro ⟨table, here, isNamed⟩
            split at here
            · rename_i isLast
              rw [isLast]
            · rw [(consistent.found name id).mpr ⟨table, here, isNamed⟩] at missing
              cases missing
        · rw [if_neg isNew]
          refine (consistent.found other id).trans ?_
          constructor
          · rintro ⟨table, here, isNamed⟩
            have inside : id < registry.modules.size := (Array.getElem?_eq_some_iff.mp here).1
            exact ⟨table, (if_neg (Nat.ne_of_lt inside)).trans here, isNamed⟩
          · rintro ⟨table, here, isNamed⟩
            split at here
            · cases here
              exact absurd isNamed isNew
            · exact ⟨table, here, isNamed⟩
    · intro consistent later member
      rcases Array.mem_push.mp member with old | rfl
      · exact ⟨later, old, List.prefix_refl _⟩
      · refine ⟨registry.moduleAt builtin, ?_, List.prefix_refl _⟩
        rw [moduleAt_eq consistent.nonempty]
        exact Array.getElem_mem _

theorem defineBuiltin (registry : Registry) (name : String) (value : Value) :
    registry.Advances (registry.defineBuiltin name value) := by
  refine of_each rfl Array.size_mapIdx ?_
  intro id table here
  simp only [Registry.defineBuiltin, Array.getElem?_mapIdx, here, Option.map_some]
  refine ⟨_, rfl, ?_⟩
  split
  · exact .define table name value
  · exact .offer table name value

end Advances

theorem Change.advances
    {good : Value → Prop}
    {before after : Registry}
    (change : Change good before after) :
    before.Advances after := by
  cases change with
  | assign id slot isGood => exact .modify before id fun table => .set table slot _
  | markLoaded id => exact .modify before id .markLoaded
  | ensure name => exact .ensure before name
  | defineBuiltin name isGood => exact .defineBuiltin before name _
  | defineVariable moduleName name isGood =>
      exact (Advances.ensure before moduleName).trans
        (.replace _ _ (.define _ name _))

theorem consistent_initial : initial.Consistent where
  nonempty := Nat.one_pos
  modules := by
    intro table member
    rw [Array.mem_singleton.mp member]
    exact ⟨Module.indexed_empty "" true, nofun⟩
  found := by
    intro name id
    simp only [find?, initial, Std.TreeMap.getElem?_insert, Std.compare_eq_iff_eq, builtin]
    by_cases isEmpty : "" = name
    · subst isEmpty
      rw [if_pos rfl]
      constructor
      · rintro ⟨⟩
        exact ⟨_, rfl, rfl⟩
      · rintro ⟨table, here, -⟩
        have inside : id < 1 := (Array.getElem?_eq_some_iff.mp here).1
        rw [Nat.lt_one_iff.mp inside]
    · rw [if_neg isEmpty]
      constructor
      · intro found
        simp at found
      · rintro ⟨table, here, isNamed⟩
        rw [Array.mem_singleton.mp (Array.mem_of_getElem? here)] at isNamed
        exact absurd isNamed isEmpty

end Registry

/-! ## States -/

namespace State

theorem registry_addSource (state : State) (mode : CompileMode) (id : Nat) (source : String) :
    (state.addSource mode id source).2.registry =
      state.registry.replace id
        (compile mode source (state.registry.moduleAt id) id state.heap.functions.size).table := by
  unfold addSource
  simp only
  split <;> rfl

/-- A compilation gives no module another name. -/
theorem find?_addSource
    (state : State)
    (mode : CompileMode)
    (id : Nat)
    (source name : String) :
    (state.addSource mode id source).2.registry.find? name = state.registry.find? name := by
  rw [registry_addSource]
  rfl

theorem advances_addSource (state : State) (mode : CompileMode) (id : Nat) (source : String) :
    state.registry.Advances (state.addSource mode id source).2.registry := by
  rw [registry_addSource]
  exact .replace _ _ (.of_grows (grows_compile _ _ _ _ _))

theorem Change.advances
    {limits : Limits}
    {good : Value → Prop}
    {before after : State}
    (change : Change limits good before after) :
    before.registry.Advances after.registry := by
  cases change with
  | registry change => exact change.advances
  | compile mode found source => exact advances_addSource before mode _ source
  | stack | frames | heap | journal => exact .refl _

/-- Whether a text is compiled or refused, modules only get further variables without a value. -/
theorem addSource_declares
    (state : State)
    (mode : CompileMode)
    (id : Nat)
    (source : String)
    {position : Nat}
    {table : Module}
    (here : state.registry.modules[position]? = some table) :
    ∃ later,
      (state.addSource mode id source).2.registry.modules[position]? = some later ∧
        table.Declares later := by
  have inside : position < state.registry.modules.size := (Array.getElem?_eq_some_iff.mp here).1
  rw [registry_addSource]
  simp only [Registry.replace, Array.getElem?_setIfInBounds]
  split
  · rename_i same
    subst same
    refine ⟨_, if_pos inside, ?_⟩
    have grows := grows_compile mode source (state.registry.moduleAt id) id
      state.heap.functions.size
    rw [Registry.moduleAt_eq inside, (Array.getElem?_eq_some_iff.mp here).2] at grows ⊢
    exact grows.declares
  · exact ⟨table, here, [], by simp⟩

end State

/-! ## Histories -/

/-- Whatever changes the state, the modules advance. -/
theorem State.advances_invariant (limits : Limits) (first : Registry) :
    State.Invariant limits (fun _ => True) fun state => first.Advances state.registry where
  each := fun {state} _ => .of_forall (fun _ => trivial) state
  change := fun earlier change => earlier.trans change.advances

namespace Machine

variable {environment : Environment} {supply : Supply}

theorem Leads.advances
    {before after : Machine}
    (leads : before.Leads environment supply after) :
    before.state.registry.Advances after.state.registry :=
  (leads.any.keeps (State.advances_invariant _ before.state.registry)
    (fun _ _ _ advances => advances)
    (holds_of_forall (fun _ => trivial) (.refl _))).state

theorem Fresh.consistent
    {machine : Machine}
    (fresh : machine.Fresh) :
    machine.state.registry.Consistent := by
  cases fresh with
  | bare => exact Registry.consistent_initial
  | equipped =>
      have advances := (Registry.Advances.defineBuiltin .initial "Array" (.classObject 0)).trans
        (.defineBuiltin _ "Map" (.classObject 1))
      exact advances.consistent Registry.consistent_initial

theorem Arises.consistent
    {machine : Machine}
    (arises : machine.Arises environment supply) :
    machine.state.registry.Consistent := by
  rcases arises with ⟨first, fresh, leads⟩
  exact leads.advances.consistent fresh.consistent

end Machine

end ScriptEngine
