import ScriptEngine.Proofs.Machine.Slots

/-!
# Built-in variables in every module

A variable of the seed comes into a module in one of two ways: a new module copies it, and
a module that is there is offered it when it is defined.  Either way it stands for the same
value, although not in the same slot, because a compilation may have declared the name in
the module before (`builtins_reach_every_module`).

Defining a built-in variable changes no other variable, and it changes no variable of a
module but the seed that has a value.  A full table without the name is left as it is.
-/

namespace ScriptEngine

namespace Module

variable {table before after : Module} {name other : String} {value : Value} {slot : Nat}

/-- A variable has the name, or there is room for one. -/
def Takes (table : Module) (name : String) : Prop :=
  (table.find? name).isSome = true ∨ table.size < maxVariables

/-! ## What a name stands for -/

theorem getByName?_of_missing (missing : table.find? name = none) :
    table.getByName? name = none := by
  unfold getByName?
  rw [missing, Option.bind_none]

theorem assignedByName?_of_missing (missing : table.find? name = none) :
    table.assignedByName? name = none := by
  unfold assignedByName?
  rw [missing, Option.bind_none]

theorem assignedByName?_eq (table : Module) (name : String) :
    table.assignedByName? name = (table.getByName? name).filter fun value =>
      !value.isUndefined := by
  unfold assignedByName? getByName? assigned?
  cases table.find? name <;> rfl

/-- Appending a variable without a value changes no other. -/
theorem getByName?_append
    (indexed : table.Indexed)
    (name other : String) :
    (table.append name).getByName? other =
      if name = other then some .undefined else table.getByName? other := by
  unfold getByName?
  rw [find?_append]
  split
  · exact Array.getElem?_push_size
  · rcases found : table.find? other with _ | slot
    · rfl
    · have inside := indexed.inside other slot found
      exact Array.getElem?_push_lt inside |>.trans (Array.getElem?_eq_getElem inside).symm

/-- Assigning a variable changes no other. -/
theorem getByName?_set
    (indexed : table.Indexed)
    (found : table.find? name = some slot)
    (value : Value)
    (other : String) :
    (table.set slot value).getByName? other =
      if name = other then some value else table.getByName? other := by
  unfold getByName?
  change (table.find? other).bind (table.set slot value).get? = _
  split
  · rename_i same
    subst same
    rw [found, Option.bind_some]
    exact Array.getElem?_setIfInBounds_self_of_lt (indexed.inside name slot found)
  · rename_i different
    rcases alsoFound : table.find? other with _ | position
    · rfl
    · have apart : slot ≠ position := by
        rintro rfl
        exact different (indexed.name_eq found alsoFound)
      exact Array.getElem?_setIfInBounds_ne apart

/-- A declaration gives a value to nothing. -/
theorem assignedByName?_declare
    (indexed : table.Indexed)
    (name other : String) :
    (table.declare name).2.assignedByName? other = table.assignedByName? other := by
  rcases declare_cases table name with ⟨_, -, same⟩ | ⟨missing, -, appended⟩ | ⟨-, -, same⟩
  · rw [same]
  · rw [appended, assignedByName?_eq, getByName?_append indexed]
    split
    · rename_i same
      subst same
      rw [assignedByName?_of_missing missing]
      rfl
    · rw [assignedByName?_eq]
  · rw [same]

/-- A declaration changes nothing that a name stood for. -/
theorem getByName?_declare
    (indexed : table.Indexed)
    (found : table.getByName? other = some value)
    (name : String) :
    (table.declare name).2.getByName? other = some value := by
  rcases declare_cases table name with ⟨_, -, same⟩ | ⟨missing, -, appended⟩ | ⟨-, -, same⟩
  · rwa [same]
  · rw [appended, getByName?_append indexed, if_neg]
    · exact found
    · rintro rfl
      cases (getByName?_of_missing missing).symm.trans found
  · rwa [same]

theorem getByName?_declare_of_ne
    (indexed : table.Indexed)
    (different : name ≠ other) :
    (table.declare name).2.getByName? other = table.getByName? other := by
  rcases declare_cases table name with ⟨_, -, same⟩ | ⟨-, -, appended⟩ | ⟨-, -, same⟩
  · rw [same]
  · rw [appended, getByName?_append indexed, if_neg different]
  · rw [same]

namespace Grows

theorem getByName?
    (grows : before.Grows after)
    (indexed : before.Indexed)
    (found : before.getByName? name = some value) :
    after.getByName? name = some value := by
  induction grows with
  | same => exact found
  | declare earlier other induction =>
      exact getByName?_declare (earlier.indexed indexed) induction other

theorem assignedByName?
    (grows : before.Grows after)
    (indexed : before.Indexed)
    (name : String) :
    after.assignedByName? name = before.assignedByName? name := by
  induction grows with
  | same => rfl
  | declare earlier other induction =>
      rw [assignedByName?_declare (earlier.indexed indexed), induction]

end Grows

/-- A name that is taken gets a slot. -/
theorem declare_of_takes (takes : table.Takes name) :
    ∃ slot, (table.declare name) = (some slot, (table.declare name).2) := by
  rcases declare_cases table name with ⟨slot, -, same⟩ | ⟨-, -, appended⟩ | ⟨missing, full, -⟩
  · exact ⟨slot, by rw [same]⟩
  · exact ⟨table.size, by rw [appended]⟩
  · rcases takes with found | room
    · rw [missing] at found
      cases found
    · exact absurd room full

theorem declare_of_not_takes (refuses : ¬ table.Takes name) :
    table.declare name = (none, table) := by
  rcases declare_cases table name with ⟨slot, found, -⟩ | ⟨-, room, -⟩ | ⟨-, -, same⟩
  · exact absurd (.inl (by rw [found]; rfl)) refuses
  · exact absurd (.inr room) refuses
  · exact same

end Module

namespace Registry

variable {table : Module} {name other : String} {value : Value}

/-! ## Defining and offering a variable -/

theorem getByName?_define
    (indexed : table.Indexed)
    (takes : table.Takes name)
    (value : Value)
    (other : String) :
    (define table name value).2.getByName? other =
      if name = other then some value else table.getByName? other := by
  rcases Module.declare_of_takes takes with ⟨slot, declared⟩
  have found := Module.find?_of_declare declared
  unfold define
  rw [declared]
  refine (Module.getByName?_set (indexed.declare name) found value other).trans ?_
  split
  · rfl
  · rename_i different
    exact Module.getByName?_declare_of_ne indexed different

theorem getByName?_offer
    (indexed : table.Indexed)
    (takes : table.Takes name)
    (value : Value)
    (other : String) :
    (offer table name value).getByName? other =
      if name = other then some ((table.assignedByName? name).getD value)
      else table.getByName? other := by
  rcases Module.declare_of_takes takes with ⟨slot, declared⟩
  have found := Module.find?_of_declare declared
  have assigned : (table.declare name).2.assigned? slot = table.assignedByName? name := by
    rw [← Module.assignedByName?_declare indexed name name]
    unfold Module.assignedByName?
    rw [found, Option.bind_some]
  unfold offer
  rw [declared]
  simp only [assigned]
  rcases isAssigned : table.assignedByName? name with _ | old
  · refine (Module.getByName?_set (indexed.declare name) found value other).trans ?_
    split
    · rfl
    · rename_i different
      exact Module.getByName?_declare_of_ne indexed different
  · simp only [Option.isNone_some, Bool.false_eq_true, if_false, Option.getD_some]
    split
    · rename_i same
      subst same
      apply Module.getByName?_declare indexed
      rw [Module.assignedByName?_eq] at isAssigned
      exact (Option.filter_eq_some_iff.mp isAssigned).1
    · rename_i different
      exact Module.getByName?_declare_of_ne indexed different

theorem define_of_not_takes (refuses : ¬ table.Takes name) (value : Value) :
    (define table name value).2 = table := by
  unfold define
  rw [Module.declare_of_not_takes refuses]

theorem offer_of_not_takes (refuses : ¬ table.Takes name) (value : Value) :
    offer table name value = table := by
  unfold offer
  rw [Module.declare_of_not_takes refuses]

/-- What becomes of a module when a built-in variable is defined. -/
structure Defined (name : String) (value : Value) (isSeed : Prop) (before after : Module) :
    Prop where
  label : after.name = before.name ∧ after.loaded = before.loaded
  others : ∀ other, other ≠ name → after.getByName? other = before.getByName? other
  seed : before.Takes name → isSeed → after.getByName? name = some value
  unset :
    before.Takes name →
      ¬ isSeed →
        before.assignedByName? name = none →
          after.getByName? name = some value
  kept :
    ¬ isSeed →
      ∀ old, before.assignedByName? name = some old → after.getByName? name = some old
  full : ¬ before.Takes name → after = before

theorem labels_define (table : Module) (name : String) (value : Value) :
    (define table name value).2.name = table.name ∧
      (define table name value).2.loaded = table.loaded := by
  have declared :
      (table.declare name).2.name = table.name ∧
        (table.declare name).2.loaded = table.loaded := by
    rcases Module.declare_cases table name with ⟨_, -, same⟩ | ⟨-, -, same⟩ | ⟨-, -, same⟩ <;>
      rw [same] <;> exact ⟨rfl, rfl⟩
  rcases define_cases table name value with ⟨slot, -, same⟩ | same
  · rw [same]
    exact declared
  · rw [same]
    exact declared

theorem labels_offer (table : Module) (name : String) (value : Value) :
    (offer table name value).name = table.name ∧
      (offer table name value).loaded = table.loaded := by
  by_cases takes : table.Takes name
  · rcases Module.declare_of_takes takes with ⟨slot, declared⟩
    have labels := labels_define table name value
    unfold define at labels
    unfold offer
    rw [declared] at labels ⊢
    simp only
    split <;> exact labels
  · rw [offer_of_not_takes takes]
    exact ⟨rfl, rfl⟩

theorem Defined.define
    (indexed : table.Indexed)
    (name : String)
    (value : Value) :
    Defined name value True table (define table name value).2 where
  label := labels_define table name value
  others other different := by
    by_cases takes : table.Takes name
    · rw [getByName?_define indexed takes, if_neg different.symm]
    · rw [define_of_not_takes takes]
  seed takes _ := by rw [getByName?_define indexed takes, if_pos rfl]
  unset _ isOther := absurd trivial isOther
  kept isOther := absurd trivial isOther
  full refuses := define_of_not_takes refuses value

theorem Defined.offer
    (indexed : table.Indexed)
    (name : String)
    (value : Value) :
    Defined name value False table (offer table name value) where
  label := labels_offer table name value
  others other different := by
    by_cases takes : table.Takes name
    · rw [getByName?_offer indexed takes, if_neg different.symm]
    · rw [offer_of_not_takes takes]
  seed _ isSeed := isSeed.elim
  unset takes _ missing := by rw [getByName?_offer indexed takes, if_pos rfl, missing]; rfl
  kept _ old assigned := by
    have found : (table.find? name).isSome = true := by
      rcases isFound : table.find? name with _ | slot
      · cases (Module.assignedByName?_of_missing isFound).symm.trans assigned
      · rfl
    rw [getByName?_offer indexed (.inl found), if_pos rfl, assigned]
    rfl
  full refuses := offer_of_not_takes refuses value

/-- Each module is changed by itself. -/
theorem defined_defineBuiltin
    {registry : Registry}
    (consistent : registry.Consistent)
    (name : String)
    (value : Value)
    {id : Nat}
    {table : Module}
    (here : registry.modules[id]? = some table) :
    ∃ later,
      (registry.defineBuiltin name value).modules[id]? = some later ∧
        Defined name value (id = builtin) table later := by
  have indexed := (consistent.modules table (Array.mem_of_getElem? here)).toIndexed
  simp only [Registry.defineBuiltin, Array.getElem?_mapIdx, here, Option.map_some]
  refine ⟨_, rfl, ?_⟩
  split
  · rename_i isSeed
    rw [eq_true isSeed]
    exact .define indexed name value
  · rename_i isOther
    rw [eq_false isOther]
    exact .offer indexed name value

/-! ## Built-in variables of all modules -/

/-- The variables that have been defined have their values in every module, and no other has one. -/
structure Seeded (defined : List (String × Value)) (registry : Registry) : Prop where
  consistent : registry.Consistent
  bound :
    ∀ table ∈ registry.modules,
      ∀ name value, (name, value) ∈ defined → table.getByName? name = some value
  free :
    ∀ table ∈ registry.modules,
      ∀ name, name ∉ defined.map Prod.fst → table.assignedByName? name = none

namespace Seeded

variable {defined : List (String × Value)} {registry : Registry}

theorem initial : Registry.initial.Seeded [] where
  consistent := consistent_initial
  bound _ _ _ _ := nofun
  free table member name _ := by
    rw [Array.mem_singleton.mp member]
    exact Module.assignedByName?_of_missing (by simp [Module.find?])

/-- What two tables have in common if the variables and their values are the same. -/
theorem of_tables
    (seeded : registry.Seeded defined)
    {after : Registry}
    (consistent : after.Consistent)
    (each :
      ∀ later ∈ after.modules,
        ∃ table ∈ registry.modules,
          (∀ name value, table.getByName? name = some value → later.getByName? name = some value) ∧
            ∀ name, table.assignedByName? name = none → later.assignedByName? name = none) :
    after.Seeded defined where
  consistent := consistent
  bound later member name value isDefined := by
    rcases each later member with ⟨table, known, kept, -⟩
    exact kept name value (seeded.bound table known name value isDefined)
  free later member name isFree := by
    rcases each later member with ⟨table, known, -, kept⟩
    exact kept name (seeded.free table known name isFree)

/-- A new module copies the variables of the seed. -/
theorem ensure (seeded : registry.Seeded defined) (name : String) :
    (registry.ensure name).2.Seeded defined := by
  refine seeded.of_tables ((Advances.ensure registry name).consistent seeded.consistent) ?_
  intro later member
  unfold Registry.ensure at member
  split at member
  · exact ⟨later, member, fun _ _ => id, fun _ => id⟩
  · rcases Array.mem_push.mp member with old | rfl
    · exact ⟨later, old, fun _ _ => id, fun _ => id⟩
    · refine ⟨registry.moduleAt builtin, ?_, fun _ _ => id, fun _ => id⟩
      rw [moduleAt_eq seeded.consistent.nonempty]
      exact Array.getElem_mem _

theorem markLoaded (seeded : registry.Seeded defined) (position : Nat) :
    (registry.modify position Module.markLoaded).Seeded defined := by
  refine seeded.of_tables
    ((Advances.modify registry position .markLoaded).consistent seeded.consistent) ?_
  intro later member
  rcases Array.mem_iff_getElem?.mp member with ⟨number, here⟩
  simp only [Registry.modify, Array.getElem?_modify] at here
  split at here
  · rcases Option.map_eq_some_iff.mp here with ⟨table, there, rfl⟩
    exact ⟨table, Array.mem_of_getElem? there, fun _ _ => id, fun _ => id⟩
  · exact ⟨later, Array.mem_of_getElem? here, fun _ _ => id, fun _ => id⟩

/-- A compilation declares variables and assigns none. -/
theorem grow
    (seeded : registry.Seeded defined)
    (position : Nat)
    {table : Module}
    (grows : (registry.moduleAt position).Grows table) :
    (registry.replace position table).Seeded defined := by
  refine seeded.of_tables
    ((Advances.replace registry position (.of_grows grows)).consistent seeded.consistent) ?_
  intro later member
  rcases Array.mem_or_eq_of_mem_setIfInBounds member with old | rfl
  · exact ⟨later, old, fun _ _ => id, fun _ => id⟩
  · by_cases inside : position < registry.modules.size
    · have known : registry.moduleAt position ∈ registry.modules := by
        rw [moduleAt_eq inside]
        exact Array.getElem_mem _
      have indexed := (seeded.consistent.modules _ known).toIndexed
      refine ⟨_, known, fun _ _ => grows.getByName? indexed, fun name missing => ?_⟩
      rw [grows.assignedByName? indexed, missing]
    · rw [Registry.replace, Array.setIfInBounds_eq_of_size_le (Nat.le_of_not_lt inside)] at member
      exact ⟨later, member, fun _ _ => id, fun _ => id⟩

/-- A new variable gets its value in every module that has room for it. -/
theorem defineBuiltin
    (seeded : registry.Seeded defined)
    {name : String}
    (isNew : name ∉ defined.map Prod.fst)
    (value : Value)
    (room : ∀ table ∈ registry.modules, table.Takes name) :
    (registry.defineBuiltin name value).Seeded ((name, value) :: defined) := by
  have advances := Advances.defineBuiltin registry name value
  -- Every module was there before, and the name had no value in it.
  have earlier :
      ∀ later ∈ (registry.defineBuiltin name value).modules,
        ∃ table ∈ registry.modules,
          later.getByName? name = some value ∧
            ∀ other, other ≠ name → later.getByName? other = table.getByName? other := by
    intro later member
    rcases Array.mem_iff_getElem?.mp member with ⟨id, there⟩
    have inside : id < registry.modules.size := by
      have bound := (Array.getElem?_eq_some_iff.mp there).1
      simpa [Registry.defineBuiltin] using bound
    have here := Array.getElem?_eq_getElem inside
    have known := Array.mem_of_getElem? here
    rcases defined_defineBuiltin seeded.consistent name value here with ⟨same, found, isDefined⟩
    rw [there] at found
    cases found
    refine ⟨_, known, ?_, isDefined.others⟩
    by_cases isSeed : id = builtin
    · exact isDefined.seed (room _ known) isSeed
    · exact isDefined.unset (room _ known) isSeed (seeded.free _ known name isNew)
  refine ⟨advances.consistent seeded.consistent, ?_, ?_⟩
  · intro later member other content isDefined
    rcases earlier later member with ⟨table, known, found, others⟩
    rcases List.mem_cons.mp isDefined with same | old
    · cases same
      exact found
    · have different : other ≠ name := by
        rintro rfl
        exact isNew (List.mem_map_of_mem old)
      rw [others other different]
      exact seeded.bound table known other content old
  · intro later member other isFree
    rcases earlier later member with ⟨table, known, -, others⟩
    rw [List.map_cons, List.mem_cons, not_or] at isFree
    rw [Module.assignedByName?_eq, others other isFree.1, ← Module.assignedByName?_eq]
    exact seeded.free table known other isFree.2

end Seeded

end Registry

/-! ## Requests one after the other -/

namespace HostRequest

/-- A request that creates a module, defines a built-in variable or compiles a text. -/
inductive Prepares : HostRequest → Prop where
  | ensureModule (moduleName : String) : Prepares (.ensureModule moduleName)
  | defineBuiltin (name : String) (value : Value) : Prepares (.defineBuiltin name value)
  | compile (mode : CompileMode) (moduleName source : String) :
      Prepares (.compile mode moduleName source)

/-- The built-in variable that a request defines. -/
def builtin? : HostRequest → Option (String × Value)
  | .defineBuiltin name value => some (name, value)
  | _ => none

end HostRequest

namespace State

/-- Carries out requests in order. -/
def performAll (state : State) (requests : List HostRequest) : State :=
  requests.foldl (fun state request => (request.perform state).2) state

theorem performAll_concat (state : State) (requests : List HostRequest) (request : HostRequest) :
    state.performAll (requests ++ [request]) = (request.perform (state.performAll requests)).2 :=
  List.foldl_append

theorem advances_perform (state : State) (request : HostRequest) :
    state.registry.Advances (request.perform state).2.registry := by
  let environment : Environment := { settings := {}, host := .empty }
  have invariant := advances_invariant environment.settings.limits state.registry
  exact Machine.perform_keeps invariant (.refl state.registry)
    (.of_forall (fun _ => trivial) request)

theorem advances_performAll (state : State) (requests : List HostRequest) :
    state.registry.Advances (state.performAll requests).registry := by
  induction requests generalizing state with
  | nil => exact .refl _
  | cons request rest induction => exact (advances_perform state request).trans (induction _)

/-- A module has room for as long as it has room in the end. -/
theorem room_of_performAll
    {state : State}
    (consistent : state.registry.Consistent)
    {requests : List HostRequest}
    (room :
      ∀ table ∈ (state.performAll requests).registry.modules, table.size < Module.maxVariables) :
    ∀ table ∈ state.registry.modules, table.size < Module.maxVariables := by
  intro table member
  have advances := advances_performAll state requests
  rcases Array.mem_iff_getElem?.mp member with ⟨id, here⟩
  rcases advances.extension.modules id table here with ⟨later, there, extended⟩
  have present := Array.mem_of_getElem? there
  have longer := extended.names.length_le
  rw [Array.length_toList, Array.length_toList, (consistent.modules table member).counted,
    ((advances.consistent consistent).modules later present).counted] at longer
  exact Nat.lt_of_le_of_lt longer (room later present)

end State

namespace Registry.Seeded

variable {state : State} {defined : List (String × Value)}

theorem addNamedSource
    (seeded : state.registry.Seeded defined)
    (mode : CompileMode)
    (moduleName source : String) :
    (state.addNamedSource mode moduleName source).2.registry.Seeded defined := by
  unfold State.addNamedSource
  rw [State.registry_addSource]
  exact ((seeded.ensure moduleName).markLoaded _).grow _ (grows_compile _ _ _ _ _)

theorem perform
    (seeded : state.registry.Seeded defined)
    (room : ∀ table ∈ state.registry.modules, table.size < Module.maxVariables)
    {request : HostRequest}
    (prepares : request.Prepares)
    (isNew : ∀ name value, request.builtin? = some (name, value) → name ∉ defined.map Prod.fst) :
    (request.perform state).2.registry.Seeded (request.builtin?.toList ++ defined) := by
  cases prepares with
  | ensureModule moduleName => exact seeded.ensure moduleName
  | defineBuiltin name value =>
      exact seeded.defineBuiltin (isNew name value rfl) value fun table member =>
        .inr (room table member)
  | compile mode moduleName source =>
      have added := seeded.addNamedSource mode moduleName source
      simp only [HostRequest.perform, HostRequest.builtin?, Option.toList_none, List.nil_append]
      split <;> rename_i outcome <;> rw [outcome] at added <;> exact added

/-- Whatever the order of the requests, the modules are seeded in the end. -/
theorem performAll
    (seeded : state.registry.Seeded defined)
    {requests : List HostRequest}
    (prepares : ∀ request ∈ requests, request.Prepares)
    (distinct :
      (((requests.filterMap HostRequest.builtin?).reverse ++ defined).map Prod.fst).Nodup)
    (room :
      ∀ table ∈ (state.performAll requests).registry.modules, table.size < Module.maxVariables) :
    (state.performAll requests).registry.Seeded
      ((requests.filterMap HostRequest.builtin?).reverse ++ defined) := by
  induction requests generalizing state defined with
  | nil => exact seeded
  | cons request rest induction =>
      have before := State.room_of_performAll seeded.consistent room
      have split :
          ((request :: rest).filterMap HostRequest.builtin?).reverse ++ defined =
            (rest.filterMap HostRequest.builtin?).reverse ++
              (request.builtin?.toList ++ defined) := by
        rcases isBuiltin : request.builtin? with _ | pair
        · rw [List.filterMap_cons_none isBuiltin]
          rfl
        · rw [List.filterMap_cons_some isBuiltin, List.reverse_cons, List.append_assoc]
          rfl
      rw [split] at distinct ⊢
      apply induction _ (fun other member =>
        prepares other (List.mem_cons_of_mem _ member)) distinct
        room
      apply seeded.perform before (prepares request List.mem_cons_self)
      intro name value isBuiltin
      rw [isBuiltin, List.map_append] at distinct
      exact (List.nodup_cons.mp (List.nodup_append.mp distinct).2.1).1

end Registry.Seeded

/--
However creations of modules, definitions of built-in variables and compilations follow each
other, in the end every module has all built-in variables with their values.  A definition
at any time changes, in each module, no other variable: it assigns the variable in the seed,
and in another module unless it has a value there.  A module without the name is left as
it is if it is full, and nothing but the contents of the modules changes.
-/
theorem builtins_reach_every_module :
    (∀ requests : List HostRequest,
        (∀ request ∈ requests, request.Prepares) →
        ((requests.filterMap HostRequest.builtin?).map Prod.fst).Nodup →
        (∀ table ∈ (State.performAll {} requests).registry.modules, table.size < 65536) →
          ∀ name value,
            .defineBuiltin name value ∈ requests →
              ∀ table ∈ (State.performAll {} requests).registry.modules,
                table.getByName? name = some value) ∧
      ∀ (environment : Environment) (supply : Supply) (machine : Machine),
        machine.Arises environment supply →
          ∀ name value,
            ∃ registry,
              (HostRequest.defineBuiltin name value).perform machine.state =
                  (.null, { machine.state with registry }) ∧
                registry.index = machine.state.registry.index ∧
                registry.modules.size = machine.state.registry.modules.size ∧
                ∀ (id : Nat) (table : Module),
                  machine.state.registry.modules[id]? = some table →
                    ∃ later,
                      registry.modules[id]? = some later ∧
                        Registry.Defined name value (id = Registry.builtin) table later := by
  constructor
  · intro requests prepares distinct room name value isRequested table member
    have seeded : (State.performAll {} requests).registry.Seeded
        ((requests.filterMap HostRequest.builtin?).reverse ++ []) := by
      apply Registry.Seeded.performAll .initial prepares _ room
      rw [List.append_nil, List.map_reverse, List.nodup_reverse]
      exact distinct
    apply seeded.bound table member
    rw [List.append_nil, List.mem_reverse]
    exact List.mem_filterMap.mpr ⟨_, isRequested, rfl⟩
  · intro environment supply machine arises name value
    refine ⟨_, rfl, rfl, ?_, ?_⟩
    · exact Array.size_mapIdx
    · intro id table here
      exact Registry.defined_defineBuiltin arises.consistent name value here

/-- A module has been compiled against the name before the name is defined, and another is new. -/
def latelyDefined : List HostRequest :=
  [.ensureModule "m", .compile .run "m" "x;", .defineBuiltin "x" (.bool true), .ensureModule "n"]

theorem latelyDefined_reaches_every_module :
    (∀ table ∈ (State.performAll {} latelyDefined).registry.modules,
        table.getByName? "x" = some (.bool true)) ∧
      ∃ registry,
        (HostRequest.defineBuiltin "Map" .null).perform Machine.equipped.state =
            (.null, { Machine.equipped.state with registry }) ∧
          ∀ (id : Nat) (table : Module),
            Machine.equipped.state.registry.modules[id]? = some table →
              ∃ later,
                registry.modules[id]? = some later ∧
                  Registry.Defined "Map" .null (id = Registry.builtin) table later := by
  have prepares : ∀ request ∈ latelyDefined, request.Prepares := by
    unfold latelyDefined
    simp only [List.forall_mem_cons, List.not_mem_nil]
    exact ⟨.ensureModule "m", .compile .run "m" "x;", .defineBuiltin "x" _,
      .ensureModule "n", nofun⟩
  have sizes :
      (State.performAll {} latelyDefined).registry.modules.map Module.size = #[1, 1, 1] := by
    cbv
  have room :
      ∀ table ∈ (State.performAll {} latelyDefined).registry.modules, table.size < 65536 := by
    intro table member
    have known := Array.mem_map_of_mem (f := Module.size) member
    rw [sizes] at known
    simp at known
    rw [known]
    decide
  constructor
  · exact builtins_reach_every_module.1 latelyDefined prepares (by decide) room "x" (.bool true)
      (by unfold latelyDefined; simp)
  · rcases builtins_reach_every_module.2 quietEnvironment .compiled Machine.equipped
      ⟨_, .equipped, .refl⟩ "Map" .null with ⟨registry, performed, -, -, each⟩
    exact ⟨registry, performed, each⟩

/-! ## A full seed -/

/-- The name of a variable that fills a slot. -/
def fillerName (number : Nat) : String :=
  "v" ++ toString number

/-- Requests that give variables to the seed. -/
def crowding (count : Nat) : List HostRequest :=
  (List.range count).map fun number => .defineVariable "" (fillerName number) .null

/-- A table to which nothing but a number of such variables has been added. -/
structure Module.Crowded (first : Module) (count : Nat) (table : Module) : Prop
    extends table.Indexed where
  size_eq : table.size = first.size + count
  filled :
    ∀ name slot,
      table.find? name = some slot →
        (first.find? name).isSome = true ∨ ∃ number, number < count ∧ name = fillerName number

theorem fillerName_injective : fillerName.Injective := by
  intro first second same
  apply Nat.repr_inj.mp
  apply String.toList_inj.mp
  have split := congrArg String.toList same
  unfold fillerName at split
  rw [String.toList_append, String.toList_append] at split
  exact List.append_cancel_left split

theorem head_fillerName (number : Nat) : (fillerName number).toList.head? = some 'v' := by
  unfold fillerName
  rw [String.toList_append]
  rfl

section

variable {first table : Module} {count : Nat}

theorem Module.Crowded.define
    (crowded : Module.Crowded first count table)
    (spare : ∀ number, first.find? (fillerName number) = none)
    (room : first.size + count < maxVariables)
    (value : Value) :
    Module.Crowded first (count + 1) (Registry.define table (fillerName count) value).2 := by
  have missing : table.find? (fillerName count) = none := by
    rcases found : table.find? (fillerName count) with _ | slot
    · rfl
    · rcases crowded.filled _ slot found with before | ⟨number, less, same⟩
      · rw [spare] at before
        cases before
      · exact absurd (fillerName_injective same) (Nat.ne_of_gt less)
  rcases declare_cases table (fillerName count) with
    ⟨slot, found, -⟩ | ⟨-, -, appended⟩ | ⟨-, full, -⟩
  · cases missing.symm.trans found
  · refine ⟨Registry.indexed_define crowded.toIndexed _ value, ?_, ?_⟩
    · rw [Registry.size_define, appended, size_append, crowded.size_eq, Nat.add_assoc]
    · intro name slot found
      have finds : (Registry.define table (fillerName count) value).2.find? name =
          (table.append (fillerName count)).find? name := by
        unfold Registry.define
        rw [appended]
        rfl
      rw [finds, find?_append] at found
      split at found
      · rename_i same
        exact .inr ⟨count, Nat.lt_succ_self count, same.symm⟩
      · rcases crowded.filled name slot found with before | ⟨number, less, isNamed⟩
        · exact .inl before
        · exact .inr ⟨number, Nat.lt_succ_of_lt less, isNamed⟩
  · rw [crowded.size_eq] at full
    exact absurd room full

/-- The fillers are all that is added to a machine that has no module but the seed. -/
theorem exists_crowded
    {state : State}
    (alone : state.registry.modules = #[first])
    (found : state.registry.find? "" = some 0)
    (indexed : first.Indexed)
    (spare : ∀ number, first.find? (fillerName number) = none)
    (bounded : first.size + count ≤ Module.maxVariables) :
    ∃ table : Module,
      (state.performAll (crowding count)).registry =
          { state.registry with modules := #[table] } ∧
        Module.Crowded first count table := by
  induction count with
  | zero =>
      refine ⟨first, ?_, indexed, rfl, ?_⟩
      · rw [← alone]
        rfl
      · intro name slot isFound
        exact .inl (by rw [isFound]; rfl)
  | succ count induction =>
      rcases induction (Nat.le_of_succ_le bounded) with ⟨table, same, crowded⟩
      refine ⟨_, ?_, crowded.define spare bounded .null⟩
      have last :
          crowding (count + 1) =
            crowding count ++ [HostRequest.defineVariable "" (fillerName count) .null] := by
        unfold crowding
        rw [List.range_succ, List.map_append]
        rfl
      rw [last, State.performAll_concat]
      change (Registry.defineVariable _ "" (fillerName count) .null).2 = _
      rw [same]
      unfold Registry.defineVariable Registry.ensure
      have stillFound : Registry.find? { state.registry with modules := #[table] } "" = some 0 :=
        found
      rw [stillFound]
      rfl

end

theorem Machine.Fresh.arises_performAll
    {machine : Machine}
    (fresh : machine.Fresh)
    (environment : Environment)
    (requests : List HostRequest) :
    ({ machine with state := machine.state.performAll requests } : Machine).Arises environment
      .compiled := by
  have idle : machine.control.isEnded = true := by
    cases fresh <;> rfl
  induction requests using List.reverseRecOn with
  | nil => exact ⟨machine, fresh, .refl⟩
  | append_singleton requests request induction =>
      rcases induction with ⟨first, isFirst, leads⟩
      refine ⟨first, isFirst, leads.tail ?_⟩
      rw [State.performAll_concat]
      let before : Machine := { machine with state := machine.state.performAll requests }
      have stillIdle : before.control.isEnded = true := idle
      exact .request stillIdle (.of_forall (fun _ => trivial) request)

/-- The seed that the built-in classes leave. -/
def equippedSeed : Module :=
  Machine.equipped.state.registry.moduleAt Registry.builtin

theorem equippedSeed_names : equippedSeed.names = #["Array", "Map"] := by
  cbv

theorem equippedSeed_alone : Machine.equipped.state.registry.modules = #[equippedSeed] := by
  have single : Machine.equipped.state.registry.modules.size = 1 := by
    cbv
  obtain ⟨table, same⟩ := Array.size_eq_one_iff.mp single
  unfold equippedSeed Registry.moduleAt
  rw [same]
  rfl

theorem equippedSeed_indexed : equippedSeed.Indexed := by
  apply Module.Consistent.toIndexed
  apply Machine.Fresh.equipped.consistent.modules
  rw [equippedSeed_alone]
  exact Array.mem_singleton.mpr rfl

/-- A name that begins otherwise than those of the built-in classes is free. -/
theorem equippedSeed_lacks
    {name : String}
    (isArray : name ≠ "Array")
    (isMap : name ≠ "Map") :
    equippedSeed.find? name = none := by
  rcases found : equippedSeed.find? name with _ | slot
  · rfl
  · have named := Array.mem_of_getElem? (equippedSeed_indexed.named name slot found)
    rw [equippedSeed_names] at named
    simp [isArray, isMap] at named

/-- A machine with the built-in classes whose seed has as many variables as a module can have. -/
def crowdedMachine : Machine :=
  { Machine.equipped with
    state := Machine.equipped.state.performAll (crowding (Module.maxVariables - 2)) }

/-- There is no room for another built-in variable, not even in the seed. -/
theorem crowdedMachine_refuses_builtin :
    crowdedMachine.Arises quietEnvironment .compiled ∧
      (((HostRequest.defineBuiltin "late" (.bool true)).perform
          crowdedMachine.state).2.registry.moduleAt Registry.builtin).getByName? "late" = none := by
  refine ⟨Machine.Fresh.equipped.arises_performAll _ _, ?_⟩
  have spare (number : Nat) : equippedSeed.find? (fillerName number) = none := by
    apply equippedSeed_lacks <;>
      exact fun same => absurd (head_fillerName number) (by rw [same]; decide)
  have size_eq : equippedSeed.size = 2 := by
    cbv
  have found : Machine.equipped.state.registry.find? "" = some 0 := by
    cbv
  have bounded : equippedSeed.size + (Module.maxVariables - 2) ≤ Module.maxVariables := by
    rw [size_eq]
    decide
  rcases exists_crowded equippedSeed_alone found equippedSeed_indexed spare bounded with
    ⟨table, same, crowded⟩
  have missing : table.find? "late" = none := by
    rcases isFound : table.find? "late" with _ | slot
    · rfl
    · rcases crowded.filled _ slot isFound with before | ⟨number, -, isFiller⟩
      · rw [equippedSeed_lacks (by decide) (by decide)] at before
        cases before
      · have letter := head_fillerName number
        rw [← isFiller] at letter
        exact absurd letter (by decide)
  have refuses : ¬ table.Takes "late" := by
    rintro (isFound | room)
    · rw [missing] at isFound
      cases isFound
    · rw [crowded.size_eq, size_eq] at room
      exact Nat.lt_irrefl _ room
  unfold crowdedMachine
  simp only [HostRequest.perform, Registry.defineBuiltin, same]
  show (Registry.define table "late" (.bool true)).2.getByName? "late" = none
  rw [Registry.define_of_not_takes refuses]
  exact Module.getByName?_of_missing missing

end ScriptEngine
