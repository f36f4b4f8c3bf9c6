import ScriptEngine.Proofs.Code.Pool
import ScriptEngine.Proofs.Machine.Contents

/-!
# References to functions

A value that names a function must name one that is in the heap.  `Value.Refers`
says so relative to the number of functions, which only grows.  The predicate is
lifted to everything that stores values, together with the other facts about heap
and modules that hold at any time: which containers are locked, and that the
tables of modules are in order.
-/

namespace ScriptEngine

/-- Every function that a value names is among the first `known` ones. -/
def Value.Refers (known : Nat) : Value → Prop
  | .function id => id < known
  | .boundMethod _ receiver method => receiver.Refers known ∧ method.Refers known
  | _ => True

theorem Value.refers_null (known : Nat) : Value.null.Refers known :=
  trivial

theorem Value.Refers.mono
    {known more : Nat}
    (bound : known ≤ more)
    {value : Value}
    (refers : value.Refers known) :
    value.Refers more := by
  induction value with
  | function id => exact Nat.lt_of_lt_of_le refers bound
  | boundMethod _ receiver method receiverRefers methodRefers =>
      exact ⟨receiverRefers refers.1, methodRefers refers.2⟩
  | _ => trivial

instance (known : Nat) : Value.Pervasive (Value.Refers known) where
  plain := by
    intro value isPlain
    cases value with
    | undefined | function | boundMethod => cases isPlain
    | _ => trivial

/-- All values of a table refer to functions. -/
abbrev Table.Refers (known : Nat) (table : Table) : Prop :=
  Table.Each (Value.Refers known) table

/-- All values inside native data refer to functions. -/
abbrev NativeData.Refers (known : Nat) (data : NativeData) : Prop :=
  data.Each (Value.Refers known)

/-- All values of a class refer to functions. -/
abbrev Class.Refers (known : Nat) (owner : Class) : Prop :=
  owner.Each (Value.Refers known)

/-- All values of an instance refer to functions. -/
abbrev Object.Refers (known : Nat) (object : Object) : Prop :=
  object.Each (Value.Refers known)

/-- The value of an outcome refers to functions. -/
abbrev OutcomeRefers (known : Nat) (outcome : Except ε Value) : Prop :=
  OutcomeEach (Value.Refers known) outcome

/-! ## The heap -/

/-- Classes and instances refer to functions, and only containers in `held` are locked. -/
structure Heap.Sound (known : Nat) (held : List Nat) (heap : Heap) : Prop where
  classes : ∀ owner ∈ heap.classes, owner.Refers known
  objects : ∀ object ∈ heap.objects, object.Refers known
  locks : ∀ id, (heap.objectAt id).locked = true → id ∈ held

namespace Heap

theorem objectAt_modify
    (heap : Heap)
    (position id : Nat)
    (change : Object → Object) :
    { heap with objects := heap.objects.modify position change }.objectAt id =
      if position = id ∧ id < heap.objects.size then change (heap.objectAt id)
      else heap.objectAt id := by
  unfold objectAt
  simp only [Array.getD_eq_getD_getElem?, Array.getElem?_modify]
  by_cases inside : id < heap.objects.size
  · by_cases same : position = id <;> simp [inside, same]
  · simp [inside]

/-- Only what is in the heap can be locked. -/
theorem lt_of_locked
    {heap : Heap}
    {id : Nat}
    (isLocked : (heap.objectAt id).locked = true) :
    id < heap.objects.size := by
  unfold objectAt at isLocked
  rw [Array.getD_eq_getD_getElem?] at isLocked
  rcases found : heap.objects[id]? with _ | object
  · rw [found] at isLocked
    cases isLocked
  · exact (Array.getElem?_eq_some_iff.mp found).1

namespace Sound

variable {known more : Nat} {held : List Nat} {heap : Heap}

theorem each (sound : heap.Sound known held) : heap.Each (Value.Refers known) :=
  ⟨sound.classes, sound.objects⟩

theorem mono (sound : heap.Sound known held) (bound : known ≤ more) : heap.Sound more held where
  classes := (sound.each.mono fun _ => Value.Refers.mono bound).classes
  objects := (sound.each.mono fun _ => Value.Refers.mono bound).objects
  locks := sound.locks

theorem classAt (sound : heap.Sound known held) (id : Nat) : (heap.classAt id).Refers known :=
  sound.each.classAt id

theorem objectAt (sound : heap.Sound known held) (id : Nat) : (heap.objectAt id).Refers known :=
  sound.each.objectAt id

/-- A change that locks no instance. -/
theorem of_each
    {after : Heap}
    (sound : heap.Sound known held)
    (each : after.Each (Value.Refers known))
    (locks : ∀ id, (after.objectAt id).locked = true → (heap.objectAt id).locked = true) :
    after.Sound known held where
  classes := each.classes
  objects := each.objects
  locks := fun id isLocked => sound.locks id (locks id isLocked)

/-- A change of one instance that neither locks nor unlocks it. -/
theorem locked_of_modify
    (change : Object → Object)
    (locked : ∀ object, (change object).locked = object.locked)
    {position id : Nat}
    (isLocked :
      ({ heap with objects := heap.objects.modify position change }.objectAt id).locked = true) :
    (heap.objectAt id).locked = true := by
  rw [objectAt_modify] at isLocked
  split at isLocked
  · rwa [locked] at isLocked
  · exact isLocked

theorem setField
    (sound : heap.Sound known held)
    (id : Nat)
    (name : String)
    {value : Value}
    (refers : value.Refers known) :
    (heap.setField id name value).Sound known held := by
  apply sound.of_each (sound.each.setField id name refers)
  intro other
  exact locked_of_modify
    (fun object => { object with fields := object.fields.insert name value }) fun _ => rfl

theorem setData
    (sound : heap.Sound known held)
    (id : Nat)
    {data : NativeData}
    (refers : data.Refers known) :
    (heap.setData id data).Sound known held := by
  apply sound.of_each (sound.each.setData id refers)
  intro other
  exact locked_of_modify (fun object => { object with data := some data }) fun _ => rfl

theorem setMethod
    (sound : heap.Sound known held)
    (id : Nat)
    (name : String)
    {method : Value}
    (refers : method.Refers known) :
    (heap.setMethod id name method).Sound known held :=
  sound.of_each (sound.each.setMethod id name refers) fun _ same => same

theorem setStatic
    (sound : heap.Sound known held)
    (id : Nat)
    (name : String)
    {method : Value}
    (refers : method.Refers known) :
    (heap.setStatic id name method).Sound known held :=
  sound.of_each (sound.each.setStatic id name refers) fun _ same => same

theorem lock (sound : heap.Sound known held) (id : Nat) :
    (heap.setLocked id true).Sound known (id :: held) where
  classes := sound.classes
  objects := (sound.each.setLocked id true).objects
  locks := by
    intro other isLocked
    unfold setLocked at isLocked
    rw [objectAt_modify] at isLocked
    split at isLocked
    · rename_i here
      rw [here.1]
      exact List.mem_cons_self
    · exact List.mem_cons_of_mem id (sound.locks other isLocked)

theorem unlock (sound : heap.Sound known held) (id : Nat) :
    (heap.setLocked id false).Sound known (held.filter (· ≠ id)) where
  classes := sound.classes
  objects := (sound.each.setLocked id false).objects
  locks := by
    intro other isLocked
    unfold setLocked at isLocked
    rw [objectAt_modify] at isLocked
    split at isLocked
    · cases isLocked
    · rename_i elsewhere
      have inside : other < heap.objects.size := lt_of_locked isLocked
      apply List.mem_filter.mpr
      constructor
      · exact sound.locks other isLocked
      · exact decide_eq_true fun same => elsewhere ⟨same.symm, inside⟩

theorem addClass
    (sound : heap.Sound known held)
    {owner : Class}
    (refers : owner.Refers known) :
    (heap.addClass owner).2.Sound known held :=
  sound.of_each (sound.each.addClass refers) fun _ same => same

theorem addObject (sound : heap.Sound known held) (classId : Nat) :
    (heap.addObject classId).2.Sound known held := by
  apply sound.of_each (sound.each.addObject classId)
  intro id isLocked
  unfold Heap.objectAt Heap.addObject at isLocked
  unfold Heap.objectAt
  rw [Array.getD_eq_getD_getElem?, Array.getElem?_push] at isLocked
  rw [Array.getD_eq_getD_getElem?]
  split at isLocked
  · cases isLocked
  · exact isLocked

end Sound

/-- Changing native data in place locks nothing. -/
theorem locked_of_updateData
    {heap : Heap}
    {refused : α}
    {change : NativeData → α × NativeData}
    {position id : Nat}
    (isLocked : ((heap.updateData position refused change).2.objectAt id).locked = true) :
    (heap.objectAt id).locked = true := by
  unfold Heap.updateData at isLocked
  split at isLocked
  · simp only [Array.setIfInBounds_setIfInBounds] at isLocked
    unfold Heap.objectAt at isLocked ⊢
    rw [Array.getD_eq_getD_getElem?, Array.getElem?_setIfInBounds] at isLocked
    rw [Array.getD_eq_getD_getElem?]
    split at isLocked
    · split at isLocked <;> cases isLocked
    · exact isLocked
  · exact isLocked

theorem Sound.updateData
    {known : Nat}
    {held : List Nat}
    {heap : Heap}
    (sound : heap.Sound known held)
    {refused : α}
    {change : NativeData → α × NativeData}
    (keeps : ∀ data, data.Refers known → (change data).2.Refers known)
    (id : Nat) :
    (heap.updateData id refused change).2.Sound known held :=
  sound.of_each (sound.each.updateData keeps id) fun _ => locked_of_updateData

end Heap

/-! ## Methods of arrays and maps -/

namespace Container

variable
  {known : Nat}
  {held : List Nat}
  {heap : Heap}
  {receiver : Value}
  {arguments : List Value}

theorem runSequence_sound
    (sound : heap.Sound known held)
    (receiverRefers : receiver.Refers known)
    (refer : ∀ argument ∈ arguments, argument.Refers known)
    (method : SequenceMethod) :
    OutcomeRefers known (runSequence method receiver arguments heap).1 ∧
      (runSequence method receiver arguments heap).2.Sound known held := by
  rcases runSequence_each sound.each receiverRefers refer method with ⟨outcome, each⟩
  refine ⟨outcome, sound.of_each each fun id isLocked => ?_⟩
  unfold runSequence at isLocked
  split at isLocked
  · exact Heap.locked_of_updateData isLocked
  · exact isLocked

theorem runDictionary_sound
    (sound : heap.Sound known held)
    (receiver : Value)
    (arguments : List Value)
    (method : DictionaryMethod) :
    OutcomeRefers known (runDictionary method receiver arguments heap).1 ∧
      (runDictionary method receiver arguments heap).2.Sound known held := by
  rcases runDictionary_each sound.each receiver arguments method with ⟨outcome, each⟩
  refine ⟨outcome, sound.of_each each fun id isLocked => ?_⟩
  unfold runDictionary at isLocked
  split at isLocked
  · exact Heap.locked_of_updateData isLocked
  · exact isLocked

end Container

/-! ## Modules -/

/-- The table of a module is in order, and its values refer to functions. -/
structure Module.Sound (known : Nat) (table : Module) : Prop where
  indexed : table.Indexed
  values : ∀ value ∈ table.values, value.Refers known

namespace Module.Sound

variable {known more : Nat} {table : Module}

theorem mono (sound : table.Sound known) (bound : known ≤ more) : table.Sound more where
  indexed := sound.indexed
  values := fun value member => (sound.values value member).mono bound

theorem values_declare
    (refer : ∀ value ∈ table.values, value.Refers known)
    (name : String) :
    ∀ value ∈ (table.declare name).2.values, value.Refers known := by
  unfold Module.declare
  split
  · exact refer
  · simp only
    split
    · exact forall_mem_push refer trivial
    · exact refer

theorem declare (sound : table.Sound known) (name : String) :
    (table.declare name).2.Sound known where
  indexed := sound.indexed.declare name
  values := values_declare sound.values name

theorem set
    (sound : table.Sound known)
    (slot : Nat)
    {value : Value}
    (refers : value.Refers known) :
    (table.set slot value).Sound known where
  indexed := sound.indexed.set slot value
  values := forall_mem_setIfInBounds sound.values refers slot

theorem eq_of_get?_set
    {slot : Nat}
    {value content : Value}
    (found : (table.set slot value).get? slot = some content) :
    content = value := by
  unfold Module.set Module.get? at found
  rw [Array.getElem?_setIfInBounds_self] at found
  split at found
  · exact (Option.some.inj found).symm
  · cases found

theorem relabelled (sound : table.Sound known) (name : String) (loaded : Bool) :
    { table with name, loaded }.Sound known where
  indexed := sound.indexed.relabelled name loaded
  values := sound.values

theorem assigned
    (sound : table.Sound known)
    {slot : Nat}
    {value : Value}
    (found : table.assigned? slot = some value) :
    value.Refers known := by
  rcases Option.filter_eq_some_iff.mp found with ⟨here, -⟩
  exact sound.values value (Array.mem_of_getElem? here)

theorem assignedByName
    (sound : table.Sound known)
    {name : String}
    {value : Value}
    (found : table.assignedByName? name = some value) :
    value.Refers known := by
  rcases Option.bind_eq_some_iff.mp found with ⟨slot, -, here⟩
  exact sound.assigned here

theorem values_define
    (refer : ∀ value ∈ table.values, value.Refers known)
    (name : String)
    {value : Value}
    (refers : value.Refers known) :
    ∀ other ∈ (Registry.define table name value).2.values, other.Refers known := by
  rcases Registry.define_cases table name value with ⟨slot, -, same⟩ | same
  · rw [same]
    exact forall_mem_setIfInBounds (values_declare refer name) refers slot
  · rw [same]
    exact values_declare refer name

theorem define
    (sound : table.Sound known)
    (name : String)
    {value : Value}
    (refers : value.Refers known) :
    (Registry.define table name value).2.Sound known where
  indexed := Registry.indexed_define sound.indexed name value
  values := values_define sound.values name refers

theorem offer
    (sound : table.Sound known)
    (name : String)
    {value : Value}
    (refers : value.Refers known) :
    (Registry.offer table name value).Sound known := by
  have declared := sound.declare name
  unfold Registry.offer
  split
  · rename_i same
    rw [same] at declared
    exact declared
  · rename_i slot after same
    rw [same] at declared
    split
    · exact declared.set slot refers
    · exact declared

end Module.Sound

/-- Every name stands for a module that is there, and every module is in order. -/
structure Registry.Sound (known : Nat) (registry : Registry) : Prop where
  nonempty : 0 < registry.modules.size
  inside : ∀ name id, registry.find? name = some id → id < registry.modules.size
  modules : ∀ table ∈ registry.modules, table.Sound known

namespace Registry

@[simp]
theorem size_modify (registry : Registry) (id : Nat) (change : Module → Module) :
    (registry.modify id change).modules.size = registry.modules.size :=
  Array.size_modify

@[simp]
theorem size_replace (registry : Registry) (id : Nat) (table : Module) :
    (registry.replace id table).modules.size = registry.modules.size :=
  Array.size_setIfInBounds

theorem size_le_ensure (registry : Registry) (name : String) :
    registry.modules.size ≤ (registry.ensure name).2.modules.size := by
  unfold ensure
  split
  · exact Nat.le_refl _
  · simp

theorem moduleAt_eq {registry : Registry} {id : Nat} (inside : id < registry.modules.size) :
    registry.moduleAt id = registry.modules[id] := by
  unfold moduleAt
  rw [Array.getD_eq_getD_getElem?, Array.getElem?_eq_getElem inside, Option.getD_some]

theorem moduleAt_modify
    {registry : Registry}
    {id : Nat}
    (inside : id < registry.modules.size)
    (change : Module → Module) :
    (registry.modify id change).moduleAt id = change (registry.moduleAt id) := by
  unfold moduleAt modify
  simp only [Array.getD_eq_getD_getElem?, Array.getElem?_modify, if_true,
    Array.getElem?_eq_getElem inside, Option.map_some, Option.getD_some]

theorem moduleAt_replace
    {registry : Registry}
    {id : Nat}
    (inside : id < registry.modules.size)
    (table : Module) :
    (registry.replace id table).moduleAt id = table := by
  simp [moduleAt, replace, inside]

/-- The module of a name is found after it has been created. -/
theorem find?_ensure (registry : Registry) (name : String) :
    (registry.ensure name).2.find? name = some (registry.ensure name).1 := by
  unfold ensure
  split
  · assumption
  · simp [find?]

namespace Sound

variable {known more : Nat} {registry : Registry}

theorem mono (sound : registry.Sound known) (bound : known ≤ more) : registry.Sound more where
  nonempty := sound.nonempty
  inside := sound.inside
  modules := fun table member => (sound.modules table member).mono bound

theorem moduleAt
    (sound : registry.Sound known)
    {id : Nat}
    (inside : id < registry.modules.size) :
    (registry.moduleAt id).Sound known := by
  rw [moduleAt_eq inside]
  exact sound.modules _ (Array.getElem_mem inside)

/-- A module that is not there has no values. -/
theorem assignedByName
    (sound : registry.Sound known)
    {id : Nat}
    {name : String}
    {value : Value}
    (found : (registry.moduleAt id).assignedByName? name = some value) :
    value.Refers known := by
  by_cases inside : id < registry.modules.size
  · exact (sound.moduleAt inside).assignedByName found
  · have missing : registry.moduleAt id = default := by
      unfold Registry.moduleAt
      rw [Array.getD_eq_getD_getElem?, Array.getElem?_eq_none (Nat.le_of_not_lt inside)]
      rfl
    rw [missing] at found
    rcases Option.bind_eq_some_iff.mp found with ⟨slot, isSlot, -⟩
    simp [Module.find?, show (default : Module).index = ∅ from rfl] at isSlot

theorem modify
    (sound : registry.Sound known)
    {change : Module → Module}
    (keeps : ∀ table, table.Sound known → (change table).Sound known)
    (id : Nat) :
    (registry.modify id change).Sound known where
  nonempty := by
    rw [size_modify]
    exact sound.nonempty
  inside := by
    intro name found isFound
    rw [size_modify]
    exact sound.inside name found isFound
  modules := forall_mem_modify sound.modules keeps id

theorem replace
    (sound : registry.Sound known)
    {table : Module}
    (tableSound : table.Sound known)
    (id : Nat) :
    (registry.replace id table).Sound known where
  nonempty := by
    rw [size_replace]
    exact sound.nonempty
  inside := by
    intro name found isFound
    rw [size_replace]
    exact sound.inside name found isFound
  modules := forall_mem_setIfInBounds sound.modules tableSound id

theorem markLoaded (sound : registry.Sound known) (id : Nat) :
    (registry.modify id Module.markLoaded).Sound known :=
  sound.modify (fun table old => old.relabelled table.name true) id

theorem ensure (sound : registry.Sound known) (name : String) :
    (registry.ensure name).2.Sound known ∧
      (registry.ensure name).1 < (registry.ensure name).2.modules.size := by
  unfold Registry.ensure
  split
  · rename_i id found
    exact ⟨sound, sound.inside name id found⟩
  · refine ⟨⟨?_, ?_, ?_⟩, ?_⟩
    · simp
    · intro other id found
      unfold find? at found
      simp only [Std.TreeMap.getElem?_insert] at found
      rw [Array.size_push]
      split at found
      · cases found
        exact Nat.lt_succ_self _
      · exact Nat.lt_succ_of_lt (sound.inside other id found)
    · apply forall_mem_push sound.modules
      exact (sound.moduleAt sound.nonempty).relabelled name false
    · simp

theorem defineBuiltin
    (sound : registry.Sound known)
    (name : String)
    {value : Value}
    (refers : value.Refers known) :
    (registry.defineBuiltin name value).Sound known where
  nonempty := by
    simp only [Registry.defineBuiltin, Array.size_mapIdx]
    exact sound.nonempty
  inside := by
    intro other id found
    simp only [Registry.defineBuiltin, Array.size_mapIdx]
    exact sound.inside other id found
  modules := by
    intro table member
    rcases Array.mem_mapIdx.mp member with ⟨id, inside, rfl⟩
    have old := sound.modules _ (Array.getElem_mem inside)
    split
    · exact old.define name refers
    · exact old.offer name refers

theorem defineVariable
    (sound : registry.Sound known)
    (moduleName name : String)
    {value : Value}
    (refers : value.Refers known) :
    (registry.defineVariable moduleName name value).2.Sound known := by
  rcases sound.ensure moduleName with ⟨ensured, inside⟩
  exact ensured.replace ((ensured.moduleAt inside).define name refers) _

theorem assign
    (sound : registry.Sound known)
    {moduleName name : String}
    {value : Value}
    (refers : value.Refers known)
    {after : Registry}
    (assigned : registry.assign? moduleName name value = some after) :
    after.Sound known ∧ after.modules.size = registry.modules.size := by
  unfold assign? at assigned
  rcases Option.bind_eq_some_iff.mp assigned with ⟨id, -, found⟩
  rcases Option.bind_eq_some_iff.mp found with ⟨slot, -, same⟩
  cases same
  exact ⟨sound.modify (fun _ old => old.set slot refers) id, size_modify _ _ _⟩

end Sound

end Registry

end ScriptEngine
