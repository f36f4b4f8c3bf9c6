import ScriptEngine.Machine.Container
import ScriptEngine.Machine.HostProgram

/-!
# What heap and native data contain

A property of values is lifted to everything that stores values: tables of names,
native data, classes, instances, the heap and the requests of host routines.  What
arrays, maps and the heap give out has the property if what they were given has it
and if plain values do (`Value.Pervasive`).  Nothing here depends on the property.
-/

namespace ScriptEngine

/-! ## Items of an array -/

theorem forall_mem_modify
    {items : Array α}
    {holds : α → Prop}
    {change : α → α}
    (each : ∀ item ∈ items, holds item)
    (keeps : ∀ item, holds item → holds (change item))
    (position : Nat) :
    ∀ item ∈ items.modify position change, holds item := by
  intro item member
  rcases Array.mem_iff_getElem?.mp member with ⟨place, found⟩
  rw [Array.getElem?_modify] at found
  split at found
  · rcases Option.map_eq_some_iff.mp found with ⟨old, here, rfl⟩
    exact keeps old (each old (Array.mem_of_getElem? here))
  · exact each item (Array.mem_of_getElem? found)

theorem forall_mem_setIfInBounds
    {items : Array α}
    {holds : α → Prop}
    {new : α}
    (each : ∀ item ∈ items, holds item)
    (holdsNew : holds new)
    (position : Nat) :
    ∀ item ∈ items.setIfInBounds position new, holds item := by
  intro item member
  rcases Array.mem_or_eq_of_mem_setIfInBounds member with old | rfl
  · exact each item old
  · exact holdsNew

theorem forall_mem_push
    {items : Array α}
    {holds : α → Prop}
    {new : α}
    (each : ∀ item ∈ items, holds item)
    (holdsNew : holds new) :
    ∀ item ∈ items.push new, holds item := by
  intro item member
  rcases Array.mem_push.mp member with old | rfl
  · exact each item old
  · exact holdsNew

theorem holds_getD
    {items : Array α}
    {holds : α → Prop}
    {other : α}
    (each : ∀ item ∈ items, holds item)
    (holdsOther : holds other)
    (position : Nat) :
    holds (items.getD position other) := by
  rw [Array.getD_eq_getD_getElem?]
  rcases found : items[position]? with _ | item
  · exact holdsOther
  · exact each item (Array.mem_of_getElem? found)

theorem mem_of_mem_pop
    {items : Array α}
    {item : α}
    (member : item ∈ items.pop) :
    item ∈ items := by
  rcases Array.mem_iff_getElem?.mp member with ⟨place, found⟩
  rw [Array.getElem?_pop] at found
  split at found
  · exact Array.mem_of_getElem? found
  · cases found

theorem mem_of_mem_shrink
    {items : Array α}
    {size : Nat}
    {item : α}
    (member : item ∈ items.shrink size) :
    item ∈ items := by
  rw [← Array.mem_toList_iff, Array.toList_shrink] at member
  exact Array.mem_toList_iff.mp (List.mem_of_mem_take member)

/-! ## Plain values -/

/-- Whether a value names no function and no instance and has no parts. -/
def Value.isPlain : Value → Bool
  | undefined | function _ | object _ | boundMethod _ _ _ => false
  | _ => true

/-- A property that all plain values have. -/
class Value.Pervasive (good : Value → Prop) : Prop where
  plain : ∀ value : Value, value.isPlain = true → good value

open Value.Pervasive (plain)

/-- The value of an outcome has a property. -/
def OutcomeEach (good : Value → Prop) (outcome : Except ε Value) : Prop :=
  ∀ value, outcome = .ok value → good value

/-! ## Tables -/

/-- All values of a table have a property. -/
def Table.Each (good : Value → Prop) (table : Table) : Prop :=
  ∀ (name : String) (value : Value), table[name]? = some value → good value

section Contents

variable {good better : Value → Prop}

namespace Table.Each

variable {table : Table}

theorem empty : Table.Each good ∅ := by
  intro name value found
  simp at found

theorem insert
    (each : Table.Each good table)
    (name : String)
    {value : Value}
    (new : good value) :
    Table.Each good (table.insert name value) := by
  intro other content found
  rw [Std.TreeMap.getElem?_insert] at found
  split at found
  · cases found
    exact new
  · exact each other content found

theorem mono (each : Table.Each good table) (implies : ∀ value, good value → better value) :
    Table.Each better table :=
  fun name value found => implies value (each name value found)

end Table.Each

/-! ## Native data -/

/-- All values inside native data have a property. -/
def NativeData.Each (good : Value → Prop) : NativeData → Prop
  | .sequence elements => ∀ value ∈ elements, good value
  | .dictionary entries => ∀ entry ∈ entries.entries, good entry.1 ∧ good entry.2
  | _ => True

namespace NativeData.Each

theorem of_forall (all : ∀ value, good value) (data : NativeData) : data.Each good := by
  cases data with
  | sequence elements => exact fun value _ => all value
  | dictionary entries => exact fun entry _ => ⟨all entry.1, all entry.2⟩
  | account | sealedBox | grid => trivial

theorem mono
    {data : NativeData}
    (each : data.Each good)
    (implies : ∀ value, good value → better value) :
    data.Each better := by
  cases data with
  | sequence elements => exact fun value member => implies value (each value member)
  | dictionary entries =>
      intro entry member
      exact ⟨implies _ (each entry member).1, implies _ (each entry member).2⟩
  | account | sealedBox | grid => trivial

theorem dictionary_set
    {entries : Dictionary}
    {key value : Value}
    (each : NativeData.Each good (.dictionary entries))
    (keyGood : good key)
    (valueGood : good value) :
    NativeData.Each good (.dictionary (entries.set key value)) := by
  unfold Dictionary.set
  split
  · intro entry member
    rcases List.mem_map.mp member with ⟨old, oldMember, rfl⟩
    split
    · exact ⟨(each old oldMember).1, valueGood⟩
    · exact each old oldMember
  · intro entry member
    rcases List.mem_append.mp member with old | new
    · exact each entry old
    · cases List.mem_singleton.mp new
      exact ⟨keyGood, valueGood⟩

theorem dictionary_erase
    {entries : Dictionary}
    (each : NativeData.Each good (.dictionary entries))
    (key : Value) :
    NativeData.Each good (.dictionary (entries.erase key)) :=
  fun entry member => each entry (List.mem_filter.mp member).1

theorem writeIndex
    {data : NativeData}
    {index value : Value}
    (each : data.Each good)
    (indexGood : good index)
    (valueGood : good value) :
    (data.writeIndex index value).2.Each good := by
  cases data with
  | sequence elements =>
      unfold NativeData.writeIndex Sequence.write
      simp only
      split
      · exact forall_mem_setIfInBounds each valueGood _
      · exact each
  | dictionary entries =>
      unfold NativeData.writeIndex Dictionary.write
      simp only
      split
      · exact dictionary_set each indexGood valueGood
      · exact each
  | grid last =>
      unfold NativeData.writeIndex
      simp only
      split <;> trivial
  | account | sealedBox => trivial

variable [pervasive : Value.Pervasive good]

include pervasive

theorem dictionary_get
    {entries : Dictionary}
    (each : NativeData.Each good (.dictionary entries))
    (key : Value) :
    good (entries.get key) := by
  unfold Dictionary.get
  rcases found : entries.find? key with _ | value
  · exact plain .null rfl
  · rcases Option.map_eq_some_iff.mp found with ⟨entry, here, rfl⟩
    exact (each entry (List.mem_of_find?_eq_some here)).2

theorem readIndex
    {data : NativeData}
    {index value : Value}
    (each : data.Each good)
    (read : data.readIndex index = .ok value) :
    good value := by
  cases data with
  | sequence elements =>
      change (Sequence.read elements index).mapError IndexProblem.message = .ok value at read
      unfold Sequence.read at read
      rcases position : Sequence.positionBelow elements.size index with problem | place
      · rw [position] at read
        cases read
      · rw [position] at read
        cases read
        exact holds_getD each (plain .null rfl) place
  | dictionary entries =>
      cases read
      exact dictionary_get each index
  | grid last =>
      cases index with
      | number =>
          cases read
          exact plain _ rfl
      | _ => cases read
  | account | sealedBox =>
      cases read
      exact plain .null rfl

theorem sequence_apply
    {elements : Array Value}
    {receiver first second : Value}
    (each : NativeData.Each good (.sequence elements))
    (receiverGood : good receiver)
    (firstGood : good first)
    (secondGood : good second)
    (method : SequenceMethod) :
    OutcomeEach good (method.apply receiver first second elements).1 ∧
      NativeData.Each good (.sequence (method.apply receiver first second elements).2) := by
  cases method with
  | push => exact ⟨by rintro _ ⟨⟩; exact receiverGood, forall_mem_push each firstGood⟩
  | pop =>
      constructor
      · rintro _ ⟨⟩
        rcases last : elements.back? with _ | value
        · exact plain .null rfl
        · exact each value (Array.mem_of_back? last)
      · exact fun value member => each value (mem_of_mem_pop member)
  | len => exact ⟨by rintro _ ⟨⟩; exact plain _ rfl, each⟩
  | insert =>
      unfold SequenceMethod.apply Sequence.insert
      simp only
      split
      · constructor
        · rintro _ ⟨⟩
          exact plain .null rfl
        · intro value member
          unfold Array.insertIdxIfInBounds at member
          split at member
          · simp only [Array.mem_insertIdx] at member
            rcases member with rfl | old
            · exact secondGood
            · exact each value old
          · exact each value member
      · exact ⟨nofun, each⟩
  | removeAt =>
      unfold SequenceMethod.apply Sequence.removeAt
      simp only
      split
      · constructor
        · rintro _ ⟨⟩
          exact holds_getD each (plain .null rfl) _
        · intro value member
          unfold Array.eraseIdxIfInBounds at member
          split at member
          · exact each value (Array.mem_of_mem_eraseIdx member)
          · exact each value member
      · exact ⟨nofun, each⟩
  | clear => exact ⟨by rintro _ ⟨⟩; exact plain .null rfl, nofun⟩

theorem dictionary_apply
    {entries : Dictionary}
    (each : NativeData.Each good (.dictionary entries))
    (method : DictionaryMethod)
    (key : Value) :
    good (method.apply key entries).1 ∧
      NativeData.Each good (.dictionary (method.apply key entries).2) := by
  cases method with
  | get => exact ⟨dictionary_get each key, each⟩
  | has => exact ⟨plain _ rfl, each⟩
  | remove => exact ⟨dictionary_get each key, dictionary_erase each key⟩
  | len => exact ⟨plain _ rfl, each⟩
  | clear => exact ⟨plain .null rfl, nofun⟩

end NativeData.Each

/-! ## The heap -/

/-- All values of a class have a property. -/
structure Class.Each (good : Value → Prop) (owner : Class) : Prop where
  methods : Table.Each good owner.methods
  statics : Table.Each good owner.statics
  template : ∀ data, owner.template = some data → data.Each good

/-- All values of an instance have a property. -/
structure Object.Each (good : Value → Prop) (object : Object) : Prop where
  fields : Table.Each good object.fields
  data : ∀ data, object.data = some data → data.Each good

theorem Class.each_default : (default : Class).Each good :=
  ⟨.empty, .empty, nofun⟩

theorem Object.each_default : (default : Object).Each good :=
  ⟨.empty, nofun⟩

theorem Class.Each.of_forall (all : ∀ value, good value) (owner : Class) : owner.Each good :=
  ⟨fun _ value _ => all value, fun _ value _ => all value, fun data _ => .of_forall all data⟩

theorem Class.Each.mono
    {owner : Class}
    (each : owner.Each good)
    (implies : ∀ value, good value → better value) :
    owner.Each better where
  methods := each.methods.mono implies
  statics := each.statics.mono implies
  template := fun data isData => (each.template data isData).mono implies

theorem Object.Each.mono
    {object : Object}
    (each : object.Each good)
    (implies : ∀ value, good value → better value) :
    object.Each better where
  fields := each.fields.mono implies
  data := fun data isData => (each.data data isData).mono implies

/-- All values of classes and instances have a property. -/
structure Heap.Each (good : Value → Prop) (heap : Heap) : Prop where
  classes : ∀ owner ∈ heap.classes, owner.Each good
  objects : ∀ object ∈ heap.objects, object.Each good

/-- What changing native data gives. -/
theorem Heap.updateData_cases
    (heap : Heap)
    (id : Nat)
    (refused : α)
    (change : NativeData → α × NativeData) :
    (heap.updateData id refused change).1 = refused ∨
      ∃ data,
        (heap.objectAt id).data = some data ∧
          (heap.updateData id refused change).1 = (change data).1 := by
  unfold Heap.updateData
  split
  · rename_i classId fields data here
    exact .inr ⟨data, by rw [here], rfl⟩
  · exact .inl rfl

@[simp]
theorem Heap.functions_updateData
    (heap : Heap)
    (id : Nat)
    (refused : α)
    (change : NativeData → α × NativeData) :
    (heap.updateData id refused change).2.functions = heap.functions := by
  unfold Heap.updateData
  split <;> rfl

namespace Heap.Each

variable {heap : Heap}

/-- A property of all values is one of the values in the heap. -/
theorem of_forall (all : ∀ value, good value) (heap : Heap) : heap.Each good where
  classes := fun owner _ => .of_forall all owner
  objects := fun _ _ => ⟨fun _ value _ => all value, fun data _ => .of_forall all data⟩

theorem mono (each : heap.Each good) (implies : ∀ value, good value → better value) :
    heap.Each better where
  classes := fun owner member => (each.classes owner member).mono implies
  objects := fun object member => (each.objects object member).mono implies

theorem classAt (each : heap.Each good) (id : Nat) : (heap.classAt id).Each good :=
  holds_getD each.classes Class.each_default id

theorem objectAt (each : heap.Each good) (id : Nat) : (heap.objectAt id).Each good :=
  holds_getD each.objects Object.each_default id

theorem modifyClass
    (each : heap.Each good)
    {change : Class → Class}
    (keeps : ∀ owner, owner.Each good → (change owner).Each good)
    (id : Nat) :
    Heap.Each good { heap with classes := heap.classes.modify id change } :=
  ⟨forall_mem_modify each.classes keeps id, each.objects⟩

theorem modifyObject
    (each : heap.Each good)
    {change : Object → Object}
    (keeps : ∀ object, object.Each good → (change object).Each good)
    (id : Nat) :
    Heap.Each good { heap with objects := heap.objects.modify id change } :=
  ⟨each.classes, forall_mem_modify each.objects keeps id⟩

theorem setField
    (each : heap.Each good)
    (id : Nat)
    (name : String)
    {value : Value}
    (isGood : good value) :
    (heap.setField id name value).Each good := by
  apply each.modifyObject
  intro object old
  exact ⟨old.fields.insert name isGood, old.data⟩

theorem setData
    (each : heap.Each good)
    (id : Nat)
    {data : NativeData}
    (isGood : data.Each good) :
    (heap.setData id data).Each good := by
  apply each.modifyObject
  intro object old
  exact ⟨old.fields, fun _ same => Option.some.inj same ▸ isGood⟩

theorem setLocked (each : heap.Each good) (id : Nat) (locked : Bool) :
    (heap.setLocked id locked).Each good := by
  apply each.modifyObject
  intro object old
  exact ⟨old.fields, old.data⟩

theorem setMethod
    (each : heap.Each good)
    (id : Nat)
    (name : String)
    {method : Value}
    (isGood : good method) :
    (heap.setMethod id name method).Each good := by
  apply each.modifyClass
  intro owner old
  exact ⟨old.methods.insert name isGood, old.statics, old.template⟩

theorem setStatic
    (each : heap.Each good)
    (id : Nat)
    (name : String)
    {method : Value}
    (isGood : good method) :
    (heap.setStatic id name method).Each good := by
  apply each.modifyClass
  intro owner old
  exact ⟨old.methods, old.statics.insert name isGood, old.template⟩

theorem addClass
    (each : heap.Each good)
    {owner : Class}
    (isGood : owner.Each good) :
    (heap.addClass owner).2.Each good :=
  ⟨forall_mem_push each.classes isGood, each.objects⟩

theorem addObject (each : heap.Each good) (classId : Nat) :
    (heap.addObject classId).2.Each good :=
  ⟨each.classes, forall_mem_push each.objects ⟨.empty, (each.classAt classId).template⟩⟩

theorem updateData
    (each : heap.Each good)
    {refused : α}
    {change : NativeData → α × NativeData}
    (keeps : ∀ data, data.Each good → (change data).2.Each good)
    (id : Nat) :
    (heap.updateData id refused change).2.Each good := by
  unfold Heap.updateData
  split
  · rename_i classId fields data here
    have object := each.objectAt id
    rw [here] at object
    simp only [Array.setIfInBounds_setIfInBounds]
    constructor
    · exact each.classes
    · apply forall_mem_setIfInBounds each.objects
      exact ⟨object.fields, fun _ same => Option.some.inj same ▸ keeps data (object.data _ rfl)⟩
  · exact each

/-- A method that has the property in what it gives and in what it leaves. -/
theorem updateData_outcome
    (each : heap.Each good)
    {refused : String}
    {change : NativeData → Except String Value × NativeData}
    (keeps :
      ∀ data, data.Each good → OutcomeEach good (change data).1 ∧ (change data).2.Each good)
    (id : Nat) :
    OutcomeEach good (heap.updateData id (.error refused) change).1 ∧
      (heap.updateData id (.error refused) change).2.Each good := by
  constructor
  · intro value isValue
    rcases heap.updateData_cases id (.error refused) change with same | ⟨data, isData, same⟩
    · rw [same] at isValue
      cases isValue
    · rw [same] at isValue
      exact (keeps data ((each.objectAt id).data data isData)).1 value isValue
  · exact each.updateData (fun data isGood => (keeps data isGood).2) id

end Heap.Each

/-! ## Methods of arrays and maps -/

namespace Container

@[simp]
theorem functions_runSequence
    (method : SequenceMethod)
    (receiver : Value)
    (arguments : List Value)
    (heap : Heap) :
    (runSequence method receiver arguments heap).2.functions = heap.functions := by
  unfold runSequence
  split <;> simp

@[simp]
theorem functions_runDictionary
    (method : DictionaryMethod)
    (receiver : Value)
    (arguments : List Value)
    (heap : Heap) :
    (runDictionary method receiver arguments heap).2.functions = heap.functions := by
  unfold runDictionary
  split <;> simp

variable
  [pervasive : Value.Pervasive good]
  {heap : Heap}
  {receiver : Value}
  {arguments : List Value}

include pervasive

theorem headD_good (each : ∀ argument ∈ arguments, good argument) :
    good (arguments.headD .null) := by
  cases arguments with
  | nil => exact plain .null rfl
  | cons first rest => exact each first List.mem_cons_self

theorem runSequence_each
    (each : heap.Each good)
    (receiverGood : good receiver)
    (argumentsGood : ∀ argument ∈ arguments, good argument)
    (method : SequenceMethod) :
    OutcomeEach good (runSequence method receiver arguments heap).1 ∧
      (runSequence method receiver arguments heap).2.Each good := by
  unfold runSequence
  split
  · apply each.updateData_outcome
    intro data isGood
    have second : good (arguments.tail.headD .null) :=
      headD_good fun argument member => argumentsGood argument (List.mem_of_mem_tail member)
    split
    · exact isGood.sequence_apply receiverGood (headD_good argumentsGood) second method
    · exact ⟨nofun, isGood⟩
  · exact ⟨nofun, each⟩

theorem runDictionary_each
    (each : heap.Each good)
    (receiver : Value)
    (arguments : List Value)
    (method : DictionaryMethod) :
    OutcomeEach good (runDictionary method receiver arguments heap).1 ∧
      (runDictionary method receiver arguments heap).2.Each good := by
  unfold runDictionary
  split
  · apply each.updateData_outcome
    intro data isGood
    split
    · rcases isGood.dictionary_apply method (arguments.headD .null) with ⟨given, left⟩
      exact ⟨fun value same => Except.ok.inj same ▸ given, left⟩
    · exact ⟨nofun, isGood⟩
  · exact ⟨nofun, each⟩

end Container

end Contents

/-! ## Requests -/

/-- All values that a request stores have a property. -/
def HostRequest.Each (good : Value → Prop) : HostRequest → Prop
  | bind receiver method => good receiver ∧ good method
  | setField _ _ value => good value
  | setMethod _ _ method => good method
  | setData _ data => data.Each good
  | defineBuiltin _ value => good value
  | defineVariable _ _ value => good value
  | addClass newClass => newClass.Each good
  | _ => True

theorem HostRequest.Each.of_forall
    {good : Value → Prop}
    (all : ∀ value, good value)
    (request : HostRequest) :
    request.Each good := by
  cases request with
  | bind receiver method => exact ⟨all receiver, all method⟩
  | setField | setMethod | defineBuiltin | defineVariable => exact all _
  | setData id data => exact NativeData.Each.of_forall all data
  | addClass newClass => exact Class.Each.of_forall all newClass
  | _ => trivial

end ScriptEngine
