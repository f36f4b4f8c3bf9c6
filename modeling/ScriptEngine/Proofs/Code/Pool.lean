import Mathlib
import ScriptEngine.Chunk
import ScriptEngine.Module

/-!
# Constants and module variables

A chunk remembers where numbers and texts stand among its constants, and a
module remembers the slots of its variables.  What is remembered is true, and
both only grow: a constant stays where it is, and a variable keeps its slot.
-/

namespace ScriptEngine

/-- Whether a value can stand in a source text. -/
def Value.isLiteral : Value → Bool
  | number _ | string _ => true
  | _ => false

namespace Constant

@[simp]
theorem value_ofValue (value : Value) : (ofValue value).value = value := by
  unfold ofValue
  split
  · rename_i float isNumber
    cases value <;> cases isNumber
    exact congrArg Value.number (Float.ofBits_toBits _)
  · rfl

/-- A constant has no other key than the constants that are equal to it. -/
theorem eq_of_key?
    {first second : Constant}
    {key : ConstantKey}
    (firstKey : first.key? = some key)
    (secondKey : second.key? = some key) :
    first = second := by
  cases key with
  | number bits =>
      have isNumber {constant : Constant} (found : constant.key? = some (.number bits)) :
          constant = .number bits := by
        cases constant with
        | number => cases found; rfl
        | other value => cases value <;> cases found
      rw [isNumber firstKey, isNumber secondKey]
  | string content =>
      have isText {constant : Constant} (found : constant.key? = some (.string content)) :
          constant = .other (.string content) rfl := by
        cases constant with
        | number => cases found
        | other value => cases value <;> cases found; rfl
      rw [isText firstKey, isText secondKey]

end Constant

namespace Chunk

/-- The constants are where they are remembered to be. -/
structure Remembers (chunk : Chunk) : Prop where
  found :
    ∀ (constant : Constant) (position : Nat),
      chunk.findConstant? constant = some position →
        chunk.entries[position]? = some constant
  bounded : chunk.entries.size ≤ maxConstants

theorem Remembers.size_le {chunk : Chunk} (remembers : chunk.Remembers) :
    chunk.constants.size ≤ maxConstants := by
  rw [size_constants]
  exact remembers.bounded

theorem remembers_empty : Remembers {} where
  found constant position found := by
    obtain ⟨key, -, found⟩ := Option.bind_eq_some_iff.mp found
    cases key <;> simp [position?] at found
  bounded := Nat.zero_le _

theorem not_mem_constants_empty {value : Value} : value ∉ ({} : Chunk).constants := by
  simp [constants]

@[simp]
theorem entries_pushConstant (chunk : Chunk) (constant : Constant) :
    (chunk.pushConstant constant).entries = chunk.entries.push constant := by
  unfold pushConstant remember
  rcases constant.key? with _ | ⟨_ | _⟩ <;> rfl

@[simp]
theorem constants_pushConstant (chunk : Chunk) (constant : Constant) :
    (chunk.pushConstant constant).constants = chunk.constants.push constant.value := by
  simp [constants]

theorem getElem?_push_of_some
    {α : Type}
    {entries : Array α}
    {position : Nat}
    {entry added : α}
    (found : entries[position]? = some entry) :
    (entries.push added)[position]? = some entry := by
  have inside : position < entries.size := (Array.getElem?_eq_some_iff.mp found).1
  rw [Array.getElem?_push, if_neg (Nat.ne_of_lt inside), found]

theorem position?_remember (chunk : Chunk) (position : Nat) (key other : ConstantKey) :
    (chunk.remember position key).position? other =
      if key = other then some position else chunk.position? other := by
  cases key <;> cases other <;> simp [remember, position?, Std.TreeMap.getElem?_insert]

/-- A number or text that is appended is found where it stands, and all others as before. -/
theorem findConstant?_pushConstant (chunk : Chunk) (constant other : Constant) :
    (chunk.pushConstant constant).findConstant? other =
      if constant.key?.isSome = true ∧ constant = other then some chunk.entries.size
      else chunk.findConstant? other := by
  unfold findConstant? pushConstant
  rcases addedKey : constant.key? with _ | added
  · rw [if_neg (by simp)]
    rfl
  · rcases otherKey : other.key? with _ | key
    · have different : constant ≠ other := by
        rintro rfl
        cases addedKey.symm.trans otherKey
      rw [if_neg fun both => different both.2]
      rfl
    · have same : added = key ↔ constant = other := by
        constructor
        · rintro rfl
          exact Constant.eq_of_key? addedKey otherKey
        · rintro rfl
          exact Option.some.inj (addedKey.symm.trans otherKey)
      simp only [Option.bind_some, position?_remember, same, Option.isSome_some, true_and]
      rfl

theorem remembers_pushConstant
    {chunk : Chunk}
    (remembers : chunk.Remembers)
    (constant : Constant)
    (room : chunk.entries.size < maxConstants) :
    (chunk.pushConstant constant).Remembers := by
  refine ⟨?_, ?_⟩
  · intro other position found
    rw [entries_pushConstant]
    rw [findConstant?_pushConstant] at found
    split at found
    · rename_i same
      cases found
      rw [same.2]
      exact Array.getElem?_push_size
    · exact getElem?_push_of_some (remembers.found other position found)
  · rw [entries_pushConstant, Array.size_push]
    exact room

/-- Code and line table stay as they are when a constant is added. -/
theorem same_addConstant (chunk : Chunk) (constant : Constant) :
    (chunk.addConstant constant).2.code = chunk.code ∧
      (chunk.addConstant constant).2.runs = chunk.runs := by
  unfold addConstant
  split
  · exact ⟨rfl, rfl⟩
  · simp only
    split
    · unfold pushConstant
      rcases constant.key? with _ | ⟨_ | _⟩ <;> exact ⟨rfl, rfl⟩
    · exact ⟨rfl, rfl⟩

/-- What holds after a constant has been looked up or added. -/
structure Adds (before after : Chunk) (value : Value) (position : Nat) : Prop where
  remembers : after.Remembers
  found : after.constants[position]? = some value
  grows : before.constants.toList <+: after.constants.toList
  nothingElse : ∀ other ∈ after.constants, other ∈ before.constants ∨ other = value

theorem getElem?_constants {chunk : Chunk} {position : Nat} {constant : Constant}
    (found : chunk.entries[position]? = some constant) :
    chunk.constants[position]? = some constant.value := by
  simp [constants, found]

theorem addConstant_adds
    {chunk after : Chunk}
    (remembers : chunk.Remembers)
    {value : Value}
    {position : Nat}
    (added : chunk.addConstant (.ofValue value) = (.ok position, after)) :
    Adds chunk after value position := by
  unfold addConstant at added
  split at added
  · rename_i present
    cases added
    refine ⟨remembers, ?_, List.prefix_refl _, fun other member => .inl member⟩
    rw [getElem?_constants (remembers.found _ _ present), Constant.value_ofValue]
  · simp only at added
    split at added
    · rename_i room
      cases added
      refine ⟨remembers_pushConstant remembers _ room, ?_, ?_, ?_⟩
      · rw [constants_pushConstant, Constant.value_ofValue, ← size_constants]
        exact Array.getElem?_push_size
      · rw [constants_pushConstant, Array.toList_push]
        exact List.prefix_append _ _
      · intro other member
        rw [constants_pushConstant, Constant.value_ofValue] at member
        exact Array.mem_push.mp member
    · cases added

theorem Adds.lt_size {before after : Chunk} {value : Value} {position : Nat}
    (adds : Adds before after value position) : position < after.constants.size :=
  (Array.getElem?_eq_some_iff.mp adds.found).1

theorem Adds.lt_max {before after : Chunk} {value : Value} {position : Nat}
    (adds : Adds before after value position) : position < maxConstants :=
  Nat.lt_of_lt_of_le adds.lt_size adds.remembers.size_le

end Chunk

namespace Module

/-- The slots of all names exist and belong to their names. -/
structure Indexed (table : Module) : Prop where
  inside : ∀ name slot, table.find? name = some slot → slot < table.size
  bounded : table.size ≤ maxVariables
  named : ∀ name slot, table.find? name = some slot → table.variableName? slot = some name
  counted : table.names.size = table.size

theorem indexed_empty (name : String) (loaded : Bool) : Indexed { name, loaded } where
  inside other slot found := by simp [find?] at found
  bounded := Nat.zero_le _
  named other slot found := by simp [find?] at found
  counted := rfl

theorem Indexed.relabelled
    {table : Module}
    (indexed : table.Indexed)
    (name : String)
    (loaded : Bool) :
    Indexed { table with name, loaded } :=
  ⟨indexed.inside, indexed.bounded, indexed.named, indexed.counted⟩

/-- Different names have different slots. -/
theorem Indexed.name_eq
    {table : Module}
    (indexed : table.Indexed)
    {first second : String}
    {slot : Nat}
    (firstFound : table.find? first = some slot)
    (secondFound : table.find? second = some slot) :
    first = second := by
  have named := indexed.named first slot firstFound
  rw [indexed.named second slot secondFound] at named
  exact (Option.some.inj named).symm

@[simp]
theorem size_append (table : Module) (name : String) :
    (table.append name).size = table.size + 1 :=
  Array.size_push _

theorem find?_append (table : Module) (name other : String) :
    (table.append name).find? other =
      if name = other then some table.size else table.find? other := by
  simp only [append, find?, Std.TreeMap.getElem?_insert, Std.compare_eq_iff_eq]
  rfl

theorem Indexed.append
    {table : Module}
    (indexed : table.Indexed)
    (name : String)
    (room : table.size < maxVariables) :
    (table.append name).Indexed where
  inside other slot found := by
    rw [find?_append] at found
    rw [size_append]
    split at found
    · cases found
      exact Nat.lt_succ_self _
    · exact Nat.lt_succ_of_lt (indexed.inside other slot found)
  bounded := by
    rw [size_append]
    exact room
  named other slot found := by
    rw [find?_append] at found
    show (table.names.push name)[slot]? = some other
    rw [Array.getElem?_push, indexed.counted]
    split at found
    · rename_i same
      cases found
      rw [if_pos rfl, same]
    · rw [if_neg (Nat.ne_of_lt (indexed.inside other slot found))]
      exact indexed.named other slot found
  counted := by
    rw [size_append, ← indexed.counted]
    exact Array.size_push _

/-- A declaration leaves the table as it is or appends a variable. -/
theorem declare_cases (table : Module) (name : String) :
    (∃ slot, table.find? name = some slot ∧ table.declare name = (some slot, table)) ∨
      (table.find? name = none ∧ table.size < maxVariables ∧
        table.declare name = (some table.size, table.append name)) ∨
      (table.find? name = none ∧ ¬ table.size < maxVariables ∧
        table.declare name = (none, table)) := by
  unfold declare
  split
  · rename_i slot found
    exact .inl ⟨slot, found, rfl⟩
  · rename_i missing
    by_cases room : table.values.size < maxVariables
    · exact .inr (.inl ⟨missing, room, by simp [room, size]⟩)
    · exact .inr (.inr ⟨missing, room, by simp [room]⟩)

theorem Indexed.declare {table : Module} (indexed : table.Indexed) (name : String) :
    (table.declare name).2.Indexed := by
  rcases declare_cases table name with ⟨slot, -, same⟩ | ⟨-, room, appended⟩ | ⟨-, -, same⟩
  · rwa [same]
  · rw [appended]
    exact indexed.append name room
  · rwa [same]

theorem size_le_declare (table : Module) (name : String) :
    table.size ≤ (table.declare name).2.size := by
  rcases declare_cases table name with ⟨slot, -, same⟩ | ⟨-, -, appended⟩ | ⟨-, -, same⟩
  · exact Nat.le_of_eq (by rw [same])
  · rw [appended, size_append]
    exact Nat.le_succ _
  · exact Nat.le_of_eq (by rw [same])

theorem find?_of_declare
    {table after : Module}
    {name : String}
    {slot : Nat}
    (declared : table.declare name = (some slot, after)) :
    after.find? name = some slot := by
  rcases declare_cases table name with ⟨found, isFound, same⟩ | ⟨-, -, appended⟩ | ⟨-, -, same⟩
  · rw [same] at declared
    cases declared
    exact isFound
  · rw [appended] at declared
    cases declared
    rw [find?_append, if_pos rfl]
  · rw [same] at declared
    cases declared

/-- A declared variable has a slot. -/
theorem lt_size_of_declare
    {table after : Module}
    (indexed : table.Indexed)
    {name : String}
    {slot : Nat}
    (declared : table.declare name = (some slot, after)) :
    slot < after.size := by
  have afterIndexed := indexed.declare name
  rw [declared] at afterIndexed
  exact afterIndexed.inside name slot (find?_of_declare declared)

/-- After a declaration there is a variable, if there was room for one. -/
theorem declare_pos
    {table : Module}
    (indexed : table.Indexed)
    {name : String}
    (room : table.size < maxVariables) :
    0 < (table.declare name).2.size := by
  rcases declare_cases table name with ⟨slot, found, same⟩ | ⟨-, -, appended⟩ | ⟨-, full, -⟩
  · rw [same]
    exact Nat.zero_lt_of_lt (indexed.inside name slot found)
  · rw [appended, size_append]
    exact Nat.succ_pos _
  · exact absurd room full

@[simp]
theorem size_set (table : Module) (slot : Nat) (value : Value) :
    (table.set slot value).size = table.size :=
  Array.size_setIfInBounds

theorem Indexed.set {table : Module} (indexed : table.Indexed) (slot : Nat) (value : Value) :
    (table.set slot value).Indexed where
  inside name found isFound := by
    rw [size_set]
    exact indexed.inside name found isFound
  bounded := by
    rw [size_set]
    exact indexed.bounded
  named := indexed.named
  counted := by
    rw [size_set]
    exact indexed.counted

end Module

namespace Registry

theorem define_cases (table : Module) (name : String) (value : Value) :
    (∃ slot, (table.declare name).1 = some slot ∧
        (define table name value).2 = (table.declare name).2.set slot value) ∨
      (define table name value).2 = (table.declare name).2 := by
  unfold define
  rcases declared : table.declare name with ⟨slot? | slot, after⟩
  · exact .inr rfl
  · exact .inl ⟨slot, rfl, rfl⟩

theorem indexed_define
    {table : Module}
    (indexed : table.Indexed)
    (name : String)
    (value : Value) :
    (define table name value).2.Indexed := by
  rcases define_cases table name value with ⟨slot, -, same⟩ | same
  · rw [same]
    exact (indexed.declare name).set slot value
  · rw [same]
    exact indexed.declare name

theorem size_define (table : Module) (name : String) (value : Value) :
    (define table name value).2.size = (table.declare name).2.size := by
  rcases define_cases table name value with ⟨slot, -, same⟩ | same
  · rw [same, Module.size_set]
  · rw [same]

end Registry

end ScriptEngine
