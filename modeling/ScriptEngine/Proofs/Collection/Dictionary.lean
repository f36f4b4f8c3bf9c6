import ScriptEngine.Proofs.Collection.Container
import ScriptEngine.Proofs.Collection.Equality

/-!
# Maps are finite functions

What can be done with a map is a `Dictionary.Use`: a call of one of its methods or a subscript.
`Dictionary.Amounts` says what a use amounts to for a finite function on the classes of equal
keys, which gives for a class the key that was stored first and the value.

The main theorem says that any number of uses, one after the other and with any arguments,
does with the contents of a map what it amounts to for the finite function
(`dictionaries_are_finite_functions`).
-/

namespace ScriptEngine

namespace Dictionary

/-- A finite function on classes of keys: the key stored first and the value. -/
abbrev Contents : Type :=
  Finmap fun _ : KeyClass => Value × Value

/-- The finite function that entries stand for. -/
def contentsOf : List (Value × Value) → Contents
  | [] => ∅
  | entry :: rest =>
    if isKey : isKey entry.1 = true then
      (contentsOf rest).insert (Key.toClass ⟨entry.1, isKey⟩) entry
    else
      contentsOf rest

/-- The finite function that a map stands for. -/
def contents (dictionary : Dictionary) : Contents :=
  contentsOf dictionary.entries

/-- The keys are different from each other, and none is not-a-number. -/
structure Proper (dictionary : Dictionary) : Prop where
  keys : ∀ entry ∈ dictionary.entries, isKey entry.1 = true
  distinct : dictionary.entries.Pairwise fun first second => first.1.equals second.1 = false

/-- The value stored for a class, null if there is none. -/
def Contents.value (contents : Contents) (keys : KeyClass) : Value :=
  ((contents.lookup keys).map Prod.snd).getD .null

/-- The function after a write: a class that has a key already keeps it. -/
def Contents.write (contents : Contents) (key : Key) (value : Value) : Contents :=
  contents.insert key.toClass
    (((contents.lookup key.toClass).map Prod.fst).getD key.value, value)

/-! ## Lookups -/

theorem isKey_of_equals {first second : Value} (equal : first.equals second = true) :
    isKey first = true :=
  Value.equals_self_iff.mp (Value.equals_trans equal (Value.equals_comm second first ▸ equal))

theorem lookup_contentsOf (entries : List (Value × Value)) (key : Key) :
    (contentsOf entries).lookup key.toClass =
      entries.find? fun entry => entry.1.equals key.value := by
  induction entries with
  | nil => rfl
  | cons entry rest induction =>
      rcases equal : entry.1.equals key.value with _ | _
      · rw [List.find?_cons_of_neg (by simp [equal]), ← induction, contentsOf]
        split
        · have other : key.toClass ≠ Key.toClass ⟨entry.1, ‹_›⟩ := by
            rw [Ne, Key.toClass_eq_iff, Value.equals_comm, equal]
            exact Bool.false_ne_true
          exact Finmap.lookup_insert_of_ne _ other
        · rfl
      · have same : key.toClass = Key.toClass ⟨entry.1, isKey_of_equals equal⟩ :=
          Key.toClass_eq_iff.mpr (by rwa [Value.equals_comm])
        rw [List.find?_cons_of_pos (by simp [equal]), contentsOf, dif_pos (isKey_of_equals equal),
          same, Finmap.lookup_insert]

theorem lookup_contents (dictionary : Dictionary) (key : Key) :
    dictionary.contents.lookup key.toClass =
      dictionary.entries.find? fun entry => entry.1.equals key.value :=
  lookup_contentsOf dictionary.entries key

/-- Finite functions that agree on the classes of all keys are the same. -/
theorem Contents.ext_of_keys {first second : Contents}
    (same : ∀ key : Key, first.lookup key.toClass = second.lookup key.toClass) :
    first = second :=
  Finmap.ext_lookup fun keys => Quotient.inductionOn keys same

theorem get_eq (dictionary : Dictionary) (key : Key) :
    dictionary.get key.value = dictionary.contents.value key.toClass := by
  rw [Contents.value, lookup_contents]
  rfl

theorem has_eq (dictionary : Dictionary) (key : Key) :
    dictionary.has key.value = (dictionary.contents.lookup key.toClass).isSome := by
  rw [lookup_contents, List.isSome_find?]
  rfl

/-- Nothing is found under not-a-number. -/
theorem equals_eq_false_of_not_isKey {first second : Value} (other : isKey second = false) :
    first.equals second = false := by
  rw [Value.equals_comm, ← Bool.not_eq_true]
  intro equal
  exact Bool.false_ne_true (other.symm.trans (isKey_of_equals equal))

theorem find?_of_not_isKey (dictionary : Dictionary) {key : Value} (other : isKey key = false) :
    dictionary.find? key = none := by
  simp [find?, equals_eq_false_of_not_isKey other]

theorem has_of_not_isKey (dictionary : Dictionary) {key : Value} (other : isKey key = false) :
    dictionary.has key = false := by
  simp [has, equals_eq_false_of_not_isKey other]

theorem get_of_not_isKey (dictionary : Dictionary) {key : Value} (other : isKey key = false) :
    dictionary.get key = .null := by
  rw [get, find?_of_not_isKey dictionary other, Option.getD_none]

theorem erase_of_not_isKey (dictionary : Dictionary) {key : Value} (other : isKey key = false) :
    dictionary.erase key = dictionary := by
  simp [erase, equals_eq_false_of_not_isKey other]

/-! ## Writes and removals -/

/-- An entry under a key is found under the keys that equal it and under no others. -/
theorem equals_of_equals {entry : Value × Value} {key other : Key}
    (equal : entry.1.equals key.value = true) :
    entry.1.equals other.value = true ↔ other.toClass = key.toClass := by
  rw [Key.toClass_eq_iff]
  constructor
  · intro also
    rw [Value.equals_comm] at also
    exact Value.equals_trans also equal
  · intro same
    rw [Value.equals_comm] at same
    exact Value.equals_trans equal same

theorem has_eq_isSome (dictionary : Dictionary) (key : Value) :
    dictionary.has key = (dictionary.entries.find? fun entry => entry.1.equals key).isSome :=
  List.isSome_find?.symm

/-- A search among entries that get other values finds an entry with its other value. -/
theorem find?_withValues (entries : List (Value × Value)) (key other value : Value) :
    ((entries.map fun entry => if entry.1.equals key then (entry.1, value) else entry).find?
        fun entry => entry.1.equals other) =
      (entries.find? fun entry => entry.1.equals other).map fun entry =>
        if entry.1.equals key then (entry.1, value) else entry := by
  rw [List.find?_map]
  congr 2
  funext entry
  simp only [Function.comp]
  split <;> rfl

/-- A write for a class without a key adds an entry. -/
theorem contents_set_of_absent {dictionary : Dictionary} {key : Key} (value : Value)
    (isAbsent : dictionary.entries.find? (fun entry => entry.1.equals key.value) = none) :
    (dictionary.set key.value value).contents =
      dictionary.contents.insert key.toClass (key.value, value) := by
  apply Contents.ext_of_keys
  intro other
  rw [lookup_contents, set, has_eq_isSome]
  simp only [isAbsent, Option.isSome_none, Bool.false_eq_true, if_false, List.find?_append]
  by_cases same : other.toClass = key.toClass
  · have absent : dictionary.contents.lookup other.toClass = none := by
      rw [same, lookup_contents, isAbsent]
    have equal : key.value.equals other.value = true := by
      rw [Value.equals_comm]
      exact Key.toClass_eq_iff.mp same
    rw [← lookup_contents, absent, same, Finmap.lookup_insert]
    simp [equal]
  · have different : key.value.equals other.value = false := by
      rw [Value.equals_comm, ← Bool.not_eq_true, ← Key.toClass_eq_iff]
      exact same
    rw [Finmap.lookup_insert_of_ne _ same, lookup_contents]
    simp [different]

/-- A write for a class with a key replaces the value and keeps the key. -/
theorem contents_set_of_present {dictionary : Dictionary} {key : Key} {stored : Value × Value}
    (value : Value)
    (isStored : dictionary.entries.find? (fun entry => entry.1.equals key.value) = some stored) :
    (dictionary.set key.value value).contents =
      dictionary.contents.insert key.toClass (stored.1, value) := by
  apply Contents.ext_of_keys
  intro other
  rw [lookup_contents, set, has_eq_isSome]
  simp only [isStored, Option.isSome_some, if_true, find?_withValues]
  by_cases same : other.toClass = key.toClass
  · have found : dictionary.contents.lookup other.toClass = some stored := by
      rw [same, lookup_contents, isStored]
    have equal : stored.1.equals key.value = true := by simpa using List.find?_some isStored
    rw [← lookup_contents, found, same, Finmap.lookup_insert, Option.map_some, if_pos equal]
  · rw [Finmap.lookup_insert_of_ne _ same, lookup_contents]
    rcases isOther : dictionary.entries.find? (fun entry => entry.1.equals other.value) with
      _ | entry
    · rw [isOther]
      rfl
    · have equal : entry.1.equals other.value = true := by simpa using List.find?_some isOther
      rw [isOther, Option.map_some, if_neg]
      intro also
      exact same ((equals_of_equals also).mp equal)

theorem contents_set (dictionary : Dictionary) (key : Key) (value : Value) :
    (dictionary.set key.value value).contents = dictionary.contents.write key value := by
  rw [Contents.write, lookup_contents]
  rcases isStored : dictionary.entries.find? (fun entry => entry.1.equals key.value) with
    _ | stored
  · rw [contents_set_of_absent value isStored, isStored]
    rfl
  · rw [contents_set_of_present value isStored, isStored]
    rfl

theorem contents_erase (dictionary : Dictionary) (key : Key) :
    (dictionary.erase key.value).contents = dictionary.contents.erase key.toClass := by
  apply Contents.ext_of_keys
  intro other
  rw [lookup_contents, erase, List.find?_filter]
  by_cases same : other.toClass = key.toClass
  · rw [same, Finmap.lookup_erase]
    apply List.find?_eq_none.mpr
    intro entry _
    rw [decide_eq_true_eq]
    rintro ⟨different, equal⟩
    rw [Value.equals_comm] at equal
    have also : entry.1.equals key.value = true := by
      rw [Value.equals_comm]
      exact Value.equals_trans (Value.equals_comm .. ▸ Key.toClass_eq_iff.mp same) equal
    rw [also] at different
    cases different
  · rw [Finmap.lookup_erase_ne same, lookup_contents]
    congr 1
    funext entry
    rw [Bool.eq_iff_iff, decide_eq_true_eq, Bool.not_eq_true']
    refine ⟨And.right, fun equal => ⟨?_, equal⟩⟩
    rw [← Bool.not_eq_true]
    intro also
    exact same ((equals_of_equals also).mp equal)

theorem card_keys_contentsOf (entries : List (Value × Value))
    (keys : ∀ entry ∈ entries, isKey entry.1 = true)
    (distinct : entries.Pairwise fun first second => first.1.equals second.1 = false) :
    (contentsOf entries).keys.card = entries.length := by
  induction entries with
  | nil => rfl
  | cons entry rest induction =>
      have isKey := keys entry List.mem_cons_self
      have isNew : Key.toClass ⟨entry.1, isKey⟩ ∉ (contentsOf rest).keys := by
        rw [Finmap.mem_keys, ← Finmap.lookup_eq_none, lookup_contentsOf, List.find?_eq_none]
        intro later isLater
        have different := List.rel_of_pairwise_cons distinct isLater
        simp [Value.equals_comm later.1, different]
      have grown :
          (contentsOf (entry :: rest)).keys =
            insert (Key.toClass ⟨entry.1, isKey⟩) (contentsOf rest).keys := by
        ext keys
        rw [contentsOf, dif_pos isKey, Finmap.mem_keys, Finmap.mem_insert, Finset.mem_insert,
          Finmap.mem_keys]
      rw [grown, Finset.card_insert_of_notMem isNew, List.length_cons,
        induction (fun later isLater => keys later (List.mem_cons_of_mem _ isLater))
          distinct.of_cons]

theorem size_eq {dictionary : Dictionary} (proper : dictionary.Proper) :
    dictionary.size = dictionary.contents.keys.card :=
  (card_keys_contentsOf _ proper.keys proper.distinct).symm

theorem proper_empty : ({} : Dictionary).Proper where
  keys := nofun
  distinct := .nil

theorem Proper.set {dictionary : Dictionary} (proper : dictionary.Proper) (key : Key)
    (value : Value) :
    (dictionary.set key.value value).Proper := by
  unfold Dictionary.set
  split
  · constructor
    · intro entry isEntry
      obtain ⟨before, isBefore, rfl⟩ := List.mem_map.mp isEntry
      split <;> exact proper.keys before isBefore
    · rw [List.pairwise_map]
      refine proper.distinct.imp fun {first second} different => ?_
      split <;> split <;> exact different
  · rename_i isNew
    constructor
    · intro entry isEntry
      rcases List.mem_append.mp isEntry with isBefore | isLast
      · exact proper.keys entry isBefore
      · obtain rfl := List.mem_singleton.mp isLast
        exact key.isKey
    · rw [List.pairwise_append]
      refine ⟨proper.distinct, List.pairwise_singleton _ _, fun entry isEntry last isLast => ?_⟩
      obtain rfl := List.mem_singleton.mp isLast
      rw [Dictionary.has, List.any_eq_true] at isNew
      rw [← Bool.not_eq_true]
      exact fun equal => isNew ⟨entry, isEntry, equal⟩

theorem Proper.erase {dictionary : Dictionary} (proper : dictionary.Proper) (key : Value) :
    (dictionary.erase key).Proper where
  keys entry isEntry := proper.keys entry (List.mem_of_mem_filter isEntry)
  distinct := proper.distinct.filter _

/-! ## Uses of a map -/

/-- What can be done with a map. -/
inductive Use where
  | write (key value : Value)
  | read (key : Value)
  | get (key : Value)
  | has (key : Value)
  | remove (key : Value)
  | len
  | clear

end Dictionary

/-- The callable of a method of maps. -/
def DictionaryMethod.native (method : DictionaryMethod) : Native where
  name := method.name
  arity := .exactly method.arity
  routine := .dictionary method

/-- These callables are the methods of the class of maps. -/
theorem Blueprint.methods_map :
    Blueprint.map.methods = DictionaryMethod.all.map DictionaryMethod.native :=
  rfl

namespace Dictionary

/-- Uses the map at a position of the heap. -/
def Use.act (environment : Environment) (id : Nat) : Use → Action Value
  | write key value => do
    Action.setIndex (.object id) key value
    return value
  | read key => Action.getIndex (.object id) key
  | get key => Container.call environment DictionaryMethod.get.native (.object id) [key]
  | has key => Container.call environment DictionaryMethod.has.native (.object id) [key]
  | remove key => Container.call environment DictionaryMethod.remove.native (.object id) [key]
  | len => Container.call environment DictionaryMethod.len.native (.object id) []
  | clear => Container.call environment DictionaryMethod.clear.native (.object id) []

/--
What a use of a map amounts to: with the finite function before, the outcome and the function
afterwards.
-/
inductive Amounts : Use → Contents → Except Interruption Value → Contents → Prop where
  | write {contents : Contents} {key value : Value} (isKey : isKey key = true) :
      Amounts (.write key value) contents (.ok value) (contents.write ⟨key, isKey⟩ value)
  | writeNothing {contents : Contents} {key value : Value} (other : isKey key = false) :
      Amounts (.write key value) contents
        (.error (.fault (.badIndex "Map key cannot be NaN."))) contents
  | read {contents : Contents} {key : Value} (isKey : isKey key = true) :
      Amounts (.read key) contents (.ok (contents.value (Key.toClass ⟨key, isKey⟩))) contents
  | readNothing {contents : Contents} {key : Value} (other : isKey key = false) :
      Amounts (.read key) contents (.ok .null) contents
  | get {contents : Contents} {key : Value} (isKey : isKey key = true) :
      Amounts (.get key) contents (.ok (contents.value (Key.toClass ⟨key, isKey⟩))) contents
  | getNothing {contents : Contents} {key : Value} (other : isKey key = false) :
      Amounts (.get key) contents (.ok .null) contents
  | has {contents : Contents} {key : Value} (isKey : isKey key = true) :
      Amounts (.has key) contents
        (.ok (.bool (contents.lookup (Key.toClass ⟨key, isKey⟩)).isSome)) contents
  | hasNothing {contents : Contents} {key : Value} (other : isKey key = false) :
      Amounts (.has key) contents (.ok (.bool false)) contents
  | remove {contents : Contents} {key : Value} (isKey : isKey key = true) :
      Amounts (.remove key) contents (.ok (contents.value (Key.toClass ⟨key, isKey⟩)))
        (contents.erase (Key.toClass ⟨key, isKey⟩))
  | removeNothing {contents : Contents} {key : Value} (other : isKey key = false) :
      Amounts (.remove key) contents (.ok .null) contents
  | len {contents : Contents} :
      Amounts .len contents (.ok (countValue contents.keys.card)) contents
  | clear {contents : Contents} : Amounts .clear contents (.ok .null) ∅

/-- What a use amounts to depends on nothing but the finite function. -/
theorem Amounts.unique
    {use : Use}
    {before after after' : Contents}
    {outcome outcome' : Except Interruption Value}
    (first : Amounts use before outcome after)
    (second : Amounts use before outcome' after') :
    outcome = outcome' ∧ after = after' := by
  cases first with
  | len | clear => cases second; exact ⟨rfl, rfl⟩
  | write isKey | read isKey | get isKey | has isKey | remove isKey =>
      cases second
      next => exact ⟨rfl, rfl⟩
      next other => cases isKey.symm.trans other
  | writeNothing other | readNothing other | getNothing other | hasNothing other
  | removeNothing other =>
      cases second
      next isKey => cases isKey.symm.trans other
      next => exact ⟨rfl, rfl⟩

/-! ## One use -/

variable {environment : Environment} {state : State} {id : Nat} {dictionary : Dictionary}

/-- A method works on the entries of the map. -/
theorem call_of_carries
    (carries : state.heap.Carries id (.dictionary dictionary))
    (method : DictionaryMethod)
    (arguments : List Value)
    (accepts : arguments.length = method.arity)
    (room : state.stack.size + 2 ≤ environment.settings.limits.stackCapacity) :
    Container.attempt (Container.call environment method.native (.object id) arguments) state =
      (.ok (method.apply (arguments.headD .null) dictionary).1,
        state.setData id (.dictionary (method.apply (arguments.headD .null) dictionary).2)) := by
  have few : method.arity ≤ 1 := by cases method <;> decide
  have calls :
      Container.attempt (Container.call environment method.native (.object id) arguments) state =
        _ :=
    Container.attempt_call (.object id) arguments rfl (congrArg Arity.exactly accepts.symm)
      (by omega)
  simp only [Container.runDictionary, carries.updateData] at calls
  exact calls

/-- A use of a map does with its contents what it amounts to. -/
theorem act_amounts
    (carries : state.heap.Carries id (.dictionary dictionary))
    (proper : dictionary.Proper)
    (room : state.stack.size + 2 ≤ environment.settings.limits.stackCapacity)
    (use : Use) :
    ∃ outcome changed,
      changed.Proper ∧ Amounts use dictionary.contents outcome changed.contents ∧
        Container.attempt (use.act environment id) state =
          (outcome, state.setData id (.dictionary changed)) := by
  have same := State.setData_self carries
  cases use with
  | clear =>
      exact ⟨.ok .null, {}, proper_empty, .clear, call_of_carries carries .clear [] rfl room⟩
  | len =>
      have calls := call_of_carries carries .len [] rfl room
      rw [DictionaryMethod.apply, size_eq proper] at calls
      exact ⟨_, dictionary, proper, .len, calls⟩
  | write key value =>
      have writes := Action.setIndex_of_carries carries rfl key value
      rcases isKey : isKey key with _ | _
      · refine ⟨_, dictionary, proper, .writeNothing isKey, Container.attempt_of_setData ?_⟩
        simp only [NativeData.writeIndex, Dictionary.write, isKey] at writes
        simp only [Use.act, bind, ExceptT.bind, ExceptT.mk, StateT.bind, ExceptT.bindCont, writes]
        rfl
      · refine ⟨.ok value, dictionary.set key value, proper.set ⟨key, isKey⟩ value, ?_,
          Container.attempt_of_setData ?_⟩
        · rw [contents_set dictionary ⟨key, isKey⟩ value]
          exact .write isKey
        · simp only [NativeData.writeIndex, Dictionary.write, isKey] at writes
          simp only [Use.act, bind, ExceptT.bind, ExceptT.mk, StateT.bind, ExceptT.bindCont,
            writes]
          rfl
  | read key =>
      have reads :
          Container.attempt (Use.act environment id (.read key)) state =
            (.ok (dictionary.get key), state.setData id (.dictionary dictionary)) := by
        refine Container.attempt_of_setData ?_
        rw [same]
        exact Action.getIndex_of_carries carries rfl key
      rcases isKey : isKey key with _ | _
      · rw [get_of_not_isKey dictionary isKey] at reads
        exact ⟨_, dictionary, proper, .readNothing isKey, reads⟩
      · rw [get_eq dictionary ⟨key, isKey⟩] at reads
        exact ⟨_, dictionary, proper, .read isKey, reads⟩
  | get key =>
      have calls := call_of_carries carries .get [key] rfl room
      rw [DictionaryMethod.apply, List.headD_cons] at calls
      rcases isKey : isKey key with _ | _
      · rw [get_of_not_isKey dictionary isKey] at calls
        exact ⟨_, dictionary, proper, .getNothing isKey, calls⟩
      · rw [get_eq dictionary ⟨key, isKey⟩] at calls
        exact ⟨_, dictionary, proper, .get isKey, calls⟩
  | has key =>
      have calls := call_of_carries carries .has [key] rfl room
      rw [DictionaryMethod.apply, List.headD_cons] at calls
      rcases isKey : isKey key with _ | _
      · rw [has_of_not_isKey dictionary isKey] at calls
        exact ⟨_, dictionary, proper, .hasNothing isKey, calls⟩
      · rw [has_eq dictionary ⟨key, isKey⟩] at calls
        exact ⟨_, dictionary, proper, .has isKey, calls⟩
  | remove key =>
      have calls := call_of_carries carries .remove [key] rfl room
      rw [DictionaryMethod.apply, List.headD_cons] at calls
      rcases isKey : isKey key with _ | _
      · rw [get_of_not_isKey dictionary isKey, erase_of_not_isKey dictionary isKey] at calls
        exact ⟨_, dictionary, proper, .removeNothing isKey, calls⟩
      · rw [get_eq dictionary ⟨key, isKey⟩] at calls
        refine ⟨_, dictionary.erase key, proper.erase key, ?_, calls⟩
        rw [contents_erase dictionary ⟨key, isKey⟩]
        exact .remove isKey

end Dictionary

/-- The heap with one map, which is empty. -/
def Heap.ofOneMap : Heap where
  objects := #[{ classId := 1, data := some (.dictionary {}) }]

theorem Heap.ofOneMap_carries : Heap.ofOneMap.Carries 0 (.dictionary {}) where
  isObject := by decide
  isData := rfl
  isFree := rfl

/--
Equality is symmetric and transitive, every value that is not not-a-number equals itself, and
the hashes of equal values are computed from the same, so a search among the entries with the
right hash finds what a search among all entries finds; the two zeros are equal.  Whatever is
done with a map, one use after the other, has the outcomes and leaves the contents that it
amounts to for a finite function on the classes of equal keys, and nothing else changes.
-/
theorem dictionaries_are_finite_functions :
    (∀ value : Value,
      value.equals value = true ↔ ∀ number, value = .number number → number.isNaN = false) ∧
    (∀ first second : Value, first.equals second = second.equals first) ∧
    (∀ first second third : Value,
      first.equals second = true → second.equals third = true → first.equals third = true) ∧
    (∀ first second : Value, first.equals second = true → first.hashed = second.hashed) ∧
    (∀ {Hash : Type} [DecidableEq Hash] (hash : Value → Hash) (dictionary : Dictionary) key,
      (dictionary.entries.find? fun entry =>
          hash entry.1.hashed == hash key.hashed && entry.1.equals key) =
        dictionary.entries.find? fun entry => entry.1.equals key) ∧
    (Value.number 0).equals (Value.number (-0)) = true ∧
    ∀ (environment : Environment) (state : State) (id : Nat) (dictionary : Dictionary),
      state.heap.Carries id (.dictionary dictionary) →
      dictionary.Proper →
      state.stack.size + 2 ≤ environment.settings.limits.stackCapacity →
      ∀ uses : List Dictionary.Use,
        ∃ outcomes changed,
          changed.Proper ∧
            Container.useAll (Dictionary.Use.act environment id) uses state =
              (outcomes, state.setData id (.dictionary changed)) ∧
            ∀ outcomes' contents,
              Container.AmountsAll Dictionary.Amounts uses dictionary.contents outcomes' contents ↔
                outcomes' = outcomes ∧ contents = changed.contents := by
  refine ⟨fun value => ?_, Value.equals_comm, fun _ _ _ => Value.equals_trans,
    fun _ _ => Value.hashed_eq_of_equals, ?_, ?_, ?_⟩
  · rw [Value.equals_self_iff]
    cases value with
    | number number => simp [Dictionary.isKey]
    | _ => simp [Dictionary.isKey]
  · exact fun hash dictionary => Dictionary.find?_of_hash hash dictionary.entries
  · decide
  · intro environment state id dictionary carries proper room uses
    -- The map holds entries that stand for the function, and nothing else has changed.
    let stands (after : State) (contents : Dictionary.Contents) : Prop :=
      ∃ present : Dictionary,
        present.Proper ∧ contents = present.contents ∧
          after = state.setData id (.dictionary present)
    have one {after : State} {contents : Dictionary.Contents} (use : Dictionary.Use) :
        stands after contents →
          ∃ outcome last contents',
            Dictionary.Amounts use contents outcome contents' ∧
              Container.attempt (use.act environment id) after = (outcome, last) ∧
                stands last contents' := by
      rintro ⟨present, properPresent, rfl, rfl⟩
      have carriesPresent :
          (state.setData id (.dictionary present)).heap.Carries id (.dictionary present) :=
        carries.setData _
      obtain ⟨outcome, changed, properChanged, amounts, acts⟩ :=
        Dictionary.act_amounts carriesPresent properPresent room use
      rw [State.setData_setData] at acts
      exact ⟨outcome, _, _, amounts, acts, changed, properChanged, rfl, rfl⟩
    obtain ⟨outcomes, after, contents, amounts, actAll, changed, properChanged, rfl, rfl⟩ :=
      Container.useAll_amounts stands one
        ⟨dictionary, proper, rfl, (State.setData_self carries).symm⟩ uses
    refine ⟨outcomes, changed, properChanged, actAll, fun outcomes' contents => ⟨?_, ?_⟩⟩
    · exact fun others => others.unique amounts Dictionary.Amounts.unique
    · rintro ⟨rfl, rfl⟩
      exact amounts

/-- What is written under one zero is read under the other, and not-a-number is refused. -/
theorem useAll_ofOneMap :
    Heap.ofOneMap.Carries 0 (.dictionary {}) ∧ ({} : Dictionary).Proper ∧
      (Container.useAll (Dictionary.Use.act { settings := {}, host := Host.empty } 0)
          [.write (.number 0) (.bool true), .read (.number (-0)), .write (.number .nan) .null]
          { heap := Heap.ofOneMap }).1 =
        [.ok (.bool true), .ok (.bool true),
          .error (.fault (.badIndex "Map key cannot be NaN."))] := by
  refine ⟨Heap.ofOneMap_carries, Dictionary.proper_empty, ?_⟩
  obtain ⟨-, -, -, -, -, -, maps⟩ := dictionaries_are_finite_functions
  obtain ⟨outcomes, changed, -, acts, amounts⟩ :=
    maps { settings := {}, host := Host.empty } { heap := Heap.ofOneMap } 0 {}
      Heap.ofOneMap_carries Dictionary.proper_empty (by decide)
      [.write (.number 0) (.bool true), .read (.number (-0)), .write (.number .nan) .null]
  have zero : Dictionary.isKey (.number 0) = true := by decide
  have negativeZero : Dictionary.isKey (.number (-0)) = true := by decide
  have nan : Dictionary.isKey (.number .nan) = false := by decide
  have equal : (Value.number (-0)).equals (.number 0) = true := by decide
  have same :
      Dictionary.Key.toClass ⟨.number (-0), negativeZero⟩ =
        Dictionary.Key.toClass ⟨.number 0, zero⟩ :=
    Dictionary.Key.toClass_eq_iff.mpr equal
  have reads :
      Dictionary.Amounts (.read (.number (-0)))
        (({} : Dictionary).contents.write ⟨.number 0, zero⟩ (.bool true)) _ _ :=
    .read negativeZero
  rw [same, Dictionary.Contents.value, Dictionary.Contents.write, Finmap.lookup_insert] at reads
  have expected :
      Container.AmountsAll Dictionary.Amounts
        [.write (.number 0) (.bool true), .read (.number (-0)), .write (.number .nan) .null]
        ({} : Dictionary).contents
        [.ok (.bool true), .ok (.bool true), .error (.fault (.badIndex "Map key cannot be NaN."))]
        (({} : Dictionary).contents.write ⟨.number 0, zero⟩ (.bool true)) :=
    .next (.write zero) (.next reads (.next (.writeNothing nan) .nothing))
  rw [acts, ((amounts _ _).mp expected).1]

end ScriptEngine
