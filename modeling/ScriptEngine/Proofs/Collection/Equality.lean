import ScriptEngine.Collection.Dictionary
import ScriptEngine.Proofs.Number.Exact

/-!
# Equality of values and keys of maps

`Value.equals` is symmetric and transitive, and every value equals itself except not-a-number.
So it is an equivalence on the keys of maps, whose classes are `Dictionary.KeyClass`.

A hash table compares a key only with those keys that have the same hash.  A hash is computed
from `Value.hashed`, which is the same for equal values, so such a table finds what a search
among all entries finds (`Dictionary.find?_of_hash`).
-/

namespace ScriptEngine

namespace Value

/-- Two numbers are equal if they are the same and not not-a-number, or if both are zeros. -/
theorem number_equals_iff {first second : Float} :
    (number first).equals (number second) = true ↔
      first ≠ .nan ∧ second ≠ .nan ∧
        (first = second ∨ first = 0 ∧ second = -0 ∨ first = -0 ∧ second = 0) :=
  Float.beq_iff_ne_nan_and_eq

theorem equals_comm (first second : Value) : first.equals second = second.equals first := by
  cases first <;> cases second <;> try rfl
  case number.number first second =>
    rw [Bool.eq_iff_iff, number_equals_iff, number_equals_iff]
    grind
  all_goals exact BEq.comm

theorem equals_trans
    {first second third : Value}
    (left : first.equals second = true)
    (right : second.equals third = true) :
    first.equals third = true := by
  cases first <;> cases second <;> try cases left
  all_goals cases third <;> try cases right
  case number.number.number =>
    rw [number_equals_iff] at *
    grind
  all_goals simp_all [equals]

/-- A value equals itself if it can be a key, that is, unless it is not-a-number. -/
theorem equals_self_iff {value : Value} :
    value.equals value = true ↔ Dictionary.isKey value = true := by
  cases value with
  | number number =>
      rw [number_equals_iff]
      simp [Dictionary.isKey, Float.isNaN_eq_decide_eq_nan]
  | _ => simp [equals, Dictionary.isKey]

/-! ## Hashes -/

/--
What the hash of a value is computed from: its kind and what tells it from the other values of
its kind.  The negative zero is replaced by zero.
-/
def hashed : Value → Value
  | number value => number (if value == 0 then 0 else value)
  | moduleHandle id _ => moduleHandle id ""
  | boundMethod id _ _ => boundMethod id null null
  | other => other

/-- Keys are equal exactly if their hashes are computed from the same. -/
theorem equals_iff_hashed
    {first second : Value}
    (isKey : Dictionary.isKey first = true) :
    first.equals second = true ↔ first.hashed = second.hashed := by
  cases first <;> cases second <;> try simp [equals, hashed]
  case number.number first second =>
    have isNumber : first ≠ .nan := by
      simpa [Dictionary.isKey, Float.isNaN_eq_decide_eq_nan] using isKey
    simp only [Float.beq_iff_ne_nan_and_eq]
    grind

/-- Equal values have the same hash. -/
theorem hashed_eq_of_equals
    {first second : Value}
    (equal : first.equals second = true) :
    first.hashed = second.hashed := by
  have isKey : Dictionary.isKey first = true :=
    equals_self_iff.mp (equals_trans equal (equals_comm second first ▸ equal))
  exact (equals_iff_hashed isKey).mp equal

end Value

namespace Dictionary

/-- A search among the entries with the same hash finds what a search among all entries finds. -/
theorem find?_of_hash {Hash : Type} [DecidableEq Hash] (hash : Value → Hash)
    (entries : List (Value × Value)) (key : Value) :
    (entries.find? fun entry =>
        hash entry.1.hashed == hash key.hashed && entry.1.equals key) =
      entries.find? fun entry => entry.1.equals key := by
  congr 1
  funext entry
  rcases equal : entry.1.equals key with _ | _
  · rw [Bool.and_false]
  · rw [Value.hashed_eq_of_equals equal, beq_self_eq_true, Bool.and_true]

/-! ## Classes of keys -/

/-- A value that can be a key. -/
structure Key where
  value : Value
  isKey : isKey value = true

instance Key.setoid : Setoid Key where
  r first second := first.value.equals second.value = true
  iseqv :=
    { refl := fun key => Value.equals_self_iff.mpr key.isKey
      symm := fun {first second} equal => by rwa [Value.equals_comm]
      trans := Value.equals_trans }

instance (first second : Key) : Decidable (first ≈ second) :=
  inferInstanceAs (Decidable (first.value.equals second.value = true))

/-- Keys that are equal to each other. -/
def KeyClass : Type :=
  Quotient Key.setoid

instance : DecidableEq KeyClass :=
  inferInstanceAs (DecidableEq (Quotient Key.setoid))

/-- The keys that are equal to a key. -/
def Key.toClass (key : Key) : KeyClass :=
  Quotient.mk Key.setoid key

theorem Key.toClass_eq_iff {first second : Key} :
    first.toClass = second.toClass ↔ first.value.equals second.value = true :=
  Quotient.eq

end Dictionary

end ScriptEngine
