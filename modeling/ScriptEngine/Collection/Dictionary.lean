import ScriptEngine.Value

/-!
# Maps between values

The data of an instance of the class `Map` is a finite map whose keys are told
apart by the equality of the language.  Not-a-number equals nothing, so it
cannot be a key.  A write to a key that is already present keeps the key that
was stored first.
-/

namespace ScriptEngine

/-- Entries with pairwise different keys. -/
structure Dictionary where
  entries : List (Value × Value) := []
deriving Inhabited, DecidableEq

namespace Dictionary

/-- The wording of the refusal of not-a-number as a key. -/
def keyMessage : String := "Map key cannot be NaN."

/-- Whether a value can be a key. -/
def isKey : Value → Bool
  | .number number => !number.isNaN
  | _ => true

/-- The value stored under a key. -/
def find? (dictionary : Dictionary) (key : Value) : Option Value :=
  (dictionary.entries.find? fun entry => entry.1.equals key).map Prod.snd

/-- The value stored under a key, null if there is none. -/
def get (dictionary : Dictionary) (key : Value) : Value :=
  (dictionary.find? key).getD .null

/-- Whether something is stored under a key. -/
def has (dictionary : Dictionary) (key : Value) : Bool :=
  dictionary.entries.any fun entry => entry.1.equals key

/-- Number of entries. -/
def size (dictionary : Dictionary) : Nat :=
  dictionary.entries.length

/-- Stores a value under a key. -/
def set (dictionary : Dictionary) (key value : Value) : Dictionary :=
  if dictionary.has key then
    { entries := dictionary.entries.map fun entry =>
        if entry.1.equals key then (entry.1, value) else entry }
  else
    { entries := dictionary.entries ++ [(key, value)] }

/-- Stores a value under a key, unless the key is not-a-number. -/
def write (dictionary : Dictionary) (key value : Value) : Except String Unit × Dictionary :=
  if isKey key then (.ok (), dictionary.set key value) else (.error keyMessage, dictionary)

/-- The entries without those under a key. -/
def erase (dictionary : Dictionary) (key : Value) : Dictionary :=
  { entries := dictionary.entries.filter fun entry => !entry.1.equals key }

end Dictionary

end ScriptEngine
