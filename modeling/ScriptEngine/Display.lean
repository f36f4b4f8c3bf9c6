import ScriptEngine.Heap

/-!
# The text of a value

`Heap.display` gives the text that `print` writes.  Containers show their
contents.  A container that is already being shown further out, that a host
routine has locked, or that lies more than 128 containers deep is shown as
three dots, so the text is finite on every heap.
-/

namespace ScriptEngine.Heap

/-- Greatest number of containers around a container that is still shown. -/
def maxDisplayDepth : Nat := 128

/-- The text of an instance without a text of its own. -/
def plainText (heap : Heap) (objectId : Nat) : String :=
  (heap.classOf objectId).name ++ " instance"

/--
The text of a value inside the containers `enclosing`, when at most `levels`
more containers may be opened.
-/
def displayWithin (heap : Heap) (levels : Nat) (enclosing : List Nat) (value : Value) : String :=
  match value.unbound with
  | .undefined => "undefined"
  | .null => "null"
  | .bool value => if value then "true" else "false"
  | .number number => Number.display number
  | .string content => content
  | .function id =>
    match (heap.function id).name with
    | some name => "<fn " ++ name ++ ">"
    | none => "<script>"
  | .hostFunction id | .hostMethod id => "<foreign fn " ++ (heap.native id).name ++ ">"
  | .classObject id => (heap.classAt id).name
  | .moduleHandle _ name => "<module " ++ name ++ ">"
  | .object id =>
    match (heap.objectAt id).data with
    | none => heap.plainText id
    | some data =>
      if (heap.objectAt id).locked || enclosing.contains id then
        "..."
      else
        match levels with
        | 0 => "..."
        | levels + 1 =>
          (data.text? (displayWithin heap levels (id :: enclosing))).getD (heap.plainText id)
  | .boundMethod _ _ _ => ""

/-- The text of a value. -/
def display (heap : Heap) (value : Value) : String :=
  heap.displayWithin maxDisplayDepth [] value

/-- The values of a stack in brackets, bottom first. -/
def displayStack (heap : Heap) (stack : Array Value) : String :=
  stack.foldl (fun text value => text ++ "[ " ++ heap.display value ++ " ]") "          "

end ScriptEngine.Heap
