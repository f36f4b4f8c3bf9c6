import ScriptEngine.Display
import ScriptEngine.Text.Colour

/-!
# Values in colour

The shell shows a value in a colour that tells its kind; texts stand in
quotation marks.
-/

namespace ScriptEngine.Heap

open Text (paint)

/-- The text of a value in the colour of its kind. -/
def colouredText (heap : Heap) (value : Value) : String :=
  match value with
  | .null | .undefined => paint .blue "null"
  | .bool _ | .number _ => paint .yellow (heap.display value)
  | .string content => paint .green ("\"" ++ content ++ "\"")
  | .function _ | .hostFunction _ | .hostMethod _ | .boundMethod _ _ _ =>
    paint .magenta (heap.display value)
  | .classObject _ | .moduleHandle _ _ => paint .cyan (heap.display value)
  | .object _ => heap.display value

end ScriptEngine.Heap
