import ScriptEngine.Compilation.Script
import ScriptEngine.Machine.State

/-!
# Adding source texts to the state

A source text becomes the body of a module.  Its functions are appended to the
heap; the names it declares are added to the table of the module, also when the
text is refused.
-/

namespace ScriptEngine.State

/-- Compiles a text as the body of a module and gives the position of the body in the heap. -/
def addSource (state : State) (mode : CompileMode) (moduleId : Nat) (source : String) :
    Except CompileError Nat × State :=
  let compiled :=
    compile mode source (state.registry.moduleAt moduleId) moduleId state.heap.functions.size
  let registry := state.registry.replace moduleId compiled.table
  match compiled.functions with
  | .error error => (.error error, { state with registry })
  | .ok functions =>
    let heap := { state.heap with functions := state.heap.functions ++ functions }
    (.ok (heap.functions.size - 1), { state with registry, heap })

/--
Compiles a text as the body of a named module, which is created if needed and
counts as loaded from then on.
-/
def addNamedSource (state : State) (mode : CompileMode) (moduleName source : String) :
    Except CompileError Nat × State :=
  match state with
  | { stack, frames, heap, registry, journal } =>
    let (id, ensured) := registry.ensure moduleName
    let marked := ensured.modify id Module.markLoaded
    { stack, frames, heap, registry := marked, journal : State }.addSource mode id source

end ScriptEngine.State
