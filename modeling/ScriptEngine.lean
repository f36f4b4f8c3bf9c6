import ScriptEngine.Main
import ScriptEngine.Toolkit.SampleClass
import ScriptEngine.Shell.Completion
import ScriptEngine.Shell.Highlight
import ScriptEngine.Proofs.Compiler.ExpressionLanguage
import ScriptEngine.Proofs.Machine.Safety
import ScriptEngine.Proofs.Imperative.Program
import ScriptEngine.Proofs.Machine.Invocation
import ScriptEngine.Proofs.Machine.Limits
import ScriptEngine.Proofs.Machine.Orderly
import ScriptEngine.Proofs.Machine.Ground
import ScriptEngine.Proofs.Machine.Relocation
import ScriptEngine.Proofs.Machine.RelocatedStep
import ScriptEngine.Proofs.Machine.Correspondence
import ScriptEngine.Proofs.Machine.Balance
import ScriptEngine.Proofs.Machine.Isolation
import ScriptEngine.Proofs.Imperative.Interpreter
import ScriptEngine.Proofs.Imperative.Code
import ScriptEngine.Proofs.Imperative.Progress
import ScriptEngine.Proofs.Imperative.Translation
import ScriptEngine.Proofs.Imperative.LoopTranslation
import ScriptEngine.Proofs.Imperative.ProgramTranslation
import ScriptEngine.Proofs.Imperative.Locals
import ScriptEngine.Proofs.Imperative.Site
import ScriptEngine.Proofs.Imperative.Steps
import ScriptEngine.Proofs.Imperative.Simulation
import ScriptEngine.Proofs.Machine.Rest
import ScriptEngine.Proofs.Imperative.Preservation
import ScriptEngine.Proofs.Machine.Bounds
import ScriptEngine.Proofs.Compiler.ImportCode
import ScriptEngine.Proofs.Machine.Executing
import ScriptEngine.Proofs.Machine.Importing
import ScriptEngine.Proofs.Machine.Slots
import ScriptEngine.Proofs.Machine.Definedness
import ScriptEngine.Proofs.Machine.Ownership
import ScriptEngine.Proofs.Compiler.Echo
import ScriptEngine.Proofs.Compiler.Evaluation
import ScriptEngine.Proofs.Compiler.Restraint
import ScriptEngine.Proofs.Machine.Disguise
import ScriptEngine.Proofs.Machine.DisguisedStep
import ScriptEngine.Proofs.Token.Spacing
import ScriptEngine.Proofs.Compiler.Depth
import ScriptEngine.Proofs.Machine.Tracing
import ScriptEngine.Proofs.Compiler.LineOrder
import ScriptEngine.Proofs.Compiler.Termination
import ScriptEngine.Proofs.Compiler.Scoping
import ScriptEngine.Proofs.Machine.Constructors
import ScriptEngine.Proofs.Number.Exact
import ScriptEngine.Proofs.Collection.Container
import ScriptEngine.Proofs.Collection.Sequence
import ScriptEngine.Proofs.Collection.Dictionary
import ScriptEngine.Proofs.Collection.Rendering
import ScriptEngine.Proofs.Machine.Disassembly
import ScriptEngine.Proofs.Machine.DisguisedRun
import ScriptEngine.Proofs.Machine.Evaluating
import ScriptEngine.Proofs.Machine.Seeding
import ScriptEngine.Proofs.Shell.Brackets
import ScriptEngine.Proofs.Shell.Completion
import ScriptEngine.Proofs.Shell.Highlighting
import ScriptEngine.Proofs.Code.Writing
import ScriptEngine.Proofs.Code.Deduplication
import ScriptEngine.Proofs.Machine.Jumps
import ScriptEngine.Proofs.Compiler.Operands
import ScriptEngine.Proofs.Machine.ArrayClass
import ScriptEngine.Proofs.Machine.Literals
