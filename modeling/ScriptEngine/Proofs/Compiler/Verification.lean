import ScriptEngine.Engine
import ScriptEngine.Proofs.Compiler.Accumulation
import ScriptEngine.Proofs.Compiler.ScriptFlow

/-!
# Compiled functions pass the verifier

Every function that the compiler gives is verified: the body of the text and all
functions that stand among the constants of a verified function.
-/

namespace ScriptEngine

open Syntax Compilation

/-! ## Names in source texts -/

namespace Cursor

/-- An identifier is not empty and not the word for the receiver. -/
theorem isVariableName_of_nameKind
    {first : Char}
    {tail : List Char}
    {name : String}
    (isName : nameKind (String.ofList (first :: tail)) = .identifier name) :
    IsVariableName name := by
  unfold nameKind at isName
  split at isName
  · cases isName
  · rename_i notReserved
    cases isName
    refine ⟨?_, ?_⟩
    · intro empty
      have characters := congrArg String.toList empty
      simp at characters
    · intro isThis
      rw [isThis] at notReserved
      exact absurd notReserved (by decide)

theorem isVariableName_of_recognize
    {first : Char}
    {rest tail remaining : List Char}
    {name : String}
    (recognised : recognize first rest = .token (.identifier name) tail remaining) :
    IsVariableName name := by
  unfold recognize at recognised
  split at recognised
  case h_21 =>
    split at recognised
    · unfold recognizeNumber at recognised
      simp only at recognised
      split at recognised
      · split at recognised <;> cases recognised
      · cases recognised
    · split at recognised
      · unfold recognizeName at recognised
        simp only [Recognition.token.injEq] at recognised
        exact isVariableName_of_nameKind recognised.1
      · cases recognised
  case h_20 =>
    unfold recognizeString at recognised
    simp only at recognised
    split at recognised <;> cases recognised
  all_goals
    first
    | cases recognised
    | (unfold orEqual at recognised
       split at recognised <;> cases recognised)

theorem isVariableName_of_next
    {cursor after : Cursor}
    {token : Token}
    {name : String}
    (read : cursor.next = (.ok token, after))
    (kind : token.kind = .identifier name) :
    IsVariableName name := by
  unfold next at read
  simp only at read
  split at read
  · cases read
    cases kind
  · split at read
    · rename_i recognised
      cases read
      cases kind
      exact isVariableName_of_recognize recognised
    · cases read
    · cases read

end Cursor

/-- The identifiers of a text are names of variables. -/
theorem Token.isVariableName_of_scanFrom
    {cursor : Cursor}
    {earlier tokens : Array Token}
    (earlierNames :
      ∀ token ∈ earlier, ∀ name, token.kind = .identifier name → IsVariableName name)
    (scanned : scanFrom cursor earlier = .ok tokens) :
    ∀ token ∈ tokens, ∀ name, token.kind = .identifier name → IsVariableName name := by
  -- One more token has been read.
  have pushed :
      ∀ {cursor after : Cursor} {earlier : Array Token} {token : Token},
        cursor.next = (.ok token, after) →
        (∀ other ∈ earlier, ∀ name, other.kind = .identifier name → IsVariableName name) →
          ∀ other ∈ earlier.push token,
            ∀ name, other.kind = .identifier name → IsVariableName name := by
    intro cursor after earlier token read names other member name kind
    rcases Array.mem_push.mp member with old | rfl
    · exact names other old name kind
    · exact Cursor.isVariableName_of_next read kind
  fun_induction scanFrom cursor earlier with
  | case1 cursor earlier error after read => cases scanned
  | case2 cursor earlier token after read ended =>
      cases scanned
      exact pushed read earlierNames
  | case3 cursor earlier token after read unfinished shorter induction =>
      exact induction (pushed read earlierNames) scanned

/-! ## Modules of an engine -/

/-- The tables that modules of an engine can have. -/
inductive Module.FromEngine : Module → Prop where
  /-- The seed of a new engine. -/
  | builtin (environment : Environment) :
      FromEngine ((Engine.create environment).state.registry.moduleAt Registry.builtin)
  | seeded (name : String) {table : Module} (seed : FromEngine table) :
      FromEngine (Module.seeded name table)
  | declare (name : String) {table : Module} (before : FromEngine table) :
      FromEngine (table.declare name).2
  | set (slot : Nat) (value : Value) {table : Module} (before : FromEngine table) :
      FromEngine (table.set slot value)
  | markLoaded {table : Module} (before : FromEngine table) : FromEngine table.markLoaded

/-- A value that is defined in the seed changes the seed as it changes one module. -/
theorem Registry.seed_defineBuiltin
    {registry : Registry}
    {seed : Module}
    (isSeed : registry.modules[builtin]? = some seed)
    (name : String)
    (value : Value) :
    (registry.defineBuiltin name value).modules[builtin]? = some (define seed name value).2 := by
  rw [builtin] at isSeed
  simp [defineBuiltin, isSeed, builtin]

theorem Engine.seed_create (environment : Environment) :
    ∃ array map : Value,
      (create environment).state.registry.modules[Registry.builtin]? =
        some (Registry.define
          (Registry.define { name := "", loaded := true } "Array" array).2 "Map" map).2 := by
  refine ⟨_, _, Registry.seed_defineBuiltin (Registry.seed_defineBuiltin rfl _ _) _ _⟩

theorem Module.FromEngine.indexed
    {table : Module}
    (fromEngine : table.FromEngine) :
    table.Indexed ∧ 0 < table.size := by
  induction fromEngine with
  | builtin environment =>
      obtain ⟨array, map, isSeed⟩ := Engine.seed_create environment
      rw [Registry.moduleAt, Array.getD_eq_getD_getElem?, isSeed, Option.getD_some]
      have empty := Module.indexed_empty "" true
      have arrays := Registry.indexed_define empty "Array" array
      refine ⟨Registry.indexed_define arrays "Map" map, ?_⟩
      rw [Registry.size_define]
      refine Nat.lt_of_lt_of_le ?_ (Module.size_le_declare _ _)
      rw [Registry.size_define]
      exact Module.declare_pos empty (by decide)
  | seeded name seed induction => exact ⟨induction.1.relabelled name false, induction.2⟩
  | @declare name table before induction =>
      exact ⟨induction.1.declare name,
        Nat.lt_of_lt_of_le induction.2 (Module.size_le_declare table name)⟩
  | set slot value before induction =>
      exact ⟨induction.1.set slot value, by rw [Module.size_set]; exact induction.2⟩
  | markLoaded before induction => exact ⟨induction.1.relabelled _ true, induction.2⟩

/-! ## Compiled texts -/

/-- The state before the first token satisfies the invariant. -/
theorem Compiler.sound_start
    {tokens : Array Token}
    {table : Module}
    (indexed : table.Indexed)
    (names :
      ∀ token ∈ tokens, ∀ name, token.kind = .identifier name → IsVariableName name)
    (home firstFunction : Nat) :
    (start tokens table home firstFunction).Sound where
  resources := ⟨Chunk.remembers_empty, indexed⟩
  names := names
  constants _ member := absurd member Chunk.not_mem_constants_empty
  finished := nofun
  nested := .inl rfl

/-- The functions of a compiled text and the table of its module. -/
structure Compiled.WellTyped (compiled : Compiled) (firstFunction : Nat)
    (functions : Array Function) : Prop where
  indexed : compiled.table.Indexed
  nonempty : 0 < functions.size
  functions :
    ∀ function ∈ functions,
      function.WellTyped compiled.table.size fun id =>
        firstFunction ≤ id ∧ id < firstFunction + functions.size

/-- The last state of a compilation that succeeds. -/
theorem compile_scriptDone
    {mode : CompileMode}
    {source : String}
    {table : Module}
    {home firstFunction : Nat}
    {functions : Array Function}
    (indexed : table.Indexed)
    (success : (compile mode source table home firstFunction).functions = .ok functions) :
    ∃ tokens final,
      Compiler.ScriptDone (Compiler.start tokens table home firstFunction) final ∧
        functions = final.finished ∧
        (compile mode source table home firstFunction).table = final.table := by
  unfold compile at success ⊢
  rcases scanned : Token.scan source with error | tokens
  · simp only [scanned] at success
    cases success
  · simp only [scanned] at success ⊢
    have names := Token.isVariableName_of_scanFrom (by simp) scanned
    have sound := Compiler.sound_start indexed names home firstFunction
    have compiles := Compiler.script_compiles Compiler.maxNesting mode sound
      (Scope.settled_reserving fun isVariable => isVariable.1 rfl) rfl rfl rfl rfl
    unfold Compiler.compileTokens at success ⊢
    rcases outcome : Compiler.script Compiler.maxNesting mode
      (Compiler.start tokens table home firstFunction) with ⟨error | _, final⟩
    · simp only [outcome] at success
      cases success
    · simp only [outcome] at success ⊢
      cases success
      exact ⟨tokens, final, compiles.of_ok outcome, rfl, rfl⟩

theorem compile_wellTyped
    {mode : CompileMode}
    {source : String}
    {table : Module}
    {home firstFunction : Nat}
    {functions : Array Function}
    (indexed : table.Indexed)
    (success : (compile mode source table home firstFunction).functions = .ok functions) :
    (compile mode source table home firstFunction).WellTyped firstFunction functions := by
  rcases compile_scriptDone indexed success with ⟨tokens, final, done, rfl, sameTable⟩
  have known : final.Knows = fun id =>
      firstFunction ≤ id ∧ id < firstFunction + final.finished.size := by
    funext id
    rw [Compilation.Knows, done.firstFunction]
    rfl
  constructor
  · rw [sameTable]
    exact done.sound.resources.table
  · exact done.nonempty
  · rw [sameTable]
    exact known ▸ done.sound.finished

/-- The functions among the constants come before the body. -/
theorem earlier_of_compile
    {mode : CompileMode}
    {source : String}
    {table : Module}
    {home firstFunction : Nat}
    {functions : Array Function}
    (indexed : table.Indexed)
    (success : (compile mode source table home firstFunction).functions = .ok functions) :
    ∀ function ∈ functions,
      ∀ value ∈ function.chunk.constants,
        value.IsConstant fun id => id + 1 < firstFunction + functions.size := by
  rcases compile_scriptDone indexed success with ⟨tokens, final, done, rfl, -⟩
  exact done.earlier

/-- The body of a text and the functions among the constants of functions of the text. -/
inductive FunctionOf (functions : Array Function) (firstFunction : Nat) : Function → Prop where
  | body {function : Function} (last : functions.back? = some function) :
      FunctionOf functions firstFunction function
  | constant
      {outer inner : Function}
      {index : Nat}
      (contains : FunctionOf functions firstFunction outer)
      (constant : Value.function (firstFunction + index) ∈ outer.chunk.constants)
      (found : functions[index]? = some inner) :
      FunctionOf functions firstFunction inner

theorem FunctionOf.mem
    {functions : Array Function}
    {firstFunction : Nat}
    {function : Function}
    (isFunction : FunctionOf functions firstFunction function) :
    function ∈ functions := by
  cases isFunction with
  | body last => exact Array.mem_of_back? last
  | constant _ _ found => exact Array.mem_of_getElem? found

/--
In every text that compiles, the body and all functions inside one another pass the verifier, and
the functions among their constants exist.
-/
theorem compiled_functions_verify
    (mode : CompileMode)
    (source : String)
    {table : Module}
    (home firstFunction : Nat)
    {functions : Array Function}
    (fromEngine : table.FromEngine)
    (success : (compile mode source table home firstFunction).functions = .ok functions) :
    (∃ body, functions.back? = some body) ∧
      ∀ function,
        FunctionOf functions firstFunction function →
          (∃ height,
            function.Verifies (compile mode source table home firstFunction).table.size height) ∧
          ∀ id,
            Value.function id ∈ function.chunk.constants →
              ∃ index inner, id = firstFunction + index ∧ functions[index]? = some inner := by
  obtain ⟨indexed, seeded⟩ := fromEngine.indexed
  have wellTyped := compile_wellTyped indexed success
  refine ⟨⟨functions.back wellTyped.nonempty, ?_⟩, ?_⟩
  · have last := wellTyped.nonempty
    rw [Array.back?_eq_getElem?, Array.getElem?_eq_getElem (by omega)]
    rfl
  · intro function isFunction
    have typed := wellTyped.functions function isFunction.mem
    have grows := (grows_compile mode source table home firstFunction).size_le
    refine ⟨typed.verifies (Nat.lt_of_lt_of_le seeded grows), fun id member => ?_⟩
    rcases typed.constants _ member with literal | ⟨other, same, first, last⟩
    · cases literal
    · cases same
      have inside : id - firstFunction < functions.size := by omega
      exact ⟨id - firstFunction, functions[id - firstFunction], by omega,
        Array.getElem?_eq_getElem inside⟩

/-- The table of the main module of a new engine. -/
def freshMain : Module :=
  Module.seeded mainModule
    ((Engine.create { settings := {}, host := Host.empty }).state.registry.moduleAt
      Registry.builtin)

theorem fromEngine_freshMain : freshMain.FromEngine :=
  .seeded mainModule (.builtin _)

/-- A text with a function in it compiles to two functions, and both pass. -/
theorem identityFunction_verifies :
    ∃ functions,
      (compile .run "fun f(a) \x7b return a; \x7d" freshMain 1 0).functions = .ok functions ∧
        functions.size = 2 ∧
        ∀ function,
          FunctionOf functions 0 function →
            ∃ height,
              function.Verifies
                (compile .run "fun f(a) \x7b return a; \x7d" freshMain 1 0).table.size height := by
  have success :
      (compile .run "fun f(a) \x7b return a; \x7d" freshMain 1 0).functions.toOption.map
          Array.size = some 2 := by
    cbv
  rcases compiled :
      (compile .run "fun f(a) \x7b return a; \x7d" freshMain 1 0).functions with error | functions
  · rw [compiled] at success
    cases success
  · rw [compiled] at success
    refine ⟨functions, rfl, Option.some.inj success, fun function isFunction => ?_⟩
    exact ((compiled_functions_verify .run _ 1 0 fromEngine_freshMain compiled).2 function
      isFunction).1

end ScriptEngine
