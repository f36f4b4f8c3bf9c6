import ScriptEngine.Proofs.Machine.Framing
import ScriptEngine.Proofs.Machine.Importing

/-!
# Texts of modules

An import asks for the text of a module that is not loaded.  If the text is refused,
the module is no more loaded than before, so that a later import asks again; if it is
accepted, the body is started (`Machine.ReadsText`).

The embedding program can compile a text as the body of a module as well.  Then the
module counts as loaded even if the text is refused, and no import starts a body of it
any more (`Machine.Provides`).
-/

namespace ScriptEngine

open Syntax Compilation

/-! ## The body of a text -/

namespace Compiler

/-- The body of a text has the name and the arity of the state before the first token. -/
theorem script_body
    (levels : Nat)
    (mode : CompileMode)
    {start : Compilation}
    (sound : start.Sound)
    (settled : start.draft.scope.Settled)
    (outside : start.draft.scope.depth = 0)
    (outermost : start.enclosing = []) :
    Guarantees (script levels mode) start
      (fun _ final =>
        ∃ body,
          final.finished.back? = some body ∧
            body.name = start.draft.name ∧
            body.arity = start.draft.arity)
      (fun _ => True) := by
  have positive : 0 < start.height := settled.fits.positive
  have finish :
      ∀ instructions done,
        Adds start done instructions →
          Guarantees
            (do
              let _ ← finishFunction)
            done
            (fun _ final =>
              ∃ body,
                final.finished.back? = some body ∧
                  body.name = start.draft.name ∧
                  body.arity = start.draft.arity)
            (fun _ => True) := by
    intro instructions done added
    apply Guarantees.bind
    unfold Guarantees
    rw [finishFunction_of_outermost (added.enclosing.trans outermost)]
    have name := congrArg (fun state => state.draft.name) added.frame
    exact ⟨_, Array.back?_push, name, added.arity⟩
  refine .bind ((guarantees_repeatInvariant (BodyDone start)
    ⟨⟨[], .refl sound, .nil _ _⟩, rfl⟩
    fun _ _ done => topLevel_compiles levels mode settled outside done).mono ?_ fun _ => id)
  rintro pending between ⟨⟨instructions, code⟩, -⟩
  cases pending with
  | some line =>
      refine .bind (guarantees_append fun done leaving => ?_)
      exact finish _ done (code.adds.trans (leaving.adds code.adds.sound))
  | none =>
      refine .bind ((emitReturn_compiles code.adds.sound positive).mono ?_ fun _ => id)
      rintro - done ⟨⟨returns, left, -⟩, -⟩
      exact finish _ done (code.adds.trans left)

end Compiler

/-- The body of a text has no name and takes no arguments. -/
theorem body_of_compile
    {mode : CompileMode}
    {source : String}
    {table : Module}
    {home firstFunction : Nat}
    {functions : Array Function}
    (indexed : table.Indexed)
    (success : (compile mode source table home firstFunction).functions = .ok functions) :
    ∃ body, functions.back? = some body ∧ body.name = none ∧ body.arity = 0 := by
  unfold compile at success
  rcases scanned : Token.scan source with error | tokens
  · simp only [scanned] at success
    cases success
  · simp only [scanned] at success
    have names := Token.isVariableName_of_scanFrom (by simp) scanned
    have takes := Compiler.script_body Compiler.maxNesting mode
      (Compiler.sound_start indexed names home firstFunction)
      (Scope.settled_reserving fun isVariable => isVariable.1 rfl) rfl rfl
    unfold Compiler.compileTokens at success
    rcases outcome : Compiler.script Compiler.maxNesting mode
      (Compiler.start tokens table home firstFunction) with ⟨error | _, final⟩
    · simp only [outcome] at success
      cases success
    · simp only [outcome] at success
      cases success
      exact takes.of_ok outcome

/-! ## Modules that are not loaded -/

/-- Declaring names does not load a module. -/
theorem Module.Grows.loaded
    {before after : Module}
    (grows : before.Grows after) :
    after.loaded = before.loaded := by
  induction grows with
  | same => rfl
  | @declare between _ name induction =>
      rcases declare_cases between name with ⟨_, -, same⟩ | ⟨-, -, appended⟩ | ⟨-, -, same⟩
      · rw [same, induction]
      · rw [appended]
        exact induction
      · rw [same, induction]

/-- A module that is created is not loaded. -/
theorem Registry.not_loaded_ensure
    {registry : Registry}
    {name : String}
    (unloaded : ∀ id, ¬ registry.Loaded name id) :
    ((registry.ensure name).2.moduleAt (registry.ensure name).1).loaded = false := by
  unfold ensure
  split
  · rename_i id found
    exact Bool.eq_false_of_not_eq_true fun isLoaded => unloaded id ⟨found, isLoaded⟩
  · show ((registry.modules.push _).getD registry.modules.size default).loaded = false
    rw [Array.getD_eq_getD_getElem?, Array.getElem?_push_size]
    rfl

/--
What becomes of the state when the text of a module has been given: the text is compiled
as the body of the module, which is created if needed.
-/
def State.compiling (state : State) (name source : String) : Except CompileError Nat × State :=
  let (id, registry) := state.registry.ensure name
  let loads := state.journal.loads.push name
  State.addSource { state with registry, journal := { state.journal with loads } } .run id source

namespace State

variable {state compiled : State} {name source : String}

theorem compiling_unchanged (state : State) (name source : String) :
    (state.compiling name source).2.stack = state.stack ∧
      (state.compiling name source).2.frames = state.frames ∧
      (state.compiling name source).2.journal.loads = state.journal.loads.push name := by
  unfold compiling addSource
  simp only
  split <;> exact ⟨rfl, rfl, rfl⟩

/-- What a text compiles to depends on heap and modules only. -/
theorem compiling_congr
    {other : State}
    (heap : other.heap = state.heap)
    (registry : other.registry = state.registry)
    (name source : String) :
    (other.compiling name source).1 = (state.compiling name source).1 ∧
      (other.compiling name source).2.heap = (state.compiling name source).2.heap := by
  rcases state with ⟨stack, frames, same, modules, journal⟩
  rcases other with ⟨otherStack, otherFrames, _, _, otherJournal⟩
  cases heap
  cases registry
  unfold compiling addSource
  simp only
  split <;> exact ⟨rfl, rfl⟩

/-- A module whose text is refused is not loaded by it. -/
theorem not_loaded_of_refused
    (consistent : state.registry.Consistent)
    (unloaded : ∀ id, ¬ state.registry.Loaded name id)
    (source : String)
    (id : Nat) :
    ¬ (state.compiling name source).2.registry.Loaded name id := by
  have ensured := Registry.Advances.ensure state.registry name
  have found := Registry.find?_ensure state.registry name
  have still := Registry.not_loaded_ensure unloaded
  have inside := (ensured.consistent consistent).inside found
  unfold compiling
  generalize state.registry.ensure name = created at found still inside ⊢
  rintro ⟨known, isLoaded⟩
  rw [find?_addSource] at known
  cases known.symm.trans found
  rw [registry_addSource, Registry.moduleAt_replace inside,
    (grows_compile _ _ _ _ _).loaded] at isLoaded
  exact Bool.false_ne_true (still.symm.trans isLoaded)

/-- The body of a text that is accepted has no name and takes no arguments. -/
theorem body_of_addSource
    {mode : CompileMode}
    {id body : Nat}
    {after : State}
    (indexed : (state.registry.moduleAt id).Indexed)
    (accepted : state.addSource mode id source = (.ok body, after)) :
    (after.heap.function body).name = none ∧ (after.heap.function body).arity = 0 := by
  unfold addSource at accepted
  simp only at accepted
  split at accepted
  · cases accepted
  · rename_i functions success
    cases accepted
    rcases body_of_compile indexed success with ⟨body, last, name, arity⟩
    have isBody :
        Heap.function { state.heap with functions := state.heap.functions ++ functions }
          ((state.heap.functions ++ functions).size - 1) = body := by
      unfold Heap.function
      rw [Array.getD_eq_getD_getElem?, ← Array.back?_eq_getElem?, Array.back?_append, last]
      rfl
    rw [isBody]
    exact ⟨name, arity⟩

/-- The body of a text that is accepted takes no arguments. -/
theorem arity_of_compiling
    {body : Nat}
    (consistent : state.registry.Consistent)
    (accepted : state.compiling name source = (.ok body, compiled)) :
    (compiled.heap.function body).arity = 0 := by
  have ensured := (Registry.Advances.ensure state.registry name).consistent consistent
  have inside := ensured.inside (Registry.find?_ensure state.registry name)
  exact (body_of_addSource (ensured.moduleAt inside).toIndexed accepted).2

end State

namespace Action

variable {environment : Environment} {state : State} {name source : String}

/-- A text that is given is compiled, and what has been compiled is started. -/
theorem importModule_of_source
    (unloaded : ∀ id, ¬ state.registry.Loaded name id)
    {load : String → Option String}
    (loads : environment.settings.load = some load)
    (supplied : load name = some source) :
    importModule environment name state =
      match state.compiling name source with
      | (.error error, refused) => (.error (.fault (.moduleRefused name error)), refused)
      | (.ok body, compiled) =>
        (do
          markLoaded (state.registry.ensure name).1
          push environment.settings.limits (.function body)
          callValue environment (.function body) 0 : Action Transition) compiled := by
  have notLoaded :
      ((state.registry.find? name).filter fun id => (state.registry.moduleAt id).loaded) =
        none := by
    apply Option.filter_eq_none_iff.mpr
    intro id found isLoaded
    exact unloaded id ⟨found, isLoaded⟩
  have asks :
      requestSource environment name state =
        (.ok (some source),
          { state with
            journal := { state.journal with loads := state.journal.loads.push name } }) := by
    unfold requestSource
    rw [loads, ← supplied]
    rfl
  unfold importModule
  rw [look_bind, look_bind]
  simp only [notLoaded]
  rw [bind_of_ok asks]
  have compiles :
      ∀ (next : Nat → Except CompileError Nat → Action Transition) (current : State),
        (do
          let id ← update fun state =>
            let (id, registry) := state.registry.ensure name
            (id, { state with registry })
          let result ← compileModule .run id source
          next id result) current =
          next (current.registry.ensure name).1
            (State.addSource { current with registry := (current.registry.ensure name).2 } .run
              (current.registry.ensure name).1 source).1
            (State.addSource { current with registry := (current.registry.ensure name).2 } .run
              (current.registry.ensure name).1 source).2 :=
    fun _ _ => rfl
  refine (compiles _ _).trans ?_
  unfold State.compiling
  split
  · rename_i outcome
    simp only [outcome]
    rfl
  · rename_i outcome
    simp only [outcome]

/-- A body is entered unless the stack is full or there are too many frames. -/
theorem callBody
    (environment : Environment)
    {body : Nat}
    (arity : (state.heap.function body).arity = 0) :
    ∃ stack frames result,
      (do
        push environment.settings.limits (.function body)
        callValue environment (.function body) 0 : Action Transition) state =
          (result, { state with stack, frames }) ∧
        (result = .error (.fault .stackOverflow) ∨
          ∃ base,
            result = .ok .proceed ∧
              frames = state.frames.push
                { function := state.heap.function body, offset := 0, base,
                  initializer := false }) := by
  by_cases room : state.stack.size < environment.settings.limits.stackCapacity
  · have pushes :
        push environment.settings.limits (.function body) state =
          (.ok (), { state with stack := state.stack.push (.function body) }) :=
      if_pos room
    rw [bind_of_ok pushes]
    have enters := pushFrame_of_arity environment.settings.limits arity.symm false
      { state with stack := state.stack.push (.function body) }
    unfold callValue
    rw [look_bind]
    by_cases free : state.frames.size < environment.settings.limits.maxFrames
    · rw [if_pos free] at enters
      exact ⟨_, _, _, bind_of_ok enters _, .inr ⟨_, rfl, rfl⟩⟩
    · rw [if_neg free] at enters
      exact ⟨_, _, _, bind_of_error enters _, .inl rfl⟩
  · have overflows :
        push environment.settings.limits (.function body) state =
          (.error (.fault .stackOverflow), state) :=
      if_neg room
    exact ⟨_, _, _, bind_of_error overflows _, .inl rfl⟩

end Action

namespace Machine

/-- From now on an import of a module gives the module, whatever happens in between. -/
def Provides (environment : Environment) (machine : Machine) (name : String) : Prop :=
  ∃ id, ∀ after,
    machine.Leads environment .any after →
    after.Imports name →
      after.GivesModule environment name id ∧
        (after.step environment).state.journal.loads = after.state.journal.loads ∧
        (after.step environment).state.frames.size ≤ after.state.frames.size

/-- A frame that executes a function from its beginning has been added. -/
def Enters (environment : Environment) (machine : Machine) (function : Function) : Prop :=
  ∃ frame,
    frame.function = function ∧
      frame.offset = 0 ∧
      (machine.step environment).control = .script ∧
      (machine.step environment).state.frames.size = machine.state.frames.size + 1 ∧
      (machine.step environment).state.frames.back? = some frame

/-- The next step fails. -/
def FailsWith (environment : Environment) (machine : Machine) (fault : Fault) : Prop :=
  ∃ state, machine.step environment = raise { machine with state } fault

/--
The next step asks for the text of a module and compiles it.  If the text is refused
the module is not loaded afterwards; otherwise the body is started, or there is no room
for it.
-/
def ReadsText (environment : Environment) (machine : Machine) (name source : String) : Prop :=
  (machine.step environment).state.journal.loads = machine.state.journal.loads.push name ∧
    match (machine.state.compiling name source).1 with
    | .error error =>
      machine.FailsWith environment (.moduleRefused name error) ∧
        ∀ id, ¬ (machine.step environment).state.registry.Loaded name id
    | .ok body =>
      let started := (machine.state.compiling name source).2.heap.function body
      machine.Enters environment started ∨ machine.FailsWith environment .stackOverflow

variable {environment : Environment} {machine : Machine} {name : String}

theorem loads_settle
    (control : Control)
    (subRuns : List SubRun)
    (result : Except Interruption Transition × State) :
    (settle control subRuns result).state.journal.loads = result.2.journal.loads := by
  rcases state_settle control subRuns result with ⟨stack, frames, same⟩
  rw [same]

/-- A module that is loaded is given by every import of it. -/
theorem provides_of_loaded
    (arises : machine.Arises environment .any)
    {id : Nat}
    (isLoaded : machine.state.registry.Loaded name id) :
    machine.Provides environment name := by
  refine ⟨id, ?_⟩
  intro after leads imports
  have stays := isLoaded.advances arises.consistent leads.advances
  have gives : after.GivesModule environment name id :=
    imports.givesModule (arises.leads leads).inFrame stays
  exact ⟨gives, gives.unchanged.1, gives.unchanged.2.2⟩

/-- The text of a module that is not loaded is read. -/
theorem Imports.readsText
    (imports : machine.Imports name)
    (inFrame : machine.InFrame)
    (consistent : machine.state.registry.Consistent)
    (unloaded : ∀ id, ¬ machine.state.registry.Loaded name id)
    {load : String → Option String}
    (loads : environment.settings.load = some load)
    {source : String}
    (supplied : load name = some source) :
    machine.ReadsText environment name source := by
  rcases imports with ⟨frame, index, executes, named⟩
  have stepped :
      machine.step environment =
        settle .script machine.subRuns
          (Action.importModule environment name
            (machine.state.fetched environment frame (.importModule index))) :=
    executes.import_eq named
  generalize isFetched : machine.state.fetched environment frame (.importModule index) = fetched
    at stepped
  have heap : fetched.heap = machine.state.heap := by
    rw [← isFetched, State.heap_fetched]
  have registry : fetched.registry = machine.state.registry := by
    rw [← isFetched, State.registry_fetched]
  have journal : fetched.journal.loads = machine.state.journal.loads := by
    rw [← isFetched, State.loads_fetched]
  have counted : fetched.frames.size = machine.state.frames.size := by
    rw [← isFetched, State.size_frames_fetched]
  have same := State.compiling_congr heap registry name source
  have unchanged := fetched.compiling_unchanged name source
  rw [← registry] at consistent unloaded
  have refusal := State.not_loaded_of_refused consistent unloaded source
  rw [Action.importModule_of_source unloaded loads supplied] at stepped
  unfold ReadsText
  rw [← same.1, ← same.2]
  rcases compiled : fetched.compiling name source with ⟨error | body, after⟩
  · rw [compiled] at stepped unchanged refusal
    refine ⟨?_, ⟨after, ?_⟩, ?_⟩
    · rw [stepped, loads_settle, unchanged.2.2, journal]
    · rw [stepped, executes.control]
      rfl
    · intro id
      rw [stepped, registry_settle]
      exact refusal id
  · have arity := State.arity_of_compiling consistent compiled
    rw [compiled] at stepped unchanged
    generalize (fetched.registry.ensure name).1 = position at stepped
    -- The module is marked before its body is entered.
    generalize isMarked :
      { after with registry := after.registry.modify position Module.markLoaded } = marked
    have calls :
        machine.step environment =
          settle .script machine.subRuns
            ((do
              Action.push environment.settings.limits (.function body)
              Action.callValue environment (.function body) 0 : Action Transition) marked) := by
      rw [stepped, ← isMarked]
      rfl
    have noArguments : (marked.heap.function body).arity = 0 := by
      rw [← isMarked]
      exact arity
    rcases Action.callBody environment noArguments with
      ⟨stack, frames, result, called, how⟩
    rw [called] at calls
    constructor
    · rw [calls, loads_settle, ← journal, ← isMarked]
      exact unchanged.2.2
    · rcases how with rfl | ⟨base, rfl, entered⟩
      · refine .inr ⟨{ marked with stack, frames }, ?_⟩
        rw [calls, executes.control]
        rfl
      · have framed : marked.frames.size = machine.state.frames.size := by
          rw [← counted, ← isMarked]
          exact congrArg Array.size unchanged.2.1
        have deep : machine.entryDepth < frames.size := by
          rw [entered, Array.size_push, framed]
          exact Nat.lt_succ_of_lt (inFrame executes.control)
        have goesOn :
            machine.step environment =
              { state := { marked with stack, frames }
                control := .script
                subRuns := machine.subRuns } :=
          calls.trans (if_pos deep)
        let frame : Frame :=
          { function := marked.heap.function body, offset := 0, base, initializer := false }
        refine .inl ⟨frame, ?_, rfl, ?_, ?_, ?_⟩
        · show marked.heap.function body = _
          rw [← isMarked]
        · rw [goesOn]
        · rw [goesOn, ← framed]
          show frames.size = marked.frames.size + 1
          rw [entered, Array.size_push]
        · rw [goesOn]
          show frames.back? = some _
          rw [entered, Array.back?_push]

end Machine

/--
If the embedding program compiles a text as the body of a module and the text is refused,
the module counts as loaded all the same: from then on every import of it gives the
module, without asking for a text and without starting a body.

An import of a module that is not loaded asks for the text.  If the text is refused, the
module is still not loaded, and the next import asks again; if the text is accepted, its
body is started unless there is no room for it.
-/
theorem refused_text_counts_as_loaded_outside_imports
    {environment : Environment}
    {machine : Machine}
    (arises : machine.Arises environment .any)
    (name : String) :
    (∀ mode source error refused,
        machine.control.isEnded = true →
        machine.state.addNamedSource mode name source = (.error error, refused) →
          Machine.Provides environment { machine with state := refused } name) ∧
      ∀ load source,
        machine.Imports name →
        (∀ id, ¬ machine.state.registry.Loaded name id) →
        environment.settings.load = some load →
        load name = some source →
          machine.ReadsText environment name source := by
  constructor
  · intro mode source error refused idle refuses
    have requested :
        machine.Event environment .any { machine with state := refused } := by
      have request :
          machine.Event environment .any
            { machine with
              state := ((HostRequest.compile mode name source).perform machine.state).2 } :=
        .request idle (.of_forall (fun _ => trivial) _)
      simp only [HostRequest.perform, refuses] at request
      exact request
    have later : Machine.Arises environment .any { machine with state := refused } :=
      arises.leads (.single requested)
    have prepared := Registry.loaded_markLoaded
      ((Registry.Advances.ensure machine.state.registry name).consistent arises.consistent)
      (Registry.find?_ensure machine.state.registry name)
    have isLoaded :
        refused.registry.Loaded name (machine.state.registry.ensure name).1 := by
      have same : (machine.state.addNamedSource mode name source).2 = refused := by
        rw [refuses]
      have advances := State.advances_addSource
        { machine.state with
          registry := (machine.state.registry.ensure name).2.modify
            (machine.state.registry.ensure name).1 Module.markLoaded }
        mode (machine.state.registry.ensure name).1 source
      rw [← same]
      exact prepared.2.advances prepared.1 advances
    exact Machine.provides_of_loaded later isLoaded
  · intro load source imports unloaded loads supplied
    exact imports.readsText arises.inFrame arises.consistent unloaded loads supplied

/-- A text without a variable name is refused as the body of `lib`. -/
def refusedLib : Except CompileError Nat × State :=
  Machine.bare.state.addNamedSource .run "lib" "var"

/-- The refused text hides the module; without it the module is read by its first import. -/
theorem refusedLib_is_provided_and_firstImport_reads :
    (∃ error, refusedLib.1 = .error error) ∧
      Machine.Provides cyclicEnvironment { Machine.bare with state := refusedLib.2 } "lib" ∧
      firstImport.Imports "lib" ∧
      (∀ id, ¬ firstImport.state.registry.Loaded "lib" id) ∧
      firstImport.ReadsText cyclicEnvironment "lib" "import \"lib\";" := by
  have refuses : refusedLib.1.toOption = none := by
    cbv
  have initial : firstImport.state.registry = Registry.initial :=
    rfl
  have missing : Registry.initial.find? "lib" = none := by
    decide
  have unloaded : ∀ id, ¬ firstImport.state.registry.Loaded "lib" id := by
    rintro id ⟨found, -⟩
    rw [initial, missing] at found
    cases found
  have arises : Machine.bare.Arises cyclicEnvironment .any := ⟨.bare, .bare, .refl⟩
  rcases outcome : refusedLib with ⟨error | body, refused⟩
  · have provides := (refused_text_counts_as_loaded_outside_imports arises "lib").1 .run "var"
      error refused rfl outcome
    have reads := (refused_text_counts_as_loaded_outside_imports firstImport_arises "lib").2 _ _
      firstImport_imports unloaded rfl rfl
    exact ⟨⟨error, rfl⟩, provides, firstImport_imports, unloaded, reads⟩
  · rw [outcome] at refuses
    cases refuses

/-- The module `m` has a text that prints a line. -/
def printingEnvironment : Environment where
  settings := { load := some fun name => if name = "m" then some "print true;" else none }
  host := Host.empty

/-- A new engine. -/
def printingEngine : Engine :=
  .create printingEnvironment

/-- A text without a variable name is refused as the body of `m`. -/
def refusal : Except EngineError Nat × Engine :=
  printingEngine.compile "m" "var"

/-- A run of a text that imports `m`. -/
def importingRun (engine : Engine) : Except EngineError Value × Engine :=
  engine.run "import \"m\";"

/--
In a new engine an import of `m` asks for the text and runs it.  Once another text has been
refused as the body of `m`, the import succeeds without asking and nothing is printed.
-/
theorem refused_text_hides_module :
    refusal.1 =
        .error (.compile
          { moduleName := "m"
            line := 1
            place := .inputEnd
            problem := .expected "variable name" }) ∧
      (importingRun printingEngine).2.state.journal.loads = #["m"] ∧
      (importingRun printingEngine).2.state.journal.texts = #["true\n"] ∧
      (importingRun refusal.2).1 = .ok .null ∧
      (importingRun refusal.2).2.state.journal.loads = #[] ∧
      (importingRun refusal.2).2.state.journal.texts = #[] := by
  refine ⟨?_, ?_⟩
  · cbv
  · cbv

end ScriptEngine
