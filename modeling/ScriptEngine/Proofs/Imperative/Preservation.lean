import ScriptEngine.Proofs.Imperative.ProgramTranslation
import ScriptEngine.Proofs.Imperative.Simulation
import ScriptEngine.Proofs.Machine.Rest

/-!
# Compilation preserves the meaning of imperative programs

A text that is accepted becomes the body of a module, and calling the body does what
the interpreter does with the program in the text: the call writes the same texts,
leaves the same module variables, and ends normally or with the same fault.  Only the
machine has a stack that can get too large.
-/

namespace ScriptEngine

open Imperative

/-! ## Accepted texts -/

/-- A function of the heap is the body of a named module and does what a program says. -/
structure Imperative.Stmt.Installed (program : Stmt) (moduleName : String) (body : Nat)
    (state : State) (home : Nat) : Prop where
  found : state.registry.find? moduleName = some home
  inside : home < state.registry.modules.size
  indexed : (state.registry.moduleAt home).Indexed
  isBody : program.IsBodyOf (state.heap.function body) (state.registry.moduleAt home) home

theorem Imperative.installed_of_addNamedSource
    {program : Stmt}
    {moduleName source : String}
    {body : Nat}
    {state compiled : State}
    (orderly : state.Orderly)
    (written : program.IsWrittenAs source)
    (accepted : state.addNamedSource .run moduleName source = (.ok body, compiled)) :
    ∃ home, program.Installed moduleName body compiled home := by
  rcases orderly.registry with ⟨known, registrySound⟩
  rcases registrySound.ensure moduleName with ⟨ensured, inside⟩
  have marked := ensured.markLoaded (state.registry.ensure moduleName).1
  have found := state.registry.find?_ensure moduleName
  rcases state with ⟨stack, frames, heap, registry, journal⟩
  simp only [State.addNamedSource, State.addSource] at accepted
  generalize (registry.ensure moduleName).1 = home at inside marked found accepted
  rw [← Registry.size_modify _ home Module.markLoaded] at inside
  generalize isTable : (((registry.ensure moduleName).2.modify home Module.markLoaded).moduleAt
    home) = table at accepted
  have tableSound := marked.moduleAt inside
  rw [isTable] at tableSound
  split at accepted
  · cases accepted
  · rename_i functions success
    cases accepted
    rcases Compiler.isBody_of_compile written tableSound.indexed success with
      ⟨function, last, isBody⟩
    have typed := compile_wellTyped tableSound.indexed success
    have isFunction :
        Heap.function { heap with functions := heap.functions ++ functions }
          ((heap.functions ++ functions).size - 1) = function := by
      have nonempty := typed.nonempty
      rw [Array.back?_eq_getElem?] at last
      unfold Heap.function
      rw [Array.getD_eq_getD_getElem?, Array.size_append,
        Array.getElem?_append_right (by omega),
        show heap.functions.size + functions.size - 1 - heap.functions.size = functions.size - 1 by
          omega, last]
      rfl
    have isModule := Registry.moduleAt_replace inside
      (compile .run source table home heap.functions.size).table
    refine ⟨home, found, ?_, ?_, ?_⟩
    · rw [Registry.size_replace]
      exact inside
    · rw [isModule]
      exact typed.indexed
    · rw [isModule, isFunction]
      exact isBody

/-! ## Calling a body -/

namespace Imperative.Stmt.Installed

variable
  {program : Stmt}
  {moduleName : String}
  {body home : Nat}
  {state : State}

/-- Where a body is executed that is called in a state. -/
def site
    (installed : program.Installed moduleName body state home)
    (environment : Environment) :
    Site where
  environment := environment
  function := state.heap.function body
  below := state.frames
  callee := .function body
  ground := state.stack.toList.reverse
  heap := state.heap
  registry := state.registry
  journal := state.journal
  home := by
    rw [installed.isBody.home]
    exact installed.inside
  indexed := by
    rw [installed.isBody.home]
    exact installed.indexed

variable
  (installed : program.Installed moduleName body state home)
  {environment : Environment}

include installed

/-- What the interpreter starts with. -/
def beginning (_ : program.Installed moduleName body state home) : Store where
  blocks := []
  globals := state.registry.lookup? moduleName
  texts := []

theorem table_site : (installed.site environment).table = state.registry.moduleAt home := by
  show state.registry.moduleAt (state.heap.function body).home = _
  rw [installed.isBody.home]

/-- Variables of the module are looked up in the present contents. -/
theorem lookup_replace (contents : Array Value) (name : String) :
    (state.registry.replace home
        ((installed.site environment).tableWith contents)).lookup? moduleName name =
      ((installed.site environment).tableWith contents).assignedByName? name := by
  have found :
      (state.registry.replace home ((installed.site environment).tableWith contents)).find?
        moduleName = some home := installed.found
  show (((Registry.find? _ moduleName).bind fun id =>
    (state.registry.modules.setIfInBounds home _)[id]?).bind fun table =>
      table.assignedByName? name) = _
  rw [found, Option.bind_some, Array.getElem?_setIfInBounds_self_of_lt installed.inside,
    Option.bind_some]

theorem replace_table :
    state.registry.replace home
        ((installed.site environment).tableWith (installed.site environment).table.values) =
      state.registry := by
  have table : (installed.site environment).tableWith (installed.site environment).table.values =
      state.registry.moduleAt home := installed.table_site
  rw [table, Registry.replace, Registry.moduleAt_eq installed.inside]
  congr 1
  apply Array.ext
  · simp
  · intro position _ bound
    rw [Array.getElem_setIfInBounds bound]
    split
    · rename_i same
      subst same
      rfl
    · rfl

/-- The state when the body is entered. -/
theorem at_beginning
    (room : state.stack.size < environment.settings.limits.stackCapacity) :
    (installed.site environment).At (Scope.reserving "") 0 [] installed.beginning
      { state with
        stack := state.stack.push (.function body)
        frames := state.frames.push ((installed.site environment).frame 0) } := by
  refine ⟨rfl, by decide, nofun, ?_, (installed.site environment).table.values,
    state.journal.steps, ⟨rfl, fun name => ?_⟩, ?_⟩
  · show 0 + (state.stack.toList.reverse.length + 1) ≤ environment.settings.limits.stackCapacity
    rw [List.length_reverse, Array.length_toList]
    omega
  · rw [← installed.lookup_replace, replace_table]
    rfl
  · have stack :
        stackOf (.function body :: state.stack.toList.reverse) =
          state.stack.push (.function body) := by
      rw [← push_stackOf, stackOf_reverse_toList]
    have texts : state.journal.texts ++ ([] : List String).toArray = state.journal.texts := by
      simp
    show _ =
      ({ stack := stackOf (.function body :: state.stack.toList.reverse)
         frames := _
         heap := state.heap
         registry := state.registry.replace (state.heap.function body).home _
         journal := { state.journal with texts := state.journal.texts ++ [].toArray } } : State)
    rw [stack, texts, installed.isBody.home, replace_table]
    rfl

/-- Entering the body, unless the stack is full. -/
theorem enter_cases
    {depth : Nat}
    (callAllowed : depth ≤ environment.settings.limits.maxNestedCalls)
    (frameAllowed : state.frames.size < environment.settings.limits.maxFrames) :
    (environment.settings.limits.stackCapacity ≤ state.stack.size ∧
        Machine.enter environment depth (.function body) [] state =
          (.error (.fault .stackOverflow), state)) ∨
      ∃ entered,
        Machine.enter environment depth (.function body) [] state = (.ok .proceed, entered) ∧
          entered.frames.size = state.frames.size + 1 ∧
          (installed.site environment).At (Scope.reserving "") 0 [] installed.beginning
            entered := by
  have begins :
      Machine.enter environment depth (.function body) [] state =
        (do
          Action.push environment.settings.limits (.function body)
          Action.callValue environment (.function body) 0) state := by
    have notDeep : ¬ environment.settings.limits.maxNestedCalls < depth :=
      Nat.not_lt.mpr callAllowed
    have few : ¬ Compiler.maxArguments < ([] : List Value).length := Nat.not_lt_zero _
    unfold Machine.enter
    rw [if_neg notDeep, if_neg few]
    rfl
  by_cases room : state.stack.size < environment.settings.limits.stackCapacity
  · have pushes :
        Action.push environment.settings.limits (.function body) state =
          (.ok (), { state with stack := state.stack.push (.function body) }) :=
      if_pos room
    have arity : ¬ 0 ≠ (state.heap.function body).arity := by
      rw [installed.isBody.arity]
      exact fun different => different rfl
    have notMany : ¬ environment.settings.limits.maxFrames ≤ state.frames.size :=
      Nat.not_le.mpr frameAllowed
    refine .inr ⟨_, ?_, Array.size_push _, installed.at_beginning room⟩
    rw [begins, Action.bind_of_ok pushes]
    simp only [Action.callValue, Action.pushFrame, Site.run_bind, Site.run_pure, Action.look,
      if_neg arity, if_neg notMany, Action.calleeSlot, Action.change]
    simp [Site.frame, site]
  · have faults :
        Action.push environment.settings.limits (.function body) state =
          (.error (.fault .stackOverflow), state) :=
      if_neg room
    refine .inl ⟨Nat.le_of_not_lt room, ?_⟩
    rw [begins, Action.bind_of_error faults]

end Imperative.Stmt.Installed

/-! ## Running the body -/

namespace OuterCall

variable {call : OuterCall} {environment : Environment}

/-- The machine while the function that was called is executed. -/
def executing (call : OuterCall) (state : State) : Machine where
  state := state
  control := .script
  subRuns := call.subRun :: call.around

theorem settle_finished (call : OuterCall) (value : Value) (after : State) :
    Machine.settle .script (call.subRun :: call.around) (.ok (.finished value), after) =
      call.returned (.ok value) after := by
  unfold Machine.settle Machine.conclude returned deliver subRun
  rcases call.awaiting with _ | ⟨caller, next⟩ <;> rfl

/-- The state after a call that has failed. -/
def failed (call : OuterCall) (after : State) : State :=
  { after with
    stack := after.stack.shrink call.state.stack.size
    frames := after.frames.shrink call.state.frames.size }

theorem settle_fault (call : OuterCall) (fault : Fault) (after : State) :
    Machine.settle .script (call.subRun :: call.around) (.error (.fault fault), after) =
      call.returned
        (.error { fault, trace := Machine.traceFrom after call.state.frames.size })
        (call.failed after) := by
  unfold Machine.settle Machine.raise Machine.conclude returned deliver subRun
  rcases call.awaiting with _ | ⟨caller, next⟩ <;> rfl

theorem settle_proceed
    {after : State}
    (inside : call.state.frames.size < after.frames.size) :
    Machine.settle .script (call.subRun :: call.around) (.ok .proceed, after) =
      call.executing after := by
  exact if_pos inside

section Steps

variable
  {state after : State}
  (reaches : call.Reaches environment (call.executing state))

include reaches

theorem Reaches.settled :
    call.Reaches environment
      (Machine.settle .script (call.subRun :: call.around)
        (Action.step environment call.state.frames.size state)) :=
  reaches.step (Nat.lt_succ_self _)

theorem Reaches.proceeds
    (proceeds : Action.step environment call.state.frames.size state = (.ok .proceed, after))
    (inside : call.state.frames.size < after.frames.size) :
    call.Reaches environment (call.executing after) := by
  have settled := reaches.settled
  rwa [proceeds, settle_proceed inside] at settled

theorem Reaches.finishes
    {value : Value}
    (finishes :
      Action.step environment call.state.frames.size state = (.ok (.finished value), after)) :
    call.Returns environment (.ok value) after := by
  have settled := reaches.settled
  rwa [finishes, settle_finished] at settled

theorem Reaches.fails
    {fault : Fault}
    (fails :
      Action.step environment call.state.frames.size state = (.error (.fault fault), after)) :
    call.Returns environment
      (.error { fault, trace := Machine.traceFrom after call.state.frames.size })
      (call.failed after) := by
  have settled := reaches.settled
  rwa [fails, settle_fault] at settled

end Steps

/-- The call has failed because the stack was full. -/
structure Overfills (call : OuterCall) (environment : Environment)
    (outcome : Except RuntimeError Value) : Prop where
  fault : ∃ trace, outcome = .error { fault := .stackOverflow, trace }
  full :
    ∃ machine,
      call.Reaches environment machine ∧
        environment.settings.limits.stackCapacity ≤ machine.state.stack.size

/-- What the machine gets to inside the body, the call gets to. -/
theorem reaches_of_leads
    {site : Site}
    {goal : State → Prop}
    {state : State}
    (leads : site.Leads goal state)
    (depth : call.state.frames.size = site.depth)
    (reaches : call.Reaches site.environment (call.executing state)) :
    (∃ final, goal final ∧ call.Reaches site.environment (call.executing final)) ∨
      ∃ outcome final,
        call.Returns site.environment outcome final ∧ call.Overfills site.environment outcome := by
  induction leads with
  | here reached => exact .inl ⟨_, reached, reaches⟩
  | step proceeds inside _ induction =>
      rw [← depth] at proceeds inside
      exact induction (reaches.proceeds proceeds inside)
  | overflow full faults =>
      rw [← depth] at faults
      exact .inr ⟨_, _, reaches.fails faults, ⟨_, rfl⟩, _, reaches, full⟩

end OuterCall

/-! ## The end of the body -/

namespace Imperative.Site

variable {site : Site} {store : Store} {state : State}

/-- The next step returns from the body, with the variables and texts of a store. -/
def Finishes (site : Site) (store : Store) (state : State) : Prop :=
  ∃ after,
    Action.step site.environment site.depth state = (.ok (.finished .null), after) ∧
      site.Shows store after

theorem leave_state
    {offset : Nat}
    {value : Value}
    {values : List Value}
    {contents : Array Value}
    {texts steps : Array String} :
    Action.execute site.environment site.depth .leave
        (site.state ⟨offset, value :: values, contents, texts, steps⟩) =
      (.ok (.finished value),
        { site.state ⟨offset, values, contents, texts, steps⟩ with
          stack := stackOf site.ground
          frames := site.below }) := by
  have stack := shrink_stackOf (values ++ [site.callee]) site.ground
  rw [List.append_assoc, List.singleton_append] at stack
  simp only [Action.execute, Action.leave, run_bind, run_pure, pop_state, frame_state,
    Action.change, Action.look, frame, Action.cutStack, Bool.false_eq_true, if_false]
  have outside : site.below.size ≤ site.depth := Nat.le_refl _
  simp only [Site.state, Array.pop_push, stack]
  rw [if_pos outside]
  rfl

/-- Behind its statements a body returns null. -/
theorem At.finishes
    {scope : Scope}
    {offset : Nat}
    (isAt : site.At scope offset [] store state)
    (codeAt : site.function.CodeAt offset [.pushNull, .leave]) :
    site.Leads (site.Finishes store) state := by
  refine (isAt.null codeAt.head).bind fun pushed isPushed => ?_
  rcases isPushed.present with ⟨contents, steps, mirrors, rfl⟩
  rcases @step_state site (offset + 1) .leave ([.null] ++ valuesOf store.blocks) contents
    (site.written store.texts) steps codeAt.tail nofun with ⟨recorded, steps⟩
  exact .here ⟨_, steps.trans leave_state, rfl, contents, mirrors, rfl⟩

end Imperative.Site

/-! ## Meaning -/

/-- The fault of a program is that of the call, and a normal end is one of the call. -/
inductive SameEnd : Except Fault Unit → Except RuntimeError Value → Prop where
  | normal : SameEnd (.ok ()) (.ok .null)
  | fault (fault : Fault) (trace : List TraceEntry) :
    SameEnd (.error fault) (.error { fault, trace })

/-- A call has ended as the interpretation of a program, with the same texts and variables. -/
structure OuterCall.EndsLike (call : OuterCall) (moduleName : String) (ending : Except Fault Unit)
    (store : Store) (outcome : Except RuntimeError Value) (final : State) : Prop where
  sameEnd : SameEnd ending outcome
  texts : final.journal.texts = call.state.journal.texts ++ store.texts.toArray
  globals : ∀ name, final.registry.lookup? moduleName name = store.globals name

section Meaning

variable
  {environment : Environment}
  {call : OuterCall}
  {program : Stmt}
  {moduleName : String}
  {body home : Nat}

theorem OuterCall.EndsLike.of_shows
    {ending : Except Fault Unit}
    {store : Store}
    {outcome : Except RuntimeError Value}
    {after final : State}
    (installed : program.Installed moduleName body call.state home)
    (shows : (installed.site environment).Shows store after)
    (sameTexts : final.journal.texts = after.journal.texts)
    (sameRegistry : final.registry = after.registry)
    (sameEnd : SameEnd ending outcome) :
    call.EndsLike moduleName ending store outcome final := by
  rcases shows with ⟨texts, contents, mirrors, registry⟩
  refine ⟨sameEnd, sameTexts.trans texts, fun name => ?_⟩
  have sameHome : (installed.site environment).function.home = home := installed.isBody.home
  rw [sameRegistry, registry, sameHome, ← mirrors.reads name]
  exact installed.lookup_replace contents name

/-- A call of a body does what the interpreter does with the program. -/
theorem Imperative.Stmt.Installed.call_ends
    (installed : program.Installed moduleName body call.state home)
    (isCallee : call.callee = .function body)
    (noArguments : call.arguments = [])
    (callAllowed : call.around.length < environment.settings.limits.maxNestedCalls)
    (frameAllowed : call.state.frames.size < environment.settings.limits.maxFrames)
    {bound : Nat}
    {ending : Except Fault Unit}
    {store : Store}
    (terminates :
      program.run call.state.heap.display bound installed.beginning = some (ending, store)) :
    ∃ outcome final,
      call.Returns environment outcome final ∧
        (call.EndsLike moduleName ending store outcome final ∨
          call.Overfills environment outcome) := by
  have isEntered :
      call.entered environment =
        Machine.settle .script (call.subRun :: call.around)
          (Machine.enter environment (call.around.length + 1) (.function body) [] call.state) := by
    rw [← isCallee, ← noArguments]
    rfl
  have begins : call.Reaches environment (call.entered environment) := .entered
  rw [isEntered] at begins
  rcases installed.enter_cases callAllowed frameAllowed with
    ⟨full, refused⟩ | ⟨entered, accepted, frames, isAt⟩
  · rw [refused, OuterCall.settle_fault] at begins
    refine ⟨_, _, begins, .inr ⟨⟨_, rfl⟩, _, begins, ?_⟩⟩
    show _ ≤ (call.state.stack.shrink call.state.stack.size).size
    simpa using full
  rw [accepted, OuterCall.settle_proceed (by omega)] at begins
  rcases installed.isBody.coded with ⟨code, encoded, coded⟩
  have codeAt :
      (installed.site environment).function.CodeAt 0
        (code ++ [Instruction.pushNull, Instruction.leave]) :=
    ⟨[], [], by rw [List.nil_append, List.append_nil]; exact encoded, rfl⟩
  have table : (installed.site environment).table = call.state.registry.moduleAt home :=
    installed.table_site
  have isBook :
      (installed.site environment).book =
        { pool := (call.state.heap.function body).chunk.pool
          table := call.state.registry.moduleAt home } := by
    rw [← table]
    rfl
  rw [← isBook] at coded
  have leads := coded.does bound 0 codeAt.left _ _ isAt _ _ terminates
  cases ending with
  | ok value =>
      have finishes := leads.bind fun between isEnd => Site.At.finishes isEnd codeAt.right
      rcases OuterCall.reaches_of_leads finishes rfl begins with
        ⟨last, ⟨after, steps, shows⟩, reaches⟩ | ⟨outcome, final, returns, overfills⟩
      · exact ⟨_, after, reaches.finishes steps,
          .inl (.of_shows installed shows rfl rfl .normal)⟩
      · exact ⟨outcome, final, returns, .inr overfills⟩
  | error fault =>
      rcases OuterCall.reaches_of_leads leads rfl begins with
        ⟨last, ⟨after, faults, shows⟩, reaches⟩ | ⟨outcome, final, returns, overfills⟩
      · exact ⟨_, _, reaches.fails faults,
          .inl (.of_shows installed shows rfl rfl (.fault fault _))⟩
      · exact ⟨outcome, final, returns, .inr overfills⟩

end Meaning

/--
Compilation preserves the meaning of imperative programs.  Wherever a text is compiled
and whatever has been done before, if it is accepted and contains a program that the
interpreter brings to an end, then a call of its body comes to an end: the call writes
the texts that the interpreter writes, leaves the module variables that it leaves, and
returns normally or fails with the fault of the interpreter, or else it fails because
the stack is full.  The embedding program can always make the call; a host routine can
make it as long as the limits allow for another frame and another call.
-/
theorem compilation_preserves_meaning
    {given environment : Environment}
    {state : State}
    {around : List SubRun}
    (point : CallPoint given environment state around)
    (behaves : given.host.Behaves)
    (allowed :
      around ≠ [] →
        state.frames.size < environment.settings.limits.maxFrames ∧
          around.length < environment.settings.limits.maxNestedCalls)
    {moduleName source : String}
    {body : Nat}
    {compiled : State}
    (accepted : state.addNamedSource .run moduleName source = (.ok body, compiled))
    {program : Stmt}
    (written : program.IsWrittenAs source)
    {bound : Nat}
    {ending : Except Fault Unit}
    {store : Store}
    (terminates :
      program.run compiled.heap.display bound
          { blocks := [], globals := compiled.registry.lookup? moduleName, texts := [] } =
        some (ending, store))
    (awaiting : Option (HostCall × (Except RuntimeError Value → HostProgram))) :
    ∃ outcome final,
      OuterCall.Returns environment
          { state := compiled, around, callee := .function body, arguments := [], awaiting }
          outcome final ∧
        (OuterCall.EndsLike
            { state := compiled, around, callee := .function body, arguments := [], awaiting }
            moduleName ending store outcome final ∨
          OuterCall.Overfills
            { state := compiled, around, callee := .function body, arguments := [], awaiting }
            environment outcome) := by
  rcases installed_of_addNamedSource point.orderly written accepted with ⟨home, installed⟩
  have sameFrames : compiled.frames = state.frames := by
    have unchanged := State.frames_addNamedSource state .run moduleName source
    rw [accepted] at unchanged
    exact unchanged.2
  have room :
      state.frames.size < environment.settings.limits.maxFrames ∧
        around.length < environment.settings.limits.maxNestedCalls := by
    by_cases outermost : around = []
    · rcases point.atRest behaves outermost with ⟨noFrames, frameAllowed, callAllowed⟩
      rw [noFrames, outermost]
      exact ⟨frameAllowed, callAllowed⟩
    · exact allowed outermost
  exact installed.call_ends rfl rfl room.2 (by rw [sameFrames]; exact room.1) terminates

/-! ## A loop of one round -/

/-- A text with a loop that goes round once. -/
def waitingSource : String :=
  "var a=true;while(a)\x7bprint a;a=false;\x7d"

/-- The tokens of the text. -/
def waitingTokens : Array Token :=
  #[⟨.keyword .varWord, 0, 3, 1, "var"⟩,
    ⟨.identifier "a", 4, 5, 1, "a"⟩,
    ⟨.punctuation .equal, 5, 6, 1, "="⟩,
    ⟨.keyword .trueWord, 6, 10, 1, "true"⟩,
    ⟨.punctuation .semicolon, 10, 11, 1, ";"⟩,
    ⟨.keyword .whileWord, 11, 16, 1, "while"⟩,
    ⟨.punctuation .leftParen, 16, 17, 1, "("⟩,
    ⟨.identifier "a", 17, 18, 1, "a"⟩,
    ⟨.punctuation .rightParen, 18, 19, 1, ")"⟩,
    ⟨.punctuation .leftBrace, 19, 20, 1, "\x7b"⟩,
    ⟨.keyword .printWord, 20, 25, 1, "print"⟩,
    ⟨.identifier "a", 26, 27, 1, "a"⟩,
    ⟨.punctuation .semicolon, 27, 28, 1, ";"⟩,
    ⟨.identifier "a", 28, 29, 1, "a"⟩,
    ⟨.punctuation .equal, 29, 30, 1, "="⟩,
    ⟨.keyword .falseWord, 30, 35, 1, "false"⟩,
    ⟨.punctuation .semicolon, 35, 36, 1, ";"⟩,
    ⟨.punctuation .rightBrace, 36, 37, 1, "\x7d"⟩,
    ⟨.endOfInput, 37, 37, 1, ""⟩]

theorem waitingSource_scanned : Token.scan waitingSource = .ok waitingTokens := by
  cbv

/-- The name of the variable. -/
def waitingName : Name where
  spelling := "a"
  isName := ⟨by decide, by decide⟩

/-- The program in the text. -/
def waitingProgram : Stmt :=
  .followed (.declare waitingName (some (.literal .trueWord)))
    (.followed
      (.loop (.named waitingName)
        (.block
          (.followed (.print (.named waitingName))
            (.followed (.expression (.assign waitingName (.literal .falseWord))) .nothing))))
      .nothing)

theorem waitingProgram_written : waitingProgram.IsWrittenAs waitingSource := by
  have named : Expr.Spelled (.named waitingName) [.identifier "a"] :=
    Syntax.Derives.loosen .name _ (by decide)
  have truth : Expr.Spelled (.literal .trueWord) [.keyword .trueWord] :=
    Syntax.Derives.loosen (.word rfl) _ (by decide)
  have falsehood : Expr.Spelled (.literal .falseWord) [.keyword .falseWord] :=
    Syntax.Derives.loosen (.word rfl) _ (by decide)
  have assigned :
      Expr.Spelled (.assign waitingName (.literal .falseWord))
        [.identifier "a", .punctuation .equal, .keyword .falseWord] :=
    .assignName falsehood
  refine ⟨waitingTokens, waitingSource_scanned, ?_⟩
  refine .followed (@Reads.initialized waitingName _ _ _ truth) ?_
  refine .followed (.statement (.loop named (.block ?_))) .nothing
  refine .followed (.statement (.print named)) ?_
  exact .followed (.statement (.expression assigned)) .nothing

/-- The state of a fresh engine, in which the text is compiled. -/
def waitingState : State :=
  (Engine.create { settings := {}, host := Host.empty }).state

/-- The state in which the body of the text is called. -/
def waitingCompiled : State :=
  (waitingState.addNamedSource .run "main" waitingSource).2

set_option maxRecDepth 2048 in
theorem waitingSource_accepted :
    waitingState.addNamedSource .run "main" waitingSource = (.ok 0, waitingCompiled) := by
  refine Prod.ext ?_ rfl
  simp only [State.addNamedSource, State.addSource, compile, waitingSource_scanned]
  cbv

theorem texts_waitingCompiled : waitingCompiled.journal.texts = #[] := by
  unfold waitingCompiled State.addNamedSource State.addSource
  simp only
  split <;> rfl

/-- The call of the body writes one text and leaves the variable false. -/
theorem waitingProgram_keeps_meaning :
    ∃ outcome final,
      (OuterCall.outermost waitingCompiled (.function 0) []).Returns
          (Engine.create { settings := {}, host := Host.empty }).environment outcome final ∧
        ((outcome = .ok .null ∧ final.journal.texts = #["true\n"] ∧
            final.registry.lookup? "main" "a" = some (.bool false)) ∨
          (OuterCall.outermost waitingCompiled (.function 0) []).Overfills
            (Engine.create { settings := {}, host := Host.empty }).environment outcome) := by
  have point : CallPoint { settings := {}, host := Host.empty } _ waitingState [] :=
    .idle .create
  have behaves : Host.empty.Behaves := fun _ _ _ _ _ _ => ⟨rfl, trivial⟩
  rcases compilation_preserves_meaning point behaves nofun waitingSource_accepted
    waitingProgram_written (rfl : waitingProgram.run _ 2 _ = some (.ok (), _)) none with
    ⟨outcome, final, returns, ends | overfills⟩
  · refine ⟨outcome, final, returns, .inl ⟨?_, ?_, ?_⟩⟩
    · cases ends.sameEnd
      rfl
    · rw [ends.texts, texts_waitingCompiled]
      rfl
    · rw [ends.globals]
      rfl
  · exact ⟨outcome, final, returns, .inr overfills⟩

end ScriptEngine
