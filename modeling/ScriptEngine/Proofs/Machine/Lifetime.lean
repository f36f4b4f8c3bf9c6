import ScriptEngine.Proofs.Machine.Definedness
import ScriptEngine.Proofs.Machine.Orderly

/-!
# What engines keep

Every operation of the embedding program changes the state in the ways that
`State.Change` lists, so whatever was done with an engine, an invariant of these changes
holds (`Engine.Reached.keeps`).  In particular the names and slots of its modules agree.
-/

namespace ScriptEngine

namespace Engine

/-- The state has a property, and the environment is the one with which the engine was made. -/
structure Keeps (holds : State → Prop) (given : Environment) (engine : Engine) : Prop where
  state : holds engine.state
  environment : engine.environment = (bare given).environment

section Operations

variable
  {given : Environment}
  {holds : State → Prop}
  {engine : Engine}
  (invariant :
    State.Invariant (bare given).environment.settings.limits (fun _ => True) holds)
  (kept : engine.Keeps holds given)

include kept

theorem keeps_report (error : EngineError) (moduleName : String) :
    (engine.report error moduleName).Keeps holds given :=
  ⟨kept.state, kept.environment⟩

omit kept in
theorem keeps_reportFailure
    {result : Except EngineError α × Engine}
    (kept : result.2.Keeps holds given)
    (moduleName : String) :
    (reportFailure moduleName result).2.Keeps holds given := by
  rcases result with ⟨error | value, engine⟩
  · exact keeps_report kept _ _
  · exact kept

include invariant

theorem keeps_request (request : HostRequest) :
    (engine.request request).2.Keeps holds given :=
  ⟨Machine.perform_keeps invariant kept.state (.of_forall (fun _ => trivial) request),
    kept.environment⟩

theorem keeps_callMachine (callee : Value) (arguments : List Value) :
    (engine.callMachine callee arguments).2.Keeps holds given := by
  have runs :
      ∀ bound machine,
        Machine.Holds holds (fun _ => True) machine →
          (Machine.run (bare given).environment bound machine).Holds holds fun _ => True := by
    intro bound
    induction bound with
    | zero => exact fun _ => id
    | succ bound induction =>
        intro machine holding
        unfold Machine.run
        split
        · exact holding
        · exact induction _
            (holding.step invariant (Machine.supplied_of_forall (fun _ => trivial) machine))
  have begins :
      (Machine.start (bare given).environment engine.state [] callee arguments none).Holds holds
        fun _ => True := by
    refine Machine.holds_start invariant kept.state (List.forall_mem_nil _) trivial
      (fun _ _ => trivial) ?_
    rintro _ _ ⟨⟩
  have called : holds (engine.state.call engine.environment callee arguments).2 := by
    rw [kept.environment]
    exact (runs _ _ begins).state
  have environment := kept.environment
  rcases engine with ⟨surroundings, state, reports⟩
  unfold callMachine
  simp only
  split <;> rename_i outcome <;> rw [outcome] at called <;> exact ⟨called, environment⟩

theorem keeps_callValue (callee : Value) (arguments : List Value) :
    (engine.callValue callee arguments).2.Keeps holds given := by
  have called : (withoutUndefined (engine.callMachine callee arguments)).2.Keeps holds given :=
    keeps_callMachine invariant kept callee arguments
  exact keeps_reportFailure called _

theorem keeps_compileIn (mode : CompileMode) (moduleName source : String) :
    (engine.compileIn mode moduleName source).2.Keeps holds given := by
  have requested := (keeps_request invariant kept (.compile mode moduleName source)).state
  have environment := kept.environment
  rcases engine with ⟨surroundings, state, reports⟩
  unfold request HostRequest.perform at requested
  unfold compileIn
  simp only at requested ⊢
  split <;> rename_i outcome <;> rw [outcome] at requested <;> exact ⟨requested, environment⟩

theorem keeps_interpret (mode : CompileMode) (moduleName source : String) :
    (engine.interpret mode moduleName source).2.Keeps holds given := by
  have compiled := keeps_compileIn invariant kept mode moduleName source
  unfold interpret
  split <;> rename_i outcome <;> rw [outcome] at compiled
  · exact keeps_callMachine invariant compiled _ _
  · exact compiled

theorem keeps_runModule (moduleName source : String) :
    (engine.runModule moduleName source).2.Keeps holds given := by
  have ran : (withoutUndefined (engine.interpret .run moduleName source)).2.Keeps holds given :=
    keeps_interpret invariant kept .run moduleName source
  exact keeps_reportFailure ran _

theorem keeps_define (moduleName name : String) (value : Value) :
    (engine.define moduleName name value).Keeps holds given := by
  unfold define
  split
  · exact keeps_request invariant kept (.defineBuiltin name value)
  · have defined := keeps_request invariant kept (.defineVariable moduleName name value)
    change (engine.defineVariable moduleName name value).2.Keeps holds given at defined
    split <;> rename_i outcome <;> rw [outcome] at defined
    · exact defined
    · exact keeps_report defined _ _

theorem keeps_registerClass (moduleName : String) (blueprint : Blueprint) :
    (engine.registerClass moduleName blueprint).Keeps holds given := by
  have built : holds (engine.state.build blueprint).2 := by
    refine invariant.change kept.state
      (.heap ?_ (fun _ => .of_forall (fun _ => trivial) _) (.of_same ?_))
    · exact (engine.state.heap.addMethods blueprint.methods).2.functions_addMethods _
        |>.trans (engine.state.heap.functions_addMethods _)
    · exact (engine.state.heap.addMethods blueprint.methods).2.objects_addMethods _
        |>.trans (engine.state.heap.objects_addMethods _)
  have equipped : Keeps holds given { engine with state := (engine.state.build blueprint).2 } :=
    ⟨built, kept.environment⟩
  exact keeps_define invariant equipped _ _ _

theorem keeps_assign (moduleName name : String) (value : Value) :
    (engine.assign moduleName name value).2.Keeps holds given := by
  unfold assign
  split
  · rename_i registry assigned
    refine ⟨invariant.change kept.state (.registry ?_), kept.environment⟩
    unfold Registry.assign? at assigned
    rcases Option.bind_eq_some_iff.mp assigned with ⟨id, -, found⟩
    rcases Option.bind_eq_some_iff.mp found with ⟨slot, -, same⟩
    cases same
    exact .assign id slot trivial
  · exact keeps_reportFailure kept _

end Operations

variable {given : Environment} {engine : Engine}

/-- Whatever was done with an engine, an invariant of the changes of a state holds. -/
theorem Reached.keeps
    {holds : State → Prop}
    (invariant : State.Invariant (bare given).environment.settings.limits (fun _ => True) holds)
    (begins : holds (Engine.create given).state)
    (reached : engine.Reached given) :
    engine.Keeps holds given := by
  induction reached with
  | create => exact ⟨begins, rfl⟩
  | run _ source _ kept => exact keeps_runModule invariant kept mainModule source
  | runModule _ moduleName source _ kept => exact keeps_runModule invariant kept moduleName source
  | evaluate _ source _ kept => exact keeps_interpret invariant kept .eval mainModule source
  | compile _ mode moduleName source kept =>
      exact keeps_compileIn invariant kept mode moduleName source
  | call _ moduleName name _ _ kept =>
      unfold Engine.call
      split
      · exact keeps_callValue invariant kept _ _
      · exact keeps_reportFailure kept _
  | callValue _ _ _ _ kept => exact keeps_callValue invariant kept _ _
  | assign _ moduleName name _ kept => exact keeps_assign invariant kept moduleName name _
  | define _ moduleName name _ kept => exact keeps_define invariant kept moduleName name _
  | registerFunction _ moduleName native kept =>
      have added := keeps_request invariant kept (.addNative native)
      exact keeps_define invariant added moduleName _ _
  | registerClass _ moduleName _ kept => exact keeps_registerClass invariant kept moduleName _
  | request _ _ _ kept => exact keeps_request invariant kept _
  | takeRecords _ kept =>
      exact ⟨invariant.change kept.state (.journal {}), kept.environment⟩

/-- The names and slots of the modules of an engine agree. -/
theorem Reached.consistent (reached : engine.Reached given) :
    engine.state.registry.Consistent :=
  (reached.keeps (State.each_invariant _) Machine.Fresh.equipped.each.state).state.2

theorem Reached.environment_eq (reached : engine.Reached given) :
    engine.environment = (bare given).environment :=
  (reached.keeps (State.each_invariant _) Machine.Fresh.equipped.each.state).environment

end Engine

end ScriptEngine
