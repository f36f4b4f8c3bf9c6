import ScriptEngine.Proofs.Machine.Balance

/-!
# Engines at rest

Between two operations of the embedding program no function is active, and the limits
allow for a call: every operation leaves frames and environment as they were.
-/

namespace ScriptEngine

namespace Engine

/-- An operation has left frames and environment as they were. -/
structure Retains (before after : Engine) : Prop where
  frames : after.state.frames = before.state.frames
  environment : after.environment = before.environment

variable {engine between after : Engine}

theorem Retains.refl (engine : Engine) : Retains engine engine :=
  ⟨rfl, rfl⟩

theorem Retains.trans (first : Retains engine between) (second : Retains between after) :
    Retains engine after :=
  ⟨second.frames.trans first.frames, second.environment.trans first.environment⟩

theorem retains_reportFailure
    {result : Except EngineError α × Engine}
    (retains : Retains engine result.2)
    (moduleName : String) :
    Retains engine (reportFailure moduleName result).2 := by
  rcases result with ⟨error | value, after⟩
  · exact ⟨retains.frames, retains.environment⟩
  · exact retains

theorem retains_callMachine
    (sound : engine.Sound)
    {callee : Value}
    {arguments : List Value}
    (calleeRefers : callee.Refers engine.state.known)
    (argumentsRefer : ∀ argument ∈ arguments, argument.Refers engine.state.known)
    (finished : (engine.callMachine callee arguments).1 ≠ .error .unfinished) :
    Retains engine (engine.callMachine callee arguments).2 := by
  have called := sound.state.call sound.behaves calleeRefers argumentsRefer
  have orderly := sound.state.orderly
  rcases engine with ⟨environment, state, reports⟩
  have balanced :
      ∀ outcome final,
        state.call environment callee arguments = (OuterCall.reported outcome, final) →
          final.frames = state.frames := by
    intro outcome final reports
    have returns := OuterCall.returns_of_call reports
    exact (OuterCall.Reaches.balanced orderly returns (Nat.lt_irrefl _)).2.1
  unfold callMachine at finished ⊢
  simp only at finished ⊢
  split at finished <;> rename_i outcome
  · exact ⟨balanced (.ok _) _ outcome, rfl⟩
  · exact ⟨balanced (.error _) _ outcome, rfl⟩
  · simp only [outcome] at called
    exact absurd rfl (called nofun).2.1
  · exact absurd rfl finished

theorem retains_callValue
    (sound : engine.Sound)
    {callee : Value}
    {arguments : List Value}
    (calleeRefers : callee.Refers engine.state.known)
    (argumentsRefer : ∀ argument ∈ arguments, argument.Refers engine.state.known)
    (finished : (engine.callValue callee arguments).1 ≠ .error .unfinished) :
    Retains engine (engine.callValue callee arguments).2 := by
  unfold callValue at finished ⊢
  rw [fst_reportFailure] at finished
  apply retains_reportFailure
  exact retains_callMachine sound calleeRefers argumentsRefer (finished_withoutUndefined finished)

theorem retains_compileIn
    (engine : Engine)
    (mode : CompileMode)
    (moduleName source : String) :
    Retains engine (engine.compileIn mode moduleName source).2 := by
  have unchanged := State.frames_addNamedSource engine.state mode moduleName source
  rcases engine with ⟨environment, state, reports⟩
  unfold compileIn
  simp only
  split <;> rename_i outcome <;> rw [outcome] at unchanged <;> exact ⟨unchanged.2, rfl⟩

theorem retains_interpret
    (sound : engine.Sound)
    {mode : CompileMode}
    {moduleName source : String}
    (finished : (engine.interpret mode moduleName source).1 ≠ .error .unfinished) :
    Retains engine (engine.interpret mode moduleName source).2 := by
  rcases sound_compileIn sound mode moduleName source with ⟨compiled, inside⟩
  have retains := retains_compileIn engine mode moduleName source
  unfold interpret at finished ⊢
  split
  · rename_i body after outcome
    simp only [outcome] at compiled inside finished retains
    exact retains.trans (retains_callMachine compiled (inside body rfl) nofun finished)
  · rename_i error after outcome
    simp only [outcome] at retains
    exact retains

theorem retains_runModule
    (sound : engine.Sound)
    {moduleName source : String}
    (finished : (engine.runModule moduleName source).1 ≠ .error .unfinished) :
    Retains engine (engine.runModule moduleName source).2 := by
  unfold runModule at finished ⊢
  rw [fst_reportFailure] at finished
  apply retains_reportFailure
  exact retains_interpret sound (finished_withoutUndefined finished)

theorem retains_define
    (engine : Engine)
    (moduleName name : String)
    (value : Value) :
    Retains engine (engine.define moduleName name value) := by
  unfold define
  split
  · exact ⟨rfl, rfl⟩
  · have defined : Retains engine (engine.defineVariable moduleName name value).2 := ⟨rfl, rfl⟩
    split <;> rename_i outcome <;> rw [outcome] at defined
    · exact defined
    · exact ⟨defined.frames, defined.environment⟩

/-- No function is active, and the limits allow for a call. -/
structure AtRest (engine : Engine) : Prop where
  noFrames : engine.state.frames = #[]
  frameAllowed : 0 < engine.environment.settings.limits.maxFrames
  callAllowed : 0 < engine.environment.settings.limits.maxNestedCalls

theorem AtRest.retained (atRest : engine.AtRest) (retains : Retains engine after) :
    after.AtRest := by
  refine ⟨retains.frames.trans atRest.noFrames, ?_, ?_⟩
  · rw [retains.environment]
    exact atRest.frameAllowed
  · rw [retains.environment]
    exact atRest.callAllowed

/-- Whatever was done with an engine, it is at rest. -/
theorem Reached.atRest
    {environment : Environment}
    (behaves : environment.host.Behaves)
    (reached : engine.Reached environment) :
    engine.AtRest := by
  induction reached with
  | create => exact ⟨rfl, Nat.le_max_right _ 1, Nat.le_max_right _ 1⟩
  | run before source finished induction =>
      exact induction.retained (retains_runModule (before.sound behaves) finished)
  | runModule before moduleName source finished induction =>
      exact induction.retained (retains_runModule (before.sound behaves) finished)
  | evaluate before source finished induction =>
      exact induction.retained
        (retains_interpret (before.sound behaves) (finished_withoutUndefined finished))
  | compile before mode moduleName source induction =>
      exact induction.retained (retains_compileIn _ mode moduleName source)
  | call before moduleName name refer finished induction =>
      refine induction.retained ?_
      unfold Engine.call at finished ⊢
      split
      · rename_i callee found
        simp only [found] at finished
        have sound := before.sound behaves
        exact retains_callValue sound (lookup_refers sound found) refer finished
      · apply retains_reportFailure
        exact .refl _
  | callValue before refers refer finished induction =>
      exact induction.retained (retains_callValue (before.sound behaves) refers refer finished)
  | assign before moduleName name refers induction =>
      refine induction.retained ?_
      unfold Engine.assign
      split
      · exact ⟨rfl, rfl⟩
      · apply retains_reportFailure
        exact .refl _
  | define before moduleName name refers induction =>
      exact induction.retained (retains_define _ moduleName name _)
  | registerFunction before moduleName native induction =>
      refine induction.retained ?_
      apply Retains.trans _ (retains_define _ moduleName _ _)
      exact ⟨rfl, rfl⟩
  | registerClass before moduleName refers induction =>
      refine induction.retained ?_
      apply Retains.trans _ (retains_define _ moduleName _ _)
      exact ⟨rfl, rfl⟩
  | request before refers keeps induction =>
      exact induction.retained ⟨(HostRequest.frames_perform _ _).2, rfl⟩
  | takeRecords before induction => exact induction.retained ⟨rfl, rfl⟩

end Engine

/-- The embedding program makes its calls at rest. -/
theorem CallPoint.atRest
    {given environment : Environment}
    {state : State}
    {around : List SubRun}
    (point : CallPoint given environment state around)
    (behaves : given.host.Behaves)
    (outermost : around = []) :
    state.frames = #[] ∧
      0 < environment.settings.limits.maxFrames ∧
      0 < environment.settings.limits.maxNestedCalls := by
  induction point with
  | idle reached =>
      have atRest := reached.atRest behaves
      exact ⟨atRest.noFrames, atRest.frameAllowed, atRest.callAllowed⟩
  | request _ request induction =>
      rcases induction outermost with ⟨noFrames, allowed⟩
      exact ⟨(request.frames_perform _).2.trans noFrames, allowed⟩
  | @during _ call point machine reaches induction =>
      have ended : ¬ call.Lasts machine := by
        unfold OuterCall.Lasts
        rw [outermost]
        exact Nat.not_lt_zero _
      rcases reaches.balanced point.orderly ended with ⟨-, frames, same⟩
      rcases induction (same.symm.trans outermost) with ⟨noFrames, allowed⟩
      exact ⟨frames.trans noFrames, allowed⟩

end ScriptEngine
