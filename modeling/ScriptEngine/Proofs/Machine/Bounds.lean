import ScriptEngine.Proofs.Machine.History

/-!
# Bounds on stack, frames and calls

However a machine came about, and whatever code it runs, its stack, its frames and
the calls from outside that have not ended stay within the limits.  A call from
outside counts from its entry until its outcome is delivered, and then the calls
around it are again those inside which it began.
-/

namespace ScriptEngine

/-- Stack and frames are no larger than the limits allow. -/
structure State.WithinLimits (limits : Limits) (state : State) : Prop where
  stack : state.stack.size ≤ limits.stackCapacity
  frames : state.frames.size ≤ limits.maxFrames

/-- Stack, frames and the calls from outside are no more than the limits allow. -/
structure Machine.WithinLimits (limits : Limits) (machine : Machine) : Prop where
  state : machine.state.WithinLimits limits
  calls : machine.subRuns.length ≤ limits.maxNestedCalls

/-- Nothing grows past its limit. -/
theorem State.withinLimits_invariant (limits : Limits) :
    State.Invariant limits (fun _ => True) (State.WithinLimits limits) where
  each := fun {state} _ => .of_forall (fun _ => trivial) state
  change := by
    rintro before after ⟨stack, frames⟩ change
    cases change with
    | stack stored bounded =>
        exact ⟨Nat.le_trans bounded (Nat.max_le.mpr ⟨stack, Nat.le_refl _⟩), frames⟩
    | frames known bounded =>
        exact ⟨stack, Nat.le_trans bounded (Nat.max_le.mpr ⟨frames, Nat.le_refl _⟩)⟩
    | compile mode found source =>
        rcases State.frames_addSource before mode _ source with ⟨sameStack, sameFrames⟩
        exact ⟨by rwa [sameStack], by rwa [sameFrames]⟩
    | heap | registry | journal => exact ⟨stack, frames⟩

namespace Machine

variable {environment : Environment}

/-! ## The number of calls -/

theorem length_conclude_le (machine : Machine) (outcome : Except RuntimeError Value) :
    (machine.conclude outcome).subRuns.length ≤ machine.subRuns.length := by
  rcases machine with ⟨state, control, _ | ⟨⟨mark, depth, _ | ⟨call, next⟩⟩, outer⟩⟩
  · exact Nat.le_refl _
  · exact Nat.le_succ _
  · exact Nat.le_succ _

theorem length_raise_le (machine : Machine) (fault : Fault) :
    (machine.raise fault).subRuns.length ≤ machine.subRuns.length := by
  unfold raise
  split <;> exact length_conclude_le _ _

theorem length_resume_le (machine : Machine) :
    machine.resume.subRuns.length ≤ machine.subRuns.length := by
  unfold resume
  split
  · exact Nat.le_refl _
  · split
    · exact length_conclude_le _ _
    · exact length_raise_le _ _

theorem length_settle_le
    (control : Control)
    (subRuns : List SubRun)
    (result : Except Interruption Transition × State) :
    (settle control subRuns result).subRuns.length ≤ subRuns.length := by
  unfold settle
  split
  · exact length_resume_le _
  · exact Nat.le_refl _
  · exact length_conclude_le _ _
  · exact length_raise_le _ _
  · exact Nat.le_refl _

/-- A call that would be one too many ends at its entry. -/
theorem length_start_le
    (state : State)
    (subRuns : List SubRun)
    (callee : Value)
    (arguments : List Value)
    (awaiting : Option (HostCall × (Except RuntimeError Value → HostProgram))) :
    (start environment state subRuns callee arguments awaiting).subRuns.length ≤
      max subRuns.length environment.settings.limits.maxNestedCalls := by
  unfold start
  by_cases full : environment.settings.limits.maxNestedCalls < subRuns.length + 1
  · have refused :
        enter environment (subRuns.length + 1) callee arguments state =
          (.error (.fault .stackOverflow), state) := by
      unfold enter
      rw [if_pos full]
      rfl
    rw [refused]
    rcases awaiting with _ | ⟨call, next⟩ <;> exact Nat.le_max_left _ _
  · refine Nat.le_trans (length_settle_le _ _ _) ?_
    exact Nat.le_trans (Nat.le_of_not_lt full) (Nat.le_max_right _ _)

theorem length_step_le (machine : Machine) :
    (machine.step environment).subRuns.length ≤
      max machine.subRuns.length environment.settings.limits.maxNestedCalls := by
  unfold step
  split
  · exact Nat.le_trans (length_settle_le _ _ _) (Nat.le_max_left _ _)
  · exact Nat.le_trans (length_settle_le _ _ _) (Nat.le_max_left _ _)
  · exact Nat.le_trans (length_raise_le _ _) (Nat.le_max_left _ _)
  · exact Nat.le_max_left _ _
  · exact Nat.le_max_left _ _
  · exact length_start_le _ _ _ _ _
  · exact Nat.le_max_left _ _
  · exact Nat.le_max_left _ _

/-! ## Machines within the limits -/

theorem WithinLimits.step
    {machine : Machine}
    (within : machine.WithinLimits environment.settings.limits) :
    (machine.step environment).WithinLimits environment.settings.limits where
  state :=
    ((holds_of_forall (fun _ => trivial) within.state).step
      (State.withinLimits_invariant _) (supplied_of_forall (fun _ => trivial) machine)).state
  calls := Nat.le_trans (length_step_le machine) (Nat.max_le.mpr ⟨within.calls, Nat.le_refl _⟩)

theorem withinLimits_start
    {state : State}
    {subRuns : List SubRun}
    (within : state.WithinLimits environment.settings.limits)
    (calls : subRuns.length ≤ environment.settings.limits.maxNestedCalls)
    (callee : Value)
    (arguments : List Value)
    (awaiting : Option (HostCall × (Except RuntimeError Value → HostProgram))) :
    (start environment state subRuns callee arguments awaiting).WithinLimits
      environment.settings.limits where
  state :=
    (holds_start (State.withinLimits_invariant _) within (fun _ _ _ _ _ _ _ => trivial) trivial
      (fun _ _ => trivial) fun _ _ _ _ _ => trivial).state
  calls := Nat.le_trans (length_start_le _ _ _ _ _) (Nat.max_le.mpr ⟨calls, Nat.le_refl _⟩)

/-- Whatever happens to a machine, it stays within the limits. -/
theorem Event.withinLimits
    {before after : Machine}
    (event : before.Event environment .any after)
    (within : before.WithinLimits environment.settings.limits) :
    after.WithinLimits environment.settings.limits := by
  have kept := event.keeps (State.withinLimits_invariant _)
    (fun _ _ _ within => ⟨within.stack, within.frames⟩)
    (holds_of_forall (fun _ => trivial) within.state)
  refine ⟨kept.state, ?_⟩
  cases event with
  | step => exact within.step.calls
  | call => exact (withinLimits_start within.state (Nat.zero_le _) _ _ _).calls
  | request | assign | write | takeRecords => exact within.calls

theorem Fresh.withinLimits
    {machine : Machine}
    (fresh : machine.Fresh)
    (limits : Limits) :
    machine.WithinLimits limits := by
  cases fresh with
  | bare => exact ⟨⟨Nat.zero_le _, Nat.zero_le _⟩, Nat.zero_le _⟩
  | equipped => exact ⟨⟨Nat.zero_le _, Nat.zero_le _⟩, Nat.zero_le _⟩

theorem Arises.withinLimits
    {machine : Machine}
    (arises : machine.Arises environment .any) :
    machine.WithinLimits environment.settings.limits := by
  rcases arises with ⟨first, fresh, leads⟩
  induction leads with
  | refl => exact fresh.withinLimits _
  | tail _ event induction => exact event.withinLimits induction

end Machine

/-- All machines of a call that begins within the limits are within the limits. -/
theorem OuterCall.Reaches.withinLimits
    {environment : Environment}
    {call : OuterCall}
    {machine : Machine}
    (reaches : call.Reaches environment machine)
    (within : call.state.WithinLimits environment.settings.limits)
    (calls : call.around.length ≤ environment.settings.limits.maxNestedCalls) :
    machine.WithinLimits environment.settings.limits := by
  induction reaches with
  | entered => exact Machine.withinLimits_start within calls _ _ _
  | step _ _ induction => exact induction.step

/--
However a machine came about, stack, frames and calls from outside are within the
limits, and they are throughout every call that can be made next.  Such a call is
among those that have not ended until its outcome is delivered; then the calls are
those around it.
-/
theorem resources_stay_within_limits
    {environment : Environment}
    {machine : Machine}
    (arises : machine.Arises environment .any) :
    machine.WithinLimits environment.settings.limits ∧
      ∀ call : OuterCall,
        call.state = machine.state →
        call.around = machine.subRuns →
          ∀ after,
            call.Reaches environment after →
              after.WithinLimits environment.settings.limits ∧
                ((∃ inner, after.subRuns = inner ++ call.subRun :: machine.subRuns) ∨
                  ∃ outcome,
                    after.control = call.deliver outcome ∧ after.subRuns = machine.subRuns) := by
  have within := arises.withinLimits
  refine ⟨within, ?_⟩
  intro call sameState sameCalls after reaches
  constructor
  · exact reaches.withinLimits (sameState ▸ within.state) (sameCalls ▸ within.calls)
  · rw [← sameCalls]
    rcases reaches.proper with goesOn | ⟨outcome, final, rfl⟩
    · rcases goesOn.holds with ⟨inner, split, -⟩
      exact .inl ⟨inner, split⟩
    · exact .inr ⟨outcome, rfl, rfl⟩

/-- A function that fills the stack. -/
def greedyFunction : Function where
  name := some "f"
  arity := 0
  home := 0
  chunk := { code := (Instruction.encode [.pushNull, .loop 4]).toArray }

/-- An environment with room for three values. -/
def crampedEnvironment : Environment where
  settings := { limits := { stackCapacity := 3, maxFrames := 1, maxNestedCalls := 1 } }
  host := Host.empty

/-- A machine to which the function has been added by hand. -/
def greedyMachine : Machine :=
  { Machine.bare with state := { heap := { functions := #[greedyFunction] } } }

/-- The function is called and makes three steps. -/
def filledMachine : Machine :=
  (Machine.start crampedEnvironment greedyMachine.state [] (.function 0) [] none).run
    crampedEnvironment 3

theorem filledMachine_arises : filledMachine.Arises crampedEnvironment .any := by
  refine ⟨.bare, .bare, ?_⟩
  have written : Machine.bare.Leads crampedEnvironment .any greedyMachine :=
    .single (.write rfl trivial)
  have called :
      greedyMachine.Event crampedEnvironment .any
        (.start crampedEnvironment greedyMachine.state [] (.function 0) [] none) :=
    .call rfl trivial (List.forall_mem_nil _)
  exact (written.tail called).trans (Machine.leads_run (fun _ => trivial) _ 3)

/-- The stack is full and the only call is in progress; no further call goes beyond. -/
theorem filledMachine_stays_within_limits :
    filledMachine.state.stack.size = 3 ∧
      filledMachine.subRuns.length = 1 ∧
      filledMachine.WithinLimits crampedEnvironment.settings.limits ∧
      ∀ after,
        OuterCall.Reaches crampedEnvironment
            { state := filledMachine.state
              around := filledMachine.subRuns
              callee := .function 0
              arguments := []
              awaiting := none } after →
          after.WithinLimits crampedEnvironment.settings.limits := by
  rcases resources_stay_within_limits filledMachine_arises with ⟨within, calls⟩
  refine ⟨rfl, rfl, within, ?_⟩
  intro after reaches
  exact (calls _ rfl rfl after reaches).1

end ScriptEngine
