import ScriptEngine.Proofs.Machine.Step

/-!
# Calls from outside

The embedding program and its routines call values of the machine.  Such a call
begins inside the calls that have not ended, and it lasts until only these are
left.  `OuterCall.Reaches` lists the machines of a call from its beginning until it
returns; `OuterCall.Returns` says with which outcome and in which state it does.

Whatever code is run, a call that is over has been left through its own end: the
calls around it are the ones inside which it began, and the outcome has been
handed to whoever made the call (`Reaches.proper`).  For the embedding program, what
`State.call` reports is what the call returns (`returns_of_call`).
-/

namespace ScriptEngine

/-- A call from outside: where it begins and what it calls. -/
structure OuterCall where
  state : State
  /-- The calls that have not ended, innermost first. -/
  around : List SubRun
  callee : Value
  arguments : List Value
  /-- The host routine that makes the call and how it goes on; none for the embedding program. -/
  awaiting : Option (HostCall × (Except RuntimeError Value → HostProgram))

/-- The outermost call has ended. -/
def Control.isEnded : Control → Bool
  | .ended _ => true
  | _ => false

namespace OuterCall

/-- The entry of the call in the list of calls that have not ended. -/
def subRun (call : OuterCall) : SubRun where
  stackMark := call.state.stack.size
  entryDepth := call.state.frames.size
  awaiting := call.awaiting

/-- The machine that has entered the callee, or failed to. -/
def entered (environment : Environment) (call : OuterCall) : Machine :=
  Machine.start environment call.state call.around call.callee call.arguments call.awaiting

/-- The call has not ended. -/
def Lasts (call : OuterCall) (machine : Machine) : Prop :=
  call.around.length < machine.subRuns.length

instance (call : OuterCall) (machine : Machine) : Decidable (call.Lasts machine) :=
  inferInstanceAs (Decidable (_ < _))

/-- The machines of a call from its beginning until it returns. -/
inductive Reaches (environment : Environment) (call : OuterCall) : Machine → Prop where
  | entered : Reaches environment call (call.entered environment)
  | step
      {machine : Machine}
      (before : Reaches environment call machine)
      (lasts : call.Lasts machine) :
      Reaches environment call (machine.step environment)

/-- What whoever made the call does with the outcome. -/
def deliver (call : OuterCall) (outcome : Except RuntimeError Value) : Control :=
  match call.awaiting with
  | none => .ended outcome
  | some (caller, next) => .host caller (next outcome)

/-- The machine when the call has returned. -/
def returned (call : OuterCall) (outcome : Except RuntimeError Value) (final : State) :
    Machine where
  state := final
  control := call.deliver outcome
  subRuns := call.around

/-- The outcome of a call is handed to whoever waits for it. -/
theorem conclude_eq
    (call : OuterCall)
    (state : State)
    (control : Control)
    (outcome : Except RuntimeError Value) :
    Machine.conclude { state, control, subRuns := call.subRun :: call.around } outcome =
      call.returned outcome state := by
  unfold Machine.conclude returned deliver subRun
  rcases call.awaiting with _ | ⟨caller, next⟩ <;> rfl

/-- The call returns with an outcome and leaves a state. -/
def Returns (environment : Environment) (call : OuterCall) (outcome : Except RuntimeError Value)
    (final : State) : Prop :=
  call.Reaches environment (call.returned outcome final)

/-! ## How a call is left -/

variable {environment : Environment} {call : OuterCall}

/-- The calls that have not ended are those around the call, the call and others inside it. -/
structure GoesOn (call : OuterCall) (machine : Machine) : Prop where
  holds :
    ∃ inner,
      machine.subRuns = inner ++ call.subRun :: call.around ∧
        ∀ subRun ∈ inner, subRun.awaiting.isSome = true
  notEnded : machine.control.isEnded = false

theorem GoesOn.lasts
    {machine : Machine}
    (goesOn : call.GoesOn machine) :
    call.Lasts machine := by
  rcases goesOn.holds with ⟨inner, split, -⟩
  unfold Lasts
  rw [split, List.length_append, List.length_cons]
  omega

/-- The call goes on, or it has been left with its outcome. -/
def Proper (call : OuterCall) (machine : Machine) : Prop :=
  call.GoesOn machine ∨ ∃ outcome final, machine = call.returned outcome final

variable {state : State} {control : Control} {subRuns : List SubRun}

theorem GoesOn.withControl
    {machine : Machine}
    (goesOn : call.GoesOn machine)
    (notEnded : control.isEnded = false)
    (state : State) :
    call.GoesOn { state, control, subRuns := machine.subRuns } :=
  ⟨goesOn.holds, notEnded⟩

theorem proper_conclude
    (goesOn : call.GoesOn { state, control, subRuns })
    (final : State)
    (outcome : Except RuntimeError Value) :
    call.Proper (Machine.conclude { state := final, control, subRuns } outcome) := by
  rcases goesOn.holds with ⟨inner, split, others⟩
  change subRuns = _ at split
  subst split
  cases inner with
  | nil => exact .inr ⟨outcome, final, call.conclude_eq final control outcome⟩
  | cons subRun inner =>
      have awaited := others subRun List.mem_cons_self
      rcases subRun with ⟨mark, depth, _ | ⟨caller, next⟩⟩
      · cases awaited
      · refine .inl ⟨⟨inner, rfl, ?_⟩, rfl⟩
        exact fun other member => others other (List.mem_cons_of_mem _ member)

theorem proper_raise
    (goesOn : call.GoesOn { state, control, subRuns })
    (final : State)
    (fault : Fault) :
    call.Proper (Machine.raise { state := final, control, subRuns } fault) := by
  unfold Machine.raise
  split
  · exact proper_conclude goesOn _ _
  · exact proper_conclude goesOn _ _

theorem proper_resume
    (goesOn : call.GoesOn { state, control, subRuns })
    (final : State) :
    call.Proper (Machine.resume { state := final, control, subRuns }) := by
  unfold Machine.resume
  split
  · exact .inl (goesOn.withControl rfl _)
  · split
    · exact proper_conclude goesOn _ _
    · exact proper_raise goesOn _ _

theorem proper_settle
    (goesOn : call.GoesOn { state, control, subRuns })
    (result : Except Interruption Transition × State) :
    call.Proper (Machine.settle control subRuns result) := by
  unfold Machine.settle
  split
  · exact proper_resume goesOn _
  · exact .inl (goesOn.withControl rfl _)
  · exact proper_conclude goesOn _ _
  · exact proper_raise goesOn _ _
  · exact .inl (goesOn.withControl rfl _)

/-- A call that begins inside the call is the innermost one. -/
theorem GoesOn.nested
    (goesOn : call.GoesOn { state, control, subRuns })
    {subRun : SubRun}
    (awaited : subRun.awaiting.isSome = true) :
    call.GoesOn { state, control := .script, subRuns := subRun :: subRuns } := by
  rcases goesOn.holds with ⟨inner, split, others⟩
  change subRuns = _ at split
  subst split
  refine ⟨⟨subRun :: inner, rfl, ?_⟩, rfl⟩
  intro other member
  rcases List.mem_cons.mp member with rfl | old
  · exact awaited
  · exact others other old

theorem proper_step
    {machine : Machine}
    (goesOn : call.GoesOn machine) :
    call.Proper (machine.step environment) := by
  have script :
      call.GoesOn { state := machine.state, control := .script, subRuns := machine.subRuns } :=
    goesOn.withControl rfl machine.state
  unfold Machine.step
  split
  · exact proper_settle goesOn _
  · exact proper_settle script _
  · exact proper_raise script _ _
  · exact .inl (goesOn.withControl rfl _)
  · exact .inl (goesOn.withControl rfl _)
  · exact proper_settle (goesOn.nested rfl) _
  · cases goesOn.notEnded
  · exact .inl goesOn

/-- A call goes on with its own entry in place, or it has been left with its outcome. -/
theorem Reaches.proper
    {machine : Machine}
    (reaches : call.Reaches environment machine) :
    call.Proper machine := by
  induction reaches with
  | entered =>
      have begins :
          call.GoesOn
            { state := call.state, control := .script, subRuns := call.subRun :: call.around } :=
        ⟨⟨[], rfl, nofun⟩, rfl⟩
      exact proper_settle begins _
  | step _ lasts induction =>
      rcases induction with goesOn | ⟨outcome, final, rfl⟩
      · exact proper_step goesOn
      · exact absurd lasts (Nat.lt_irrefl _)

/-- A call that has ended has returned. -/
theorem Reaches.returns_of_not_lasts
    {machine : Machine}
    (reaches : call.Reaches environment machine)
    (ended : ¬ call.Lasts machine) :
    ∃ outcome final, machine = call.returned outcome final ∧
      call.Returns environment outcome final := by
  rcases reaches.proper with goesOn | ⟨outcome, final, rfl⟩
  · exact absurd goesOn.lasts ended
  · exact ⟨outcome, final, rfl, reaches⟩

/-! ## Counting steps -/

/-- The machine after a number of steps. -/
def machineAt (environment : Environment) (call : OuterCall) : Nat → Machine
  | 0 => call.entered environment
  | count + 1 => (call.machineAt environment count).step environment

/-- The machines that a call reaches are those up to its end. -/
theorem reaches_iff_machineAt
    {machine : Machine} :
    call.Reaches environment machine ↔
      ∃ count,
        machine = call.machineAt environment count ∧
          ∀ earlier < count, call.Lasts (call.machineAt environment earlier) := by
  constructor
  · intro reaches
    induction reaches with
    | entered => exact ⟨0, rfl, nofun⟩
    | step _ lasts induction =>
        rcases induction with ⟨count, rfl, lasted⟩
        refine ⟨count + 1, rfl, ?_⟩
        intro earlier bound
        rcases Nat.lt_succ_iff_lt_or_eq.mp bound with before | rfl
        · exact lasted earlier before
        · exact lasts
  · rintro ⟨count, rfl, lasted⟩
    induction count with
    | zero => exact .entered
    | succ count induction =>
        have before := induction fun earlier bound => lasted earlier (Nat.lt_succ_of_lt bound)
        exact .step before (lasted count (Nat.lt_succ_self count))

/-- The machines of a call before its end, which comes after a known number of steps. -/
theorem Reaches.lt_of_lasts
    {machine : Machine}
    {total : Nat}
    (reaches : call.Reaches environment machine)
    (lasts : call.Lasts machine)
    (ended : ¬ call.Lasts (call.machineAt environment total)) :
    ∃ count < total, machine = call.machineAt environment count := by
  rcases reaches_iff_machineAt.mp reaches with ⟨count, rfl, lasted⟩
  rcases Nat.lt_trichotomy count total with early | rfl | late
  · exact ⟨count, early, rfl⟩
  · exact absurd lasts ended
  · exact absurd (lasted total late) ended

/-! ## Calls of the embedding program -/

/-- A call of the embedding program. -/
def outermost (state : State) (callee : Value) (arguments : List Value) : OuterCall where
  state := state
  around := []
  callee := callee
  arguments := arguments
  awaiting := none

/-- How a call that has returned is reported. -/
def reported : Except RuntimeError Value → Outcome
  | .ok value => .returned value
  | .error error => .failed error

variable {callee : Value} {arguments : List Value}

/-- The outermost call lasts as long as the machine has not ended. -/
theorem lasts_of_not_ended
    {machine : Machine}
    (reaches : (outermost state callee arguments).Reaches environment machine)
    (notEnded : machine.control.isEnded = false) :
    (outermost state callee arguments).Lasts machine := by
  rcases reaches.proper with goesOn | ⟨outcome, final, rfl⟩
  · exact goesOn.lasts
  · cases notEnded

/-- Making steps up to a bound reaches a machine of the call. -/
theorem Reaches.run
    (bound : Nat)
    {machine : Machine}
    (reaches : (outermost state callee arguments).Reaches environment machine) :
    (outermost state callee arguments).Reaches environment
      (Machine.run environment bound machine) := by
  induction bound generalizing machine with
  | zero => exact reaches
  | succ bound induction =>
      unfold Machine.run
      split
      · exact reaches
      · rename_i notOver
        refine induction (.step reaches (lasts_of_not_ended reaches ?_))
        unfold Machine.isOver at notOver
        cases control : machine.control with
        | ended outcome =>
            rw [control] at notOver
            exact absurd rfl notOver
        | script | host caller program | stuck => rfl

theorem control_of_reported
    {machine : Machine}
    {outcome : Except RuntimeError Value}
    (reports : machine.outcome = reported outcome) :
    machine.control = .ended outcome := by
  rcases machine with ⟨final, control, subRuns⟩
  cases control with
  | ended other => cases other <;> cases outcome <;> cases reports <;> rfl
  | script | host caller program | stuck => cases outcome <;> cases reports

theorem Reaches.returns_of_reported
    {machine : Machine}
    {outcome : Except RuntimeError Value}
    (reaches : (outermost state callee arguments).Reaches environment machine)
    (reports : machine.outcome = reported outcome) :
    (outermost state callee arguments).Returns environment outcome machine.state := by
  have isEnded := control_of_reported reports
  rcases reaches.proper with goesOn | ⟨other, final, rfl⟩
  · have notEnded := goesOn.notEnded
    rw [isEnded] at notEnded
    cases notEnded
  · cases isEnded
    exact reaches

/-- What `State.call` reports, the call returns. -/
theorem returns_of_call
    {outcome : Except RuntimeError Value}
    {final : State}
    (reports : state.call environment callee arguments = (reported outcome, final)) :
    (outermost state callee arguments).Returns environment outcome final := by
  rcases Prod.mk.inj reports with ⟨isOutcome, rfl⟩
  exact (Reaches.entered.run environment.settings.patience).returns_of_reported isOutcome

end OuterCall

end ScriptEngine
