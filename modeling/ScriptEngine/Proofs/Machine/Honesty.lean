import ScriptEngine.Proofs.Machine.Definedness

/-!
# References that nobody has been given

An instance that no value mentions stays out of reach: an instruction finds nothing that
leads to it, and neither does a host routine that goes on with what it has been given
(`Host.Honest`).  A step makes no use of the instance and hands nobody a reference to it,
unless it makes the instance (`Machine.Unaware.stepUnless`).
-/

namespace ScriptEngine

/-- A value that does not mention an instance. -/
def Value.Lacks (id : Nat) : Value → Prop
  | .object other => other ≠ id
  | .boundMethod _ receiver method => receiver.Lacks id ∧ method.Lacks id
  | _ => True

instance (id : Nat) : Value.Partwise (Value.Lacks id) where
  plain value isPlain := by
    cases value with
    | object | boundMethod => cases isPlain
    | _ => trivial
  boundMethod _ _ _ := Iff.rfl

instance (id : Nat) (holds : State → Prop) : State.Compiles (Value.Lacks id) holds :=
  ⟨fun _ _ => trivial⟩

/-- A value that mentions only instances that are there. -/
def Value.IsKnown (heap : Heap) (value : Value) : Prop :=
  ∀ id, heap.objects.size ≤ id → value.Lacks id

/-! ## Host routines -/

/-- Neither instances and classes nor modules mention an instance. -/
structure State.Hides (id : Nat) (state : State) : Prop where
  heap : state.heap.Each (Value.Lacks id)
  modules : ∀ table ∈ state.registry.modules, table.Each (Value.Lacks id)

/--
A routine that makes no use of an instance for as long as it is not told of it.  What it looks
at are heap and modules.
-/
def HostProgram.Discreet (id : Nat) : HostProgram → Prop
  | finish value => value.Lacks id
  | fail _ => True
  | inspect next => ∀ state : State, state.Hides id → (next state).Discreet id
  | perform request next =>
    request.Each (Value.Lacks id) ∧
      request.Targets (Value.Lacks id) ∧
      ∀ answer, answer.Lacks id → (next answer).Discreet id
  | call callee arguments next =>
    callee.Lacks id ∧
      (∀ argument ∈ arguments, argument.Lacks id) ∧
      ∀ outcome, OutcomeEach (Value.Lacks id) outcome → (next outcome).Discreet id

/-- A host whose routines use only instances that they have been given. -/
def Host.Honest (host : Host) : Prop :=
  ∀ id key receiver arguments,
    receiver.Lacks id →
    (∀ argument ∈ arguments, argument.Lacks id) →
      (host key receiver arguments).Discreet id

/-- The routine that goes on makes no use of an instance. -/
def Control.Discreet (id : Nat) : Control → Prop
  | .host _ program => program.Discreet id
  | _ => True

/-- The routine that waits for an outcome makes no use of an instance that it is not told of. -/
def SubRun.Discreet (id : Nat) (subRun : SubRun) : Prop :=
  ∀ routine next,
    subRun.awaiting = some (routine, next) →
      ∀ outcome, OutcomeEach (Value.Lacks id) outcome → (next outcome).Discreet id

/-- No routine makes use of an instance. -/
structure Machine.Discreet (id : Nat) (machine : Machine) : Prop where
  control : machine.control.Discreet id
  subRuns : ∀ subRun ∈ machine.subRuns, subRun.Discreet id

/-- A property of states in which nothing mentions an instance holds, and no routine uses it. -/
structure Machine.Unaware (id : Nat) (holds : State → Prop) (machine : Machine) : Prop where
  holds : machine.Holds holds (Value.Lacks id)
  discreet : machine.Discreet id

namespace Machine

variable
  {environment : Environment}
  {id : Nat}
  {holds escape : State → Prop}
  {state : State}
  {control : Control}
  {subRuns : List SubRun}

/-- What a routine of the host is about to hand to the machine does not mention the instance. -/
theorem Discreet.supplied {machine : Machine} (discreet : machine.Discreet id) :
    machine.Supplied (Value.Lacks id) := by
  intro routine program isHost
  have goesOn := discreet.control
  rw [isHost] at goesOn
  cases program with
  | finish value => exact goesOn
  | perform request next => exact goesOn.1
  | call callee arguments next => exact ⟨goesOn.1, goesOn.2.1⟩
  | fail | inspect => trivial

theorem Discreet.targets {machine : Machine} (discreet : machine.Discreet id) :
    ∀ routine request next,
      machine.control = .host routine (.perform request next) →
        request.Targets (Value.Lacks id) := by
  intro routine request next isHost
  have goesOn := discreet.control
  rw [isHost] at goesOn
  exact goesOn.2.1

theorem discreet_conclude
    (waiting : ∀ subRun ∈ subRuns, subRun.Discreet id)
    {outcome : Except RuntimeError Value}
    (lacks : OutcomeEach (Value.Lacks id) outcome) :
    (conclude { state, control, subRuns } outcome).Discreet id := by
  rcases subRuns with _ | ⟨⟨mark, depth, _ | ⟨routine, next⟩⟩, rest⟩
  · exact ⟨trivial, nofun⟩
  · exact ⟨trivial, fun other member => waiting other (List.mem_cons_of_mem _ member)⟩
  · exact ⟨waiting _ List.mem_cons_self routine next rfl outcome lacks,
      fun other member => waiting other (List.mem_cons_of_mem _ member)⟩

theorem discreet_raise
    (waiting : ∀ subRun ∈ subRuns, subRun.Discreet id)
    (fault : Fault) :
    (raise { state, control, subRuns } fault).Discreet id := by
  unfold raise
  split
  · exact discreet_conclude waiting nofun
  · exact discreet_conclude waiting nofun

section Settling

variable
  (invariant : State.Invariant environment.settings.limits (Value.Lacks id) holds)
  (each : ∀ subRun ∈ subRuns, subRun.Each (Value.Lacks id))
  (waiting : ∀ subRun ∈ subRuns, subRun.Discreet id)

include invariant waiting

theorem discreet_resume (kept : holds state) :
    (resume { state, control, subRuns }).Discreet id := by
  have popped := Action.pop_keeps invariant kept
  unfold Action.Keeps Action.Ensures at popped
  unfold resume
  split
  · exact ⟨trivial, waiting⟩
  · split
    · rename_i value after outcome
      simp only [outcome] at popped
      apply discreet_conclude waiting
      rintro _ ⟨⟩
      exact popped.2
    · exact discreet_raise waiting _

include each

/-- The machine goes on after an action. -/
theorem unaware_settle
    (honest : environment.host.Honest)
    {action : Action Transition}
    (keeps : action.Keeps holds (Transition.Hands environment (Value.Lacks id)) state) :
    (settle control subRuns (action state)).Unaware id holds := by
  refine ⟨holds_settle invariant each keeps, ?_⟩
  unfold Action.Keeps Action.Ensures at keeps
  rcases outcome : action state with ⟨interruption | transition, after⟩
  · cases interruption with
    | fault fault => exact discreet_raise waiting fault
    | stuck => exact ⟨trivial, waiting⟩
  · rw [outcome] at keeps
    rcases keeps with ⟨kept, handed⟩
    cases transition with
    | proceed => exact discreet_resume invariant waiting kept
    | enterHost routine program =>
        rcases handed with ⟨-, key, receiver, arguments, rfl, receiverLacks, argumentsLack⟩
        exact ⟨honest id key receiver arguments receiverLacks argumentsLack, waiting⟩
    | finished value =>
        apply discreet_conclude waiting
        rintro _ ⟨⟩
        exact handed

end Settling

/-- The answer to a request does not mention the instance, unless it is a new one. -/
theorem lacks_answer
    {request : HostRequest}
    (each : request.Each (Value.Lacks id))
    (notNew : ∀ classId, request = .addObject classId → state.heap.objects.size ≠ id) :
    (request.perform state).1.Lacks id := by
  cases request with
  | bind receiver method => exact each
  | addObject classId => exact notNew classId rfl
  | compile mode moduleName source =>
      simp only [HostRequest.perform]
      split <;> trivial
  | _ => trivial

/-- A call that begins hands on what it has been given. -/
theorem unaware_start
    (invariant : State.Invariant environment.settings.limits (Value.Lacks id) holds)
    (honest : environment.host.Honest)
    (escapes : State.Escape environment.settings.limits (Value.Lacks id) holds escape)
    (kept : holds state)
    {callee : Value}
    {arguments : List Value}
    (calleeLacks : callee.Lacks id)
    (argumentsLack : ∀ argument ∈ arguments, argument.Lacks id) :
    escape (start environment state [] callee arguments none).state ∨
      (start environment state [] callee arguments none).Unaware id holds := by
  have keeps := enter_keepsUnless invariant escapes kept (List.length ([] : List SubRun) + 1)
    calleeLacks argumentsLack
  rcases keeps.escaped_or_keeps with escaped | keeps
  · exact .inl (settle_keeps escapes.invariant escaped)
  · refine .inr (unaware_settle invariant ?_ ?_ honest keeps)
    · rintro subRun member routine next isAwaiting
      rw [List.mem_singleton.mp member] at isAwaiting
      cases isAwaiting
    · rintro subRun member routine next isAwaiting
      rw [List.mem_singleton.mp member] at isAwaiting
      cases isAwaiting

/-- A step hands nobody a reference to an instance that nothing mentions, or it escapes. -/
theorem Unaware.stepUnless
    [compiles : State.Compiles (Value.Lacks id) holds]
    (invariant : State.Invariant environment.settings.limits (Value.Lacks id) holds)
    (honest : environment.host.Honest)
    (escapes : State.Escape environment.settings.limits (Value.Lacks id) holds escape)
    (hides : ∀ {state : State}, holds state → state.Hides id)
    {machine : Machine}
    (unaware : machine.Unaware id holds) :
    escape (machine.step environment).state ∨ (machine.step environment).Unaware id holds := by
  rcases unaware with ⟨kept, discreet⟩
  rcases isNext : machine.nextAction? environment with _ | ⟨action, subRuns⟩
  · rcases kept.stepUnless invariant escapes discreet.supplied discreet.targets with escaped | next
    · exact .inl escaped
    · by_cases escaped : escape (machine.step environment).state
      · exact .inl escaped
      · refine .inr ⟨next, ?_⟩
        rcases machine with ⟨state, control, subRuns⟩
        cases control with
        | script => cases isNext
        | ended | stuck => exact discreet
        | host routine program =>
            cases program with
            | finish | call => cases isNext
            | fail message => exact discreet_raise discreet.subRuns _
            | inspect next =>
                exact ⟨discreet.control state (hides kept.state), discreet.subRuns⟩
            | perform request next =>
                rcases discreet.control with ⟨each, -, goesOn⟩
                refine ⟨goesOn _ (lacks_answer each ?_), discreet.subRuns⟩
                rintro classId rfl
                exact (escapes.created kept.state classId).resolve_right escaped
  · rcases nextAction_keepsUnless invariant escapes kept discreet.supplied isNext with
      ⟨keeps, each⟩
    rw [step_eq_settle isNext]
    rcases keeps.escaped_or_keeps with escaped | keeps
    · exact .inl (settle_keeps escapes.invariant escaped)
    · refine .inr (unaware_settle invariant each ?_ honest keeps)
      rcases machine with ⟨state, control, others⟩
      cases control with
      | script =>
          cases isNext
          exact discreet.subRuns
      | ended | stuck => cases isNext
      | host routine program =>
          cases program with
          | fail | inspect | perform => cases isNext
          | finish value =>
              cases isNext
              exact discreet.subRuns
          | call callee arguments next =>
              cases isNext
              intro subRun member
              rcases List.mem_cons.mp member with rfl | old
              · rintro _ _ ⟨⟩
                exact discreet.control.2.2
              · exact discreet.subRuns subRun old

end Machine

/-! ## Instances that are not there yet and instances that nobody reaches -/

namespace State

variable {id : Nat} {object : Object} {limits : Limits} {before after : State}

/-- An instance is not there yet, and nothing mentions it. -/
structure Awaits (id : Nat) (state : State) : Prop where
  each : state.Each (Value.Lacks id)
  consistent : state.registry.Consistent
  isNew : state.heap.objects.size ≤ id

/-- An instance is there, and nothing mentions it. -/
structure Guards (id : Nat) (object : Object) (state : State) : Prop where
  each : state.Each (Value.Lacks id)
  consistent : state.registry.Consistent
  kept : state.heap.objects[id]? = some object

theorem Each.hides {state : State} (each : state.Each (Value.Lacks id)) : state.Hides id :=
  ⟨each.heap, each.modules⟩

/-- A change makes one instance at most and changes only those that it can name. -/
theorem Change.changesNamed
    {good : Value → Prop}
    (change : before.Change limits good after) :
    before.heap.ChangesNamed good after.heap := by
  cases change with
  | heap functions stored named => exact named
  | compile mode found source =>
      apply Heap.ChangesNamed.of_same
      unfold State.addSource
      extract_lets compiled registry
      split <;> rfl
  | stack | frames | registry | journal => exact .of_same rfl

theorem awaits_invariant (id : Nat) (limits : Limits) :
    Invariant limits (Value.Lacks id) (Awaits id) where
  each := Awaits.each
  change := by
    intro before after awaits change
    have kept := (each_invariant_of_functions (fun _ => trivial) limits).change
      ⟨awaits.each, awaits.consistent⟩ change
    refine ⟨kept.1, kept.2, ?_⟩
    have isNew := awaits.isNew
    rcases change.changesNamed.size with same | ⟨larger, isOther⟩
    · omega
    · have differs : before.heap.objects.size ≠ id := isOther
      omega

/-- Once the instance is there, it stays. -/
theorem awaits_escape (id : Nat) (limits : Limits) :
    Escape limits (Value.Lacks id) (Awaits id) fun state => id < state.heap.objects.size where
  created := by
    intro state awaits classId
    by_cases isNew : state.heap.objects.size = id
    · refine .inr ?_
      show id < (state.heap.objects.push _).size
      rw [Array.size_push]
      omega
    · exact .inl isNew
  change := by
    intro before after there change
    rcases change.changesNamed.size with same | ⟨larger, -⟩ <;> omega

theorem guards_invariant (id : Nat) (object : Object) (limits : Limits) :
    Invariant limits (Value.Lacks id) (Guards id object) where
  each := Guards.each
  change := by
    intro before after guards change
    have kept := (each_invariant_of_functions (fun _ => trivial) limits).change
      ⟨guards.each, guards.consistent⟩ change
    refine ⟨kept.1, kept.2, ?_⟩
    have inside := (Array.getElem?_eq_some_iff.mp guards.kept).1
    rw [change.changesNamed.kept id inside fun lacks => lacks rfl]
    exact guards.kept

/-- An instance that is there is not made again. -/
theorem guards_escape (id : Nat) (object : Object) (limits : Limits) :
    Escape limits (Value.Lacks id) (Guards id object) fun _ => False where
  created := by
    intro state guards classId
    have inside := (Array.getElem?_eq_some_iff.mp guards.kept).1
    exact .inl (Nat.ne_of_gt inside)
  change := fun impossible _ => impossible

end State

end ScriptEngine
