import ScriptEngine.Blueprint
import ScriptEngine.Proofs.Machine.OuterCall
import ScriptEngine.Proofs.Machine.Permanence

/-!
# Histories of a machine

A machine begins without anything or with the built-in classes.  From then on the
embedding program calls values, asks for the changes that host routines can ask for,
assigns module variables and adds functions written by hand; in between the machine
makes steps, in which host routines take part.  `Machine.Leads` is the relation
between a machine and what it can become, `Machine.Arises` says that a machine has
such a history.  What is handed to the machine from outside is limited by a `Supply`,
which is `Supply.any` where nothing is assumed.

An invariant of the changes of a state holds throughout a history
(`Machine.Leads.keeps`).
-/

namespace ScriptEngine

/-- What may be handed to a machine from outside. -/
structure Supply where
  value : Value → Prop
  /-- Functions written by hand. -/
  function : Function → Prop

namespace Supply

/-- Anything at all. -/
def any : Supply where
  value := fun _ => True
  function := fun _ => True

/-- No functions but those that are compiled. -/
def compiled : Supply where
  value := fun _ => True
  function := fun _ => False

instance : Value.Inherited any.value :=
  inferInstanceAs (Value.Inherited fun _ => True)

instance : Value.Inherited compiled.value :=
  inferInstanceAs (Value.Inherited fun _ => True)

end Supply

namespace Machine

/-- A machine without built-in classes. -/
def bare : Machine where
  state := {}
  control := .ended (.ok .null)
  subRuns := []

/-- A machine with the built-in classes. -/
def equipped : Machine where
  state := State.installBuiltins {}
  control := .ended (.ok .null)
  subRuns := []

/-- A machine with which nothing has been done. -/
inductive Fresh : Machine → Prop where
  | bare : Fresh bare
  | equipped : Fresh equipped

/-- Something that happens to a machine. -/
inductive Event (environment : Environment) (supply : Supply) (machine : Machine) :
    Machine → Prop where
  | step (supplied : machine.Supplied supply.value) :
      Event environment supply machine (machine.step environment)
  | call
      (idle : machine.control.isEnded = true)
      {callee : Value}
      {arguments : List Value}
      (calleeSupplied : supply.value callee)
      (argumentsSupplied : ∀ argument ∈ arguments, supply.value argument) :
      Event environment supply machine
        (start environment machine.state [] callee arguments none)
  | request
      (idle : machine.control.isEnded = true)
      {request : HostRequest}
      (supplied : request.Each supply.value) :
      Event environment supply machine
        { machine with state := (request.perform machine.state).2 }
  /-- A module variable that exists is assigned. -/
  | assign
      (idle : machine.control.isEnded = true)
      {moduleName name : String}
      {value : Value}
      (supplied : supply.value value)
      {registry : Registry}
      (assigned : machine.state.registry.assign? moduleName name value = some registry) :
      Event environment supply machine
        { machine with state := { machine.state with registry } }
  /-- A function written by hand is added. -/
  | write
      (idle : machine.control.isEnded = true)
      {function : Function}
      (supplied : supply.function function) :
      Event environment supply machine
        { machine with
          state := { machine.state with heap := (machine.state.heap.addFunction function).2 } }
  /-- The embedding program takes the records. -/
  | takeRecords (idle : machine.control.isEnded = true) :
      Event environment supply machine
        { machine with state := { machine.state with journal := {} } }

/-- What a machine becomes in the course of time. -/
def Leads (environment : Environment) (supply : Supply) : Machine → Machine → Prop :=
  Relation.ReflTransGen (Event environment supply)

/-- A machine that something has been done with. -/
def Arises (environment : Environment) (supply : Supply) (machine : Machine) : Prop :=
  ∃ first : Machine, first.Fresh ∧ first.Leads environment supply machine

variable {environment : Environment} {supply : Supply}

theorem Arises.leads
    {before after : Machine}
    (arises : before.Arises environment supply)
    (leads : before.Leads environment supply after) :
    after.Arises environment supply := by
  rcases arises with ⟨first, fresh, earlier⟩
  exact ⟨first, fresh, earlier.trans leads⟩

/-- Nothing depends on how much could have been supplied. -/
theorem Leads.any
    {before after : Machine}
    (leads : before.Leads environment supply after) :
    before.Leads environment .any after := by
  induction leads with
  | refl => exact .refl
  | tail _ event induction =>
      apply induction.tail
      cases event with
      | step => exact .step (supplied_of_forall (fun _ => trivial) _)
      | call idle => exact .call idle trivial fun _ _ => trivial
      | request idle => exact .request idle (.of_forall (fun _ => trivial) _)
      | assign idle _ assigned => exact .assign idle trivial assigned
      | write idle => exact .write idle trivial
      | takeRecords idle => exact .takeRecords idle

/-- Where anything may be supplied, a run is a part of the history. -/
theorem leads_run
    (all : ∀ value, supply.value value)
    (machine : Machine)
    (bound : Nat) :
    machine.Leads environment supply (machine.run environment bound) := by
  induction bound generalizing machine with
  | zero => exact .refl
  | succ bound induction =>
      unfold run
      split
      · exact .refl
      · exact .head (.step (supplied_of_forall all machine)) (induction _)

/-- So are the steps of a call from outside. -/
theorem leads_machineAt
    (all : ∀ value, supply.value value)
    (call : OuterCall)
    (count : Nat) :
    (call.entered environment).Leads environment supply (call.machineAt environment count) := by
  induction count with
  | zero => exact .refl
  | succ count induction => exact induction.tail (.step (supplied_of_forall all _))

/-! ## Invariants -/

/-- A property of states that functions written by hand do not disturb. -/
def Admits (supply : Supply) (holds : State → Prop) : Prop :=
  ∀ (state : State) (function : Function),
    supply.function function →
    holds state →
      holds { state with heap := (state.heap.addFunction function).2 }

variable [inherited : Value.Inherited supply.value] {holds : State → Prop}

/-- Whatever happens to a machine, an invariant is kept. -/
theorem Event.keeps
    (invariant : State.Invariant environment.settings.limits supply.value holds)
    (admits : Admits supply holds)
    {before after : Machine}
    (event : before.Event environment supply after)
    (kept : before.Holds holds supply.value) :
    after.Holds holds supply.value := by
  cases event with
  | step supplied => exact kept.step invariant supplied
  | call idle calleeSupplied argumentsSupplied =>
      exact holds_start invariant kept.state (List.forall_mem_nil _) calleeSupplied
        argumentsSupplied nofun
  | request idle supplied =>
      exact ⟨perform_keeps invariant kept.state supplied, kept.control, kept.subRuns⟩
  | assign idle supplied assigned =>
      exact ⟨invariant.change kept.state (.registry (.of_assign assigned supplied)), kept.control,
        kept.subRuns⟩
  | write idle supplied => exact ⟨admits _ _ supplied kept.state, kept.control, kept.subRuns⟩
  | takeRecords idle =>
      exact ⟨invariant.change kept.state (.journal {}), kept.control, kept.subRuns⟩

/-- An invariant is kept for as long as the machine exists. -/
theorem Leads.keeps
    (invariant : State.Invariant environment.settings.limits supply.value holds)
    (admits : Admits supply holds)
    {before after : Machine}
    (leads : before.Leads environment supply after)
    (kept : before.Holds holds supply.value) :
    after.Holds holds supply.value := by
  induction leads with
  | refl => exact kept
  | tail _ event induction => exact event.keeps invariant admits induction

end Machine

end ScriptEngine
