import ScriptEngine.Proofs.Machine.Tracing
import ScriptEngine.Proofs.Machine.Yielding

/-!
# Calls that are completed

A call that has been made at a site leads to a fault, or to its value at once, or to
something that goes on until it hands over the value (`Site.Undertakes`).  If the function
that has made the call goes on later, it finds the value on top of its stack
(`Site.Undertakes.top`); if the call was one from outside and succeeds, it does so with
the value (`Site.Undertakes.succeeds`).
-/

namespace ScriptEngine

open Machine

/-- Something goes on at a site until it is about to close, and then it hands over a value. -/
structure Site.Pursues (site : Site) (environment : Environment) (call : OuterCall)
    (value : Value) (holds closes : Machine → Prop) : Prop where
  step :
    ∀ machine,
      call.Reaches environment machine →
      call.Lasts machine →
      holds machine →
        holds (machine.step environment) ∨
          site.Ends value (closes machine) (machine.step environment)
  nested : ∀ machine, holds machine → ∃ inner, machine.subRuns = inner ++ site.around
  occupied :
    ∀ machine,
      call.Reaches environment machine →
      holds machine →
      machine.control = .script →
        site.depth < machine.state.frames.size

/-- What a call that has been made at a site has led to, and what is known when it is over. -/
inductive Site.Undertakes (site : Site) (environment : Environment) (call : OuterCall)
    (value : Value) (outcome : Machine → Machine → Prop) (next : Machine) : Prop where
  | fails (fails : next.FailsIn site.around)
  | atOnce
      (delivers : site.Delivers value next)
      (done : ∀ other : Machine, other.state.heap = next.state.heap → outcome other other)
  | pursues
      {holds closes : Machine → Prop}
      (pursues : site.Pursues environment call value holds closes)
      (begins : holds next)
      (done : ∀ ending, closes ending → outcome next ending)

namespace Site

variable
  {environment : Environment}
  {call : OuterCall}
  {site : Site}
  {value : Value}

/-- Functions that yield their receiver are pursued until they return. -/
theorem pursues_function
    (orderly : call.state.Orderly)
    (activation : Activation)
    (yields : activation.Yields) :
    site.Pursues environment call activation.receiver
      (fun machine => ∃ inner, site.Runs activation inner machine) (site.Closes activation) where
  step := by
    rintro machine reaches lasts ⟨inner, runs⟩
    exact runs.step orderly reaches lasts yields
  nested := by
    rintro machine ⟨inner, runs⟩
    exact ⟨inner, runs.inside.subRuns⟩
  occupied := by
    rintro machine reaches ⟨inner, runs⟩ isScript
    exact runs.inside.state.size

/-- Routines that initialise an instance are pursued until they end. -/
theorem pursues_routine
    (orderly : call.state.Orderly)
    {routine : HostCall}
    {created : Value}
    (constructs : routine.constructed = some created) :
    site.Pursues environment call created
      (fun machine => ∃ inner, site.Hosts routine inner machine) (site.Finishes routine) where
  step := by
    rintro machine reaches lasts ⟨inner, hosts⟩
    exact hosts.step orderly reaches lasts constructs
  nested := by
    rintro machine ⟨inner, hosts⟩
    exact ⟨inner, hosts.inside.subRuns⟩
  occupied := by
    rintro machine reaches ⟨inner, hosts⟩ isScript
    exact hosts.occupied reaches isScript

end Site

/-! ## Going on -/

namespace OuterCall

variable {environment : Environment} {call : OuterCall}

theorem stuck_machineAt
    {now later : Nat}
    (order : now ≤ later)
    (isStuck : (call.machineAt environment now).control = .stuck) :
    (call.machineAt environment later).control = .stuck := by
  induction later, order using Nat.le_induction with
  | base => exact isStuck
  | succ later _ induction => exact stuck_step induction

/-- What is pursued goes on, or it has ended. -/
theorem pursue
    {site : Site}
    {value : Value}
    {holds closes : Machine → Prop}
    (pursues : site.Pursues environment call value holds closes)
    {start now : Nat}
    (order : start ≤ now)
    (lasted : ∀ earlier < now, call.Lasts (call.machineAt environment earlier))
    (begins : holds (call.machineAt environment start)) :
    holds (call.machineAt environment now) ∨
      ∃ ending,
        start ≤ ending ∧
          ending < now ∧
          site.Ends value (closes (call.machineAt environment ending))
            (call.machineAt environment (ending + 1)) := by
  induction now, order using Nat.le_induction with
  | base => exact .inl begins
  | succ now order induction =>
      have before := fun earlier less => lasted earlier (Nat.lt_succ_of_lt less)
      rcases induction before with holds | ⟨ending, after, earlier, ends⟩
      · have reaches := reaches_iff_machineAt.mpr ⟨now, rfl, before⟩
        rcases pursues.step _ reaches (lasted now (Nat.lt_succ_self now)) holds with goesOn | ends
        · exact .inl goesOn
        · exact .inr ⟨now, order, Nat.lt_succ_self now, ends⟩
      · exact .inr ⟨ending, after, Nat.lt_succ_of_lt earlier, ends⟩

/--
The innermost function has begun an instruction at a moment, and at a later one it goes on
for the first time.
-/
structure GoesOnAt (environment : Environment) (call : OuterCall) (begun now : Nat) : Prop where
  order : begun < now
  lasted : ∀ earlier < now, call.Lasts (call.machineAt environment earlier)
  isScript : (call.machineAt environment now).control = .script
  size :
    (call.machineAt environment now).state.frames.size =
      (call.machineAt environment begun).state.frames.size
  since :
    ∀ later,
      begun < later → later < now →
        (call.machineAt environment begun).state.frames.size ≤
            (call.machineAt environment later).state.frames.size ∧
          ((call.machineAt environment later).control = .script →
            (call.machineAt environment later).state.frames.size ≠
              (call.machineAt environment begun).state.frames.size)

end OuterCall

theorem Machine.FailsIn.size_le
    {around : List SubRun}
    {machine : Machine}
    (fails : machine.FailsIn around)
    (inCall : around ≠ []) :
    machine.state.frames.size ≤ entryDepthOf around := by
  cases fails with
  | raise state control fault =>
      rw [frames_raise inCall, Array.size_shrink, Machine.entryDepth_eq]
      exact Nat.min_le_left _ _

namespace Site

variable
  {environment : Environment}
  {call : OuterCall}
  {site : Site}
  {value : Value}

section GoingOn

variable
  {begun now : Nat}
  (goesOn : call.GoesOnAt environment begun now)
  (inCall : site.around ≠ [])
  (inFrame : entryDepthOf site.around < site.depth)
  (depth : site.depth = (call.machineAt environment begun).state.frames.size)

include goesOn inCall inFrame depth

/-- When what has been begun ends, the function goes on. -/
theorem Ends.top
    {closes : Prop}
    {later : Nat}
    (after : begun < later)
    (bound : later ≤ now)
    (ends : site.Ends value closes (call.machineAt environment later)) :
    later = now ∧ closes ∧ (call.machineAt environment now).state.stack.back? = some value := by
  have remains : site.depth ≤ (call.machineAt environment later).state.frames.size := by
    rcases Nat.lt_or_eq_of_le bound with before | rfl
    · exact depth ▸ (goesOn.since later after before).1
    · exact Nat.le_of_eq (depth.trans goesOn.size.symm)
  cases ends with
  | stuck isStuck =>
      cases (OuterCall.stuck_machineAt bound isStuck).symm.trans goesOn.isScript
  | fails fails =>
      exact absurd (Nat.le_trans remains (fails.size_le inCall)) (Nat.not_le.mpr inFrame)
  | delivers closes delivers =>
      generalize isNext : call.machineAt environment later = next at delivers
      cases delivers with
      | outside state last => exact absurd last (Nat.ne_of_gt inFrame)
      | inside state deeper size top =>
          have isScript : (call.machineAt environment later).control = .script := by
            rw [isNext]
          have sameSize :
              (call.machineAt environment later).state.frames.size =
                (call.machineAt environment begun).state.frames.size := by
            rw [isNext]
            exact size.trans depth
          rcases Nat.lt_or_eq_of_le bound with before | rfl
          · exact absurd sameSize ((goesOn.since later after before).2 isScript)
          · refine ⟨rfl, closes, ?_⟩
            rw [isNext]
            exact top

/-- A function that has made a call and goes on finds the value on top of its stack. -/
theorem Undertakes.top
    {outcome : Machine → Machine → Prop}
    (undertakes :
      site.Undertakes environment call value outcome (call.machineAt environment (begun + 1))) :
    (call.machineAt environment now).state.stack.back? = some value ∧
      ∃ ending,
        begun < ending ∧
          ending ≤ now ∧
          outcome (call.machineAt environment (begun + 1)) (call.machineAt environment ending) := by
  have next := Nat.lt_succ_self begun
  cases undertakes with
  | fails fails =>
      have ends : site.Ends value False (call.machineAt environment (begun + 1)) := .fails fails
      exact (ends.top goesOn inCall inFrame depth next goesOn.order).2.1.elim
  | atOnce delivers done =>
      have ends : site.Ends value True (call.machineAt environment (begun + 1)) :=
        .delivers trivial delivers
      rcases ends.top goesOn inCall inFrame depth next goesOn.order with ⟨-, -, top⟩
      exact ⟨top, begun + 1, next, goesOn.order, done _ rfl⟩
  | pursues pursues begins done =>
      rcases OuterCall.pursue pursues goesOn.order goesOn.lasted begins with
        holds | ⟨ending, after, before, ends⟩
      · have reaches := OuterCall.reaches_iff_machineAt.mpr ⟨now, rfl, goesOn.lasted⟩
        have occupied := pursues.occupied _ reaches holds goesOn.isScript
        rw [depth, goesOn.size] at occupied
        exact absurd occupied (Nat.lt_irrefl _)
      · rcases ends.top goesOn inCall inFrame depth (Nat.lt_succ_of_lt after) before with
          ⟨-, closes, top⟩
        exact ⟨top, ending, after, Nat.le_of_lt before, done _ closes⟩

end GoingOn

end Site

/-! ## Calls from outside that succeed -/

namespace OuterCall

/-- The call succeeds with a value, whoever waits for the outcome and is told of it. -/
def Succeeds (environment : Environment) (call : OuterCall) (value : Value) (final : State) :
    Prop :=
  call.unawaited.Returns environment (.ok value) final

/-- The site of a call from outside. -/
def site (call : OuterCall) : Site where
  around := call.subRun :: call.around
  depth := call.state.frames.size
  within := Nat.le_refl _

end OuterCall

namespace Site

variable
  {environment : Environment}
  {call : OuterCall}
  {value result : Value}
  {final : State}
  {count : Nat}
  (nobody : call.awaiting = none)
  (isFinal : call.returned (.ok result) final = call.machineAt environment count)
  (lasted : ∀ earlier < count, call.Lasts (call.machineAt environment earlier))

include nobody isFinal lasted

/-- When what has been begun ends, the call returns. -/
theorem Ends.returned
    {closes : Prop}
    {later : Nat}
    (bound : later ≤ count)
    (ends : call.site.Ends value closes (call.machineAt environment later)) :
    later = count ∧ closes ∧ result = value := by
  have control : (call.machineAt environment count).control = .ended (.ok result) := by
    rw [← isFinal]
    exact OuterCall.deliver_of_nobody nobody _
  -- A machine in which the call has returned is the last one.
  have isLast {outcome : Except RuntimeError Value} {state : State} :
      call.machineAt environment later = call.returned outcome state →
        later = count ∧ outcome = .ok result := by
    intro isReturned
    have isCount : later = count := by
      refine Nat.le_antisymm bound (Nat.le_of_not_lt fun before => ?_)
      have lasts := lasted later before
      rw [isReturned] at lasts
      exact Nat.lt_irrefl _ lasts
    subst isCount
    rw [isReturned] at control
    have told := (OuterCall.deliver_of_nobody nobody outcome).symm.trans control
    cases told
    exact ⟨rfl, rfl⟩
  cases ends with
  | stuck isStuck => cases (OuterCall.stuck_machineAt bound isStuck).symm.trans control
  | fails fails =>
      generalize isNext : call.machineAt environment later = next at fails
      cases fails with
      | raise state _ fault =>
          cases (isLast (isNext.trans (call.conclude_eq _ _ _))).2
  | delivers closes delivers =>
      generalize isNext : call.machineAt environment later = next at delivers
      cases delivers with
      | inside state deeper => exact absurd deeper (Nat.lt_irrefl _)
      | outside state =>
          rcases isLast (isNext.trans (call.conclude_eq _ _ _)) with ⟨isCount, same⟩
          cases same
          exact ⟨isCount, closes, rfl⟩

/-- A call from outside that succeeds does so with the value. -/
theorem Undertakes.returned
    {outcome : Machine → Machine → Prop}
    (undertakes :
      call.site.Undertakes environment call value outcome (call.entered environment)) :
    result = value ∧
      ((∀ other : Machine,
          other.state.heap = (call.entered environment).state.heap → outcome other other) ∨
        ∃ ending < count,
          outcome (call.entered environment) (call.machineAt environment ending)) := by
  have first : call.entered environment = call.machineAt environment 0 := rfl
  cases undertakes with
  | fails fails =>
      have ends : call.site.Ends value False (call.machineAt environment 0) := .fails fails
      exact (ends.returned nobody isFinal lasted (Nat.zero_le _)).2.1.elim
  | atOnce delivers done =>
      have ends : call.site.Ends value True (call.machineAt environment 0) :=
        .delivers trivial delivers
      exact ⟨(ends.returned nobody isFinal lasted (Nat.zero_le _)).2.2, .inl done⟩
  | pursues pursues begins done =>
      rcases OuterCall.pursue pursues (Nat.zero_le count) lasted begins with
        holds | ⟨ending, -, before, ends⟩
      · rcases pursues.nested _ holds with ⟨inner, split⟩
        have remaining := congrArg List.length split
        rw [← isFinal, List.length_append] at remaining
        change call.around.length = _ + (call.subRun :: call.around).length at remaining
        rw [List.length_cons] at remaining
        omega
      · rcases ends.returned nobody isFinal lasted before with ⟨-, closes, same⟩
        exact ⟨same, .inr ⟨ending, before, done _ closes⟩⟩

end Site

end ScriptEngine
