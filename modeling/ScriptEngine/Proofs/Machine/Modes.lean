import ScriptEngine.Proofs.Compiler.Restraint
import ScriptEngine.Proofs.Machine.Bounds
import ScriptEngine.Proofs.Machine.DisguisedRun
import ScriptEngine.Proofs.Machine.Lifetime
import ScriptEngine.Proofs.Machine.Loading
import ScriptEngine.Proofs.Machine.Rest
import ScriptEngine.Proofs.Machine.Slots

/-!
# Running and evaluating a text

The bodies of a text in run mode and in evaluation mode are in the same place of the heap,
and the calls of the two bodies go through the same steps (`Stage.Together`): either is the
other under a disguise, and so is a third machine in which nothing refers to a body.  They
part only where the value of the last expression lies on the stack: the one drops it and
returns null, the other returns it (`Stage.Parts`).
-/

namespace ScriptEngine

open Instruction

/-- States that differ in nothing but one function and the record of executed instructions. -/
structure State.SameBut (position : Nat) (function : Function) (first second : State) : Prop where
  heap :
    second.heap =
      { first.heap with functions := first.heap.functions.setIfInBounds position function }
  registry : second.registry = first.registry
  texts : second.journal.texts = first.journal.texts
  loads : second.journal.loads = first.journal.loads

/--
During a call no host routine sees the code of the function that is called, in the heap or in its
frame, or the slot from which it is called, and none hands over this function.
-/
structure OuterCall.Discreet (environment : Environment) (call : OuterCall) (secret : Nat) :
    Prop where
  ignores :
    ∀ machine,
      call.Reaches environment machine →
      call.Lasts machine →
        ∀ caller next,
          machine.control = .host caller (.inspect next) →
            IgnoresCode call.state.stack.size secret next
  supplies :
    ∀ machine,
      call.Reaches environment machine →
      call.Lasts machine →
        machine.Supplied (Value.Avoids secret)

/-- A single frame is active, and it was called by the embedding program. -/
structure Machine.Alone (frame : Frame) (machine : Machine) : Prop where
  control : machine.control = .script
  frames : machine.state.frames = #[frame]
  subRuns :
    machine.subRuns = [{ stackMark := frame.base, entryDepth := 0, awaiting := none }]

/-- Some last bytes of a body are left to be executed, and a value is on top of the stack. -/
structure Machine.Ending (base : Nat) (body : Function) (left : Nat) (value : Value)
    (machine : Machine) : Prop where
  alone :
    ∃ offset,
      machine.Alone { function := body, offset, base, initializer := false } ∧
        offset + left = body.chunk.code.size
  last : machine.state.stack.back? = some value

/-! ## The beginning of a call -/

namespace OuterCall

/-- The function is about to execute its first instruction. -/
def begun (state : State) (body : Nat) (callee : Value) : Machine where
  state :=
    { state with
      stack := state.stack.push callee
      frames :=
        #[{ function := state.heap.function body, offset := 0, base := state.stack.size
            initializer := false }] }
  control := .script
  subRuns := [{ stackMark := state.stack.size, entryDepth := 0, awaiting := none }]

/-- A body is entered if there is room for it on the stack. -/
theorem entered_body
    {environment : Environment}
    {state : State}
    {body : Nat}
    (noFrames : state.frames = #[])
    (arity : (state.heap.function body).arity = 0)
    (frameAllowed : 0 < environment.settings.limits.maxFrames)
    (callAllowed : 0 < environment.settings.limits.maxNestedCalls) :
    (outermost state (.function body) []).entered environment =
      if state.stack.size < environment.settings.limits.stackCapacity then
        begun state body (.function body)
      else
        (outermost state (.function body) []).returned
          (.error { fault := .stackOverflow, trace := [] }) state := by
  rcases state with ⟨stack, frames, heap, registry, journal⟩
  cases noFrames
  unfold entered outermost Machine.start Machine.enter
  simp only [List.length_nil, Nat.zero_add]
  rw [if_neg (by omega), if_neg (by decide)]
  by_cases room : stack.size < environment.settings.limits.stackCapacity
  · have pushes :
        Action.push environment.settings.limits (.function body)
            { stack, frames := #[], heap, registry, journal } =
          (.ok (),
            { stack := stack.push (.function body), frames := #[], heap, registry, journal }) :=
      if_pos room
    have enters :=
      (Action.pushFrame_of_arity environment.settings.limits arity.symm false
        { stack := stack.push (.function body), frames := #[], heap, registry, journal }).trans
        (if_pos frameAllowed)
    have calls :
        (do
          Machine.pushAll environment []
          Action.callValue environment (.function body) 0 : Action Transition)
            { stack := stack.push (.function body), frames := #[], heap, registry, journal } =
          (.ok .proceed,
            (begun { stack, frames := #[], heap, registry, journal } body
              (.function body)).state) := by
      unfold Machine.pushAll Action.callValue
      refine (Action.bind_of_ok enters _).trans ?_
      simp [begun, Pure.pure, ExceptT.pure, ExceptT.mk, StateT.pure]
    rw [if_pos room]
    show Machine.settle .script _
      ((Action.push environment.settings.limits (.function body) >>= _) _) = _
    rw [Action.bind_of_ok pushes, calls]
    simp [Machine.settle, Machine.resume, Machine.entryDepth, begun]
  · have overflows :
        Action.push environment.settings.limits (.function body)
            { stack, frames := #[], heap, registry, journal } =
          (.error (.fault .stackOverflow), { stack, frames := #[], heap, registry, journal }) :=
      if_neg room
    rw [if_neg room]
    show Machine.settle .script _
      ((Action.push environment.settings.limits (.function body) >>= _) _) = _
    rw [Action.bind_of_error overflows]
    simp [Machine.settle, Machine.raise, Machine.conclude, Machine.traceFrom, returned, deliver]

end OuterCall

/-! ## Both modes -/

/-- A text that has been compiled in both modes, in states that differ in its body only. -/
structure Stage where
  environment : Environment
  started : State
  body : Nat
  run : Function
  eval : Function
  /-- The last statement of the text is an expression statement. -/
  endsInExpression : Prop
  bodies : Bodies endsInExpression run eval
  found : started.heap.functions[body]? = some run

namespace Stage

variable (stage : Stage)

/-- The state with a body in the place of the body in run mode. -/
def placing (function : Function) : State :=
  { stage.started with
    heap :=
      { stage.started.heap with
        functions := stage.started.heap.functions.setIfInBounds stage.body function } }

/-- The state in which the text has been compiled in evaluation mode. -/
def evaluated : State :=
  stage.placing stage.eval

/-- The call of the body in run mode. -/
def runs : OuterCall :=
  .outermost stage.started (.function stage.body) []

/-- The call of the body in evaluation mode. -/
def evals : OuterCall :=
  .outermost stage.evaluated (.function stage.body) []

/-- A body in the place of the body in run mode. -/
def disguise (function : Function) (same : stage.run.SameButCode function) : Disguise where
  slot := stage.started.stack.size
  value := .function stage.body
  position := stage.body
  original := stage.run
  function := function
  same := same

/-- The body in run mode, called by its name. -/
def asRun : Disguise :=
  stage.disguise stage.run ⟨rfl, rfl, rfl, rfl⟩

/-- The body in evaluation mode in the place of the one in run mode. -/
def asEval : Disguise :=
  stage.disguise stage.eval stage.bodies.same

/-- What is needed for the two calls to be compared. -/
structure Prepared : Prop where
  behaves : stage.environment.host.Behaves
  sound : stage.started.Sound []
  evaluatedSound : stage.evaluated.Sound []
  avoids : stage.asRun.Hides stage.started
  within : stage.started.WithinLimits stage.environment.settings.limits
  noFrames : stage.started.frames = #[]
  frameAllowed : 0 < stage.environment.settings.limits.maxFrames
  callAllowed : 0 < stage.environment.settings.limits.maxNestedCalls
  arity : stage.run.arity = 0
  spares :
    ∃ instructions,
      stage.run.chunk.code.toList = Instruction.encode instructions ∧
        .getLocal 0 ∉ instructions
  discreet : stage.runs.Discreet stage.environment stage.body

/-- Both calls have made a number of steps, and neither of them is over. -/
structure Together (count : Nat) : Prop where
  masks :
    ∃ plain,
      stage.asRun.Masks plain (stage.runs.machineAt stage.environment count) ∧
        stage.asEval.Masks plain (stage.evals.machineAt stage.environment count) ∧
        plain.Holds stage.asRun.Hides (Value.Avoids stage.body)
  runs : stage.runs.Reaches stage.environment (stage.runs.machineAt stage.environment count)
  evals : stage.evals.Reaches stage.environment (stage.evals.machineAt stage.environment count)

/-- Both calls are over after a number of steps, without having parted. -/
def Over (count : Nat) : Prop :=
  ∃ plain,
    stage.asRun.Unmasks plain (stage.runs.machineAt stage.environment count) ∧
      stage.asEval.Unmasks plain (stage.evals.machineAt stage.environment count)

/-- The value of the last expression lies on the stack, and there is nothing else to do. -/
structure Parts (runs evals : Machine) (value : Value) : Prop where
  ends : stage.endsInExpression
  runs : runs.Ending stage.started.stack.size stage.run 3 value
  evals : evals.Ending stage.started.stack.size stage.eval 1 value

variable {stage}

/-! ### The beginning -/

theorem lt_size (stage : Stage) : stage.body < stage.started.heap.functions.size :=
  (Array.getElem?_eq_some_iff.mp stage.found).1

theorem placing_run (stage : Stage) : stage.placing stage.run = stage.started := by
  have same :
      stage.started.heap.functions.setIfInBounds stage.body stage.run =
        stage.started.heap.functions := by
    apply Array.ext_getElem?
    intro place
    rw [Array.getElem?_setIfInBounds]
    by_cases here : stage.body = place
    · subst here
      rw [if_pos rfl, if_pos stage.lt_size, stage.found]
    · rw [if_neg here]
  unfold placing
  rw [same]

theorem function_placing (stage : Stage) (function : Function) :
    (stage.placing function).heap.function stage.body = function := by
  unfold Heap.function placing
  rw [Array.getD_eq_getD_getElem?, Array.getElem?_setIfInBounds_self_of_lt stage.lt_size]
  rfl

theorem function_started (stage : Stage) : stage.started.heap.function stage.body = stage.run := by
  have placed := stage.function_placing stage.run
  rwa [placing_run] at placed

/-- When a body has been entered, it is the body in run mode under a disguise. -/
theorem covers_begun (function : Function) (same : stage.run.SameButCode function) :
    (stage.disguise function same).Covers
      (OuterCall.begun stage.started stage.body .null).state
      (OuterCall.begun (stage.placing function) stage.body (.function stage.body)).state where
  heap := rfl
  registry := rfl
  texts := rfl
  loads := rfl
  original := stage.found
  stack := by
    show stage.started.stack.push (.function stage.body) =
      (stage.started.stack.push .null).setIfInBounds stage.started.stack.size
        (.function stage.body)
    apply Array.ext_getElem?
    intro place
    simp only [Array.getElem?_push, Array.getElem?_setIfInBounds, Array.size_push]
    grind
  frames := by
    show #[_] = Array.modify #[_] 0 _
    simp only [stage.function_placing]
    rfl
  inside := by
    show stage.started.stack.size < (stage.started.stack.push _).size
    rw [Array.size_push]
    exact Nat.lt_succ_self _
  outermost := ⟨_, rfl, rfl, rfl, stage.function_started⟩
  above := by
    intro place frame found
    cases found

theorem masks_begun (function : Function) (same : stage.run.SameButCode function) :
    (stage.disguise function same).Masks (OuterCall.begun stage.started stage.body .null)
      (OuterCall.begun (stage.placing function) stage.body (.function stage.body)) :=
  ⟨covers_begun function same, rfl, rfl, .outermost, nofun, rfl⟩

/-- The machine in which nothing refers to a body. -/
theorem holds_begun (prepared : stage.Prepared) :
    (OuterCall.begun stage.started stage.body .null).Holds stage.asRun.Hides
      (Value.Avoids stage.body) := by
  rcases prepared.avoids with ⟨each, consistent, known⟩
  refine ⟨⟨?_, consistent, known⟩, trivial, ?_⟩
  · refine ⟨forall_mem_push each.stack trivial, ?_, each.functions, each.heap, each.modules⟩
    intro frame member
    rw [Array.mem_singleton.mp member]
    show (stage.started.heap.function stage.body).Each _
    rw [function_started]
    exact each.functions _ (Array.mem_of_getElem? stage.found)
  · intro subRun member
    rw [List.mem_singleton.mp member]
    exact nofun

theorem arity_eval (prepared : stage.Prepared) : stage.eval.arity = 0 :=
  stage.bodies.same.arity.trans prepared.arity

/-- Both calls begin, or both bodies do not get onto the stack. -/
theorem begins (prepared : stage.Prepared) :
    stage.Together 0 ∨
      ∃ error,
        stage.runs.machineAt stage.environment 0 =
          stage.runs.returned (.error error) stage.started ∧
          stage.evals.machineAt stage.environment 0 =
            stage.evals.returned (.error error) stage.evaluated := by
  have entered :=
    @OuterCall.entered_body stage.environment stage.started stage.body prepared.noFrames
       (by rw [function_started]; exact prepared.arity) prepared.frameAllowed
      prepared.callAllowed
  have alsoEntered :=
    @OuterCall.entered_body stage.environment stage.evaluated stage.body prepared.noFrames
      (by unfold evaluated; rw [function_placing]; exact arity_eval prepared)
      prepared.frameAllowed prepared.callAllowed
  by_cases room : stage.started.stack.size < stage.environment.settings.limits.stackCapacity
  · rw [if_pos room] at entered
    rw [if_pos (show stage.evaluated.stack.size < _ from room)] at alsoEntered
    refine .inl ⟨⟨OuterCall.begun stage.started stage.body .null, ?_, ?_, holds_begun prepared⟩,
      .entered, .entered⟩
    · show Disguise.Masks _ _ (stage.runs.entered stage.environment)
      rw [show stage.runs.entered stage.environment = _ from entered]
      have masks := @masks_begun stage stage.run ⟨rfl, rfl, rfl, rfl⟩
      rwa [placing_run] at masks
    · show Disguise.Masks _ _ (stage.evals.entered stage.environment)
      rw [show stage.evals.entered stage.environment = _ from alsoEntered]
      exact masks_begun stage.eval stage.bodies.same
  · rw [if_neg room] at entered
    rw [if_neg (show ¬ stage.evaluated.stack.size < _ from room)] at alsoEntered
    exact .inr ⟨_, entered, alsoEntered⟩

/-! ### Steps that both calls make -/

theorem lasts_of_masks
    {disguise : Disguise}
    {plain machine : Machine}
    (masks : disguise.Masks plain machine) :
    0 < machine.subRuns.length := by
  have nested := masks.nested
  rw [masks.subRuns]
  generalize plain.subRuns = subRuns at nested
  cases nested <;> exact Nat.succ_pos _

theorem sound_runs (prepared : stage.Prepared) (count : Nat) :
    (stage.runs.machineAt stage.environment count).Sound := by
  induction count with
  | zero =>
      exact Machine.sound_start_outermost prepared.behaves prepared.sound stage.lt_size
        (List.forall_mem_nil _)
  | succ count induction => exact Machine.sound_step prepared.behaves induction

theorem sound_evals (prepared : stage.Prepared) (count : Nat) :
    (stage.evals.machineAt stage.environment count).Sound := by
  induction count with
  | zero =>
      refine Machine.sound_start_outermost prepared.behaves prepared.evaluatedSound ?_
        (List.forall_mem_nil _)
      show stage.body < (stage.started.heap.functions.setIfInBounds _ _).size
      rw [Array.size_setIfInBounds]
      exact stage.lt_size
  | succ count induction => exact Machine.sound_step prepared.behaves induction

/-- The innermost function of a sound machine, and the instruction that it executes. -/
theorem executes_of_sound
    {machine : Machine}
    (sound : machine.Sound)
    (isScript : machine.control = .script) :
    ∃ frame instruction,
      machine.state.frames.back? = some frame ∧
        Boundary frame.function.chunk.code frame.offset ∧
        decode frame.function.chunk.code frame.offset = .complete instruction ∧
        frame.base + instruction.takes < machine.state.stack.size ∧
        (∀ slot, instruction = .setLocal slot → slot ≠ 0) ∧
        entryDepthOf machine.subRuns < machine.state.frames.size := by
  unfold Machine.Sound at sound
  rw [isScript] at sound
  rcases sound with ⟨frame, rest, shape, active, shaped, -⟩
  rcases shaped.steps with ⟨instruction, steps⟩
  refine ⟨frame, instruction, active.back, shaped.boundary, steps.decoded, ?_, ?_, ?_⟩
  · have height := active.height
    have takes := steps.takes
    omega
  · rintro slot rfl
    rcases steps.operands with ⟨slots, other, -⟩
    exact other
  · have depth := active.below.cases_depth.1
    have size := congrArg List.length active.frames
    simp only [State.activeFrames, List.length_reverse, Array.length_toList, List.length_cons]
      at size
    omega

/-- In the outermost function both bodies have the same instruction, unless the calls part there. -/
theorem same_or_parts
    (bodies : Bodies stage.endsInExpression stage.run stage.eval)
    {offset : Nat}
    (boundary : Boundary stage.eval.chunk.code offset)
    {instruction other : Instruction}
    (decoded : decode stage.run.chunk.code offset = .complete instruction)
    (alsoDecoded : decode stage.eval.chunk.code offset = .complete other) :
    other = instruction ∨
      stage.endsInExpression ∧
        instruction = .pop ∧
        offset + 3 = stage.run.chunk.code.size ∧
        offset + 1 = stage.eval.chunk.code.size := by
  by_cases ends : stage.endsInExpression
  · rcases bodies.differ ends with ⟨common, runCode, evalCode⟩
    rcases Chunk.split_of_boundary evalCode boundary alsoDecoded with ⟨before, after, split, rfl⟩
    rcases List.eq_nil_or_concat after with rfl | ⟨between, last, rfl⟩
    · rcases List.append_inj' split rfl with ⟨rfl, ⟨⟩⟩
      rw [Instruction.decode_encode runCode] at decoded
      cases decoded
      have runSize := congrArg List.length runCode
      have evalSize := congrArg List.length evalCode
      simp only [Array.length_toList, length_encode, totalLength_append] at runSize evalSize
      exact .inr ⟨ends, rfl, runSize.symm, evalSize.symm⟩
    · rw [List.concat_eq_append, ← List.cons_append, ← List.append_assoc] at split
      rcases List.append_inj' split rfl with ⟨rfl, -⟩
      rw [List.append_assoc, List.cons_append] at runCode
      rw [Instruction.decode_encode runCode] at decoded
      cases decoded
      exact .inl rfl
  · rw [bodies.agree ends, decoded] at alsoDecoded
    cases alsoDecoded
    exact .inl rfl

/-- The outermost function in run mode does not look at the slot from which it was called. -/
theorem sparesSlotZero
    (prepared : stage.Prepared)
    {offset : Nat}
    (boundary : Boundary stage.run.chunk.code offset)
    {instruction : Instruction}
    (decoded : decode stage.run.chunk.code offset = .complete instruction)
    (assigns : ∀ slot, instruction = .setLocal slot → slot ≠ 0) :
    instruction.SparesSlotZero := by
  have positive : ∀ {slot : UInt8}, slot ≠ 0 → slot.toNat ≠ 0 :=
    fun other zero => other (UInt8.toNat_inj.mp zero)
  rcases prepared.spares with ⟨instructions, code, absent⟩
  rcases Chunk.split_of_boundary code boundary decoded with ⟨before, after, rfl, -⟩
  cases instruction with
  | getLocal slot =>
      refine positive ?_
      rintro rfl
      exact absent (List.mem_append_right _ List.mem_cons_self)
  | setLocal slot => exact positive (assigns slot rfl)
  | _ => trivial

/-- The next instruction does not notice the disguises, or the calls part. -/
theorem steady_or_parts
    (prepared : stage.Prepared)
    {plain runs evals : Machine}
    (runsMasks : stage.asRun.Masks plain runs)
    (evalsMasks : stage.asEval.Masks plain evals)
    (runsSound : runs.Sound)
    (evalsSound : evals.Sound)
    (isScript : plain.control = .script) :
    stage.asRun.Steady (entryDepthOf plain.subRuns) plain.state ∧
        stage.asEval.Steady (entryDepthOf plain.subRuns) plain.state ∨
      ∃ value, stage.Parts runs evals value := by
  have runsScript := runsMasks.control.trans isScript
  have evalsScript := evalsMasks.control.trans isScript
  rcases executes_of_sound runsSound runsScript with
    ⟨frame, instruction, last, boundary, decoded, takes, assigns, within⟩
  rcases executes_of_sound evalsSound evalsScript with
    ⟨otherFrame, other, otherLast, otherBoundary, otherDecoded, -, -, -⟩
  rw [runsMasks.subRuns, runsMasks.covers.size_frames] at within
  rw [runsMasks.covers.size_stack] at takes
  rcases runsMasks.covers.innermost with
    ⟨inner, plainLast, ⟨single, same, base, initializer, function⟩ | ⟨others, same, isAbove⟩⟩
  · rcases evalsMasks.covers.innermost with ⟨again, alsoLast, ⟨-, alsoSame, -⟩ | ⟨others, -⟩⟩
    · cases plainLast.symm.trans alsoLast
      cases same.symm.trans last
      cases alsoSame.symm.trans otherLast
      change inner.base + _ < _ at takes
      rw [base] at takes
      change stage.started.stack.size + _ < _ at takes
      have isRun : inner.function = stage.run := function
      rcases same_or_parts stage.bodies otherBoundary decoded otherDecoded with
        rfl | ⟨ends, rfl, runLeft, evalLeft⟩
      · have room : stage.started.stack.size + 1 + other.takes ≤ plain.state.stack.size := by
          omega
        have plainDecoded :
            decode inner.function.chunk.code inner.offset = .complete other := by
          rw [isRun]
          exact decoded
        have spares := sparesSlotZero prepared boundary decoded assigns
        exact .inl
          ⟨⟨within, inner, other, plainLast, plainDecoded, room, fun _ => ⟨decoded, spares⟩⟩,
            ⟨within, inner, other, plainLast, plainDecoded, room, fun _ => ⟨otherDecoded, spares⟩⟩⟩
      · rcases runsMasks.covers.back?_stack takes with ⟨value, isValue, runsValue⟩
        rcases evalsMasks.covers.back?_stack takes with ⟨again, alsoValue, evalsValue⟩
        cases isValue.symm.trans alsoValue
        have frames : plain.state.frames = #[inner] := by
          apply Array.ext_getElem?
          intro place
          rw [Array.back?_eq_getElem?, single] at plainLast
          rcases place with _ | place
          · exact plainLast
          · rw [Array.getElem?_eq_none (by omega)]
            rfl
        have outermost :
            plain.subRuns =
              [{ stackMark := stage.started.stack.size, entryDepth := 0, awaiting := none }] := by
          have nested := runsMasks.nested
          rw [single] at within
          generalize plain.subRuns = subRuns at nested within
          cases nested with
          | outermost => rfl
          | inner _ _ depth => exact absurd within (Nat.not_lt.mpr depth)
        rcases inner with ⟨_, offset, _, _⟩
        cases base
        cases initializer
        refine .inr ⟨value, ends, ⟨⟨offset, ⟨runsScript, ?_, ?_⟩, runLeft⟩, runsValue⟩,
          ⟨⟨offset, ⟨evalsScript, ?_, ?_⟩, evalLeft⟩, evalsValue⟩⟩
        · rw [runsMasks.covers.frames, frames]
          rfl
        · exact runsMasks.subRuns.trans outermost
        · rw [evalsMasks.covers.frames, frames]
          rfl
        · exact evalsMasks.subRuns.trans outermost
    · omega
  · cases same.symm.trans last
    have room : stage.started.stack.size + 1 + instruction.takes ≤ plain.state.stack.size := by
      change stage.started.stack.size < _ at isAbove
      omega
    have several : plain.state.frames.size ≠ 1 := Nat.ne_of_gt others
    exact .inl
      ⟨⟨within, frame, instruction, plainLast, decoded, room, fun single => absurd single several⟩,
        ⟨within, frame, instruction, plainLast, decoded, room, fun single => absurd single several⟩⟩

/-- The calls part, or they make one more step together, which may be the last one. -/
theorem together_succ
    (prepared : stage.Prepared)
    {count : Nat}
    (together : stage.Together count) :
    (∃ value,
        stage.Parts (stage.runs.machineAt stage.environment count)
          (stage.evals.machineAt stage.environment count) value) ∨
      stage.Together (count + 1) ∨ stage.Over (count + 1) := by
  rcases together with ⟨⟨plain, runsMasks, evalsMasks, holds⟩, reaches, alsoReaches⟩
  have lasts : stage.runs.Lasts (stage.runs.machineAt stage.environment count) :=
    lasts_of_masks runsMasks
  have alsoLasts : stage.evals.Lasts (stage.evals.machineAt stage.environment count) :=
    lasts_of_masks evalsMasks
  have supplied : plain.Supplied (Value.Avoids stage.body) := fun caller program isHost =>
    prepared.discreet.supplies _ reaches lasts caller program (runsMasks.control.trans isHost)
  have ignores :
      ∀ caller next,
        plain.control = .host caller (.inspect next) →
          IgnoresCode stage.started.stack.size stage.body next :=
    fun caller next isHost =>
      prepared.discreet.ignores _ reaches lasts caller next (runsMasks.control.trans isHost)
  have goesOn :
      (plain.control = .script →
        stage.asRun.Steady (entryDepthOf plain.subRuns) plain.state ∧
          stage.asEval.Steady (entryDepthOf plain.subRuns) plain.state) →
        stage.Together (count + 1) ∨ stage.Over (count + 1) := by
    intro steady
    have kept : plain.Holds stage.asRun.Hides (Value.Avoids stage.asRun.position) := holds
    have stays := kept.step
      (stage.asRun.hides_invariant stage.environment.settings.limits) supplied
    rcases runsMasks.step holds.state supplied ignores fun isScript => (steady isScript).1 with
      runsGoOn | runsEnd <;>
      rcases evalsMasks.step holds.state supplied ignores fun isScript => (steady isScript).2 with
        evalsGoOn | evalsEnd
    · exact .inl ⟨⟨_, runsGoOn, evalsGoOn, stays⟩, .step reaches lasts, .step alsoReaches alsoLasts⟩
    · rcases evalsEnd.ends with ⟨outcome, -, ended, -⟩
      have goes := runsGoOn.lasts
      rw [ended] at goes
      cases goes
    · rcases runsEnd.ends with ⟨outcome, -, ended, -⟩
      have goes := evalsGoOn.lasts
      rw [ended] at goes
      cases goes
    · exact .inr ⟨_, runsEnd, evalsEnd⟩
  by_cases isScript : plain.control = .script
  · rcases steady_or_parts prepared runsMasks evalsMasks (sound_runs prepared count)
      (sound_evals prepared count) isScript with steady | parts
    · exact .inr (goesOn fun _ => steady)
    · exact .inl parts
  · exact .inr (goesOn fun script => absurd script isScript)

end Stage

end ScriptEngine
