import ScriptEngine.Proofs.Machine.Modes

/-!
# The end of running and of evaluating a text

Where the two calls part, the one drops the value of the last expression and returns null,
the other returns the value (`Stage.Parts.returns`).  So either both calls return, with states
that differ in nothing but the body and the record of executed instructions, or neither does
(`Stage.agree`).
-/

namespace ScriptEngine

open Instruction

/-- States that a script cannot tell apart but by the stack. -/
structure State.SameEffects (first second : State) : Prop where
  heap : second.heap = first.heap
  registry : second.registry = first.registry
  texts : second.journal.texts = first.journal.texts
  loads : second.journal.loads = first.journal.loads

theorem State.SameEffects.trans
    {first second third : State}
    (same : first.SameEffects second)
    (also : second.SameEffects third) :
    first.SameEffects third where
  heap := also.heap.trans same.heap
  registry := also.registry.trans same.registry
  texts := also.texts.trans same.texts
  loads := also.loads.trans same.loads

/-- States with the same effects as others differ as these do. -/
theorem State.SameBut.of_sameEffects
    {position : Nat}
    {function : Function}
    {first second firstAfter secondAfter : State}
    (differ : first.SameBut position function second)
    (firstSame : first.SameEffects firstAfter)
    (secondSame : second.SameEffects secondAfter) :
    firstAfter.SameBut position function secondAfter where
  heap := by rw [secondSame.heap, differ.heap, firstSame.heap]
  registry := by rw [secondSame.registry, differ.registry, firstSame.registry]
  texts := by rw [secondSame.texts, differ.texts, firstSame.texts]
  loads := by rw [secondSame.loads, differ.loads, firstSame.loads]

theorem State.sameEffects_fetched
    (environment : Environment)
    (frame : Frame)
    (instruction : Instruction)
    (state : State) :
    state.SameEffects (state.fetched environment frame instruction) where
  heap := State.heap_fetched
  registry := State.registry_fetched
  texts := by
    show (state.recorded environment).journal.texts = _
    unfold State.recorded
    split <;> rfl
  loads := State.loads_fetched

theorem SameButTrace.symm_trans
    {told outcome result : Except RuntimeError Value}
    (same : SameButTrace told outcome)
    (also : SameButTrace told result) :
    SameButTrace outcome result := by
  rcases told with error | value
  · rcases outcome with first | first
    · rcases result with second | second
      · exact Eq.trans also (Eq.symm same)
      · exact also
    · exact same.elim
  · rcases outcome with first | first
    · exact same.elim
    · rcases result with second | second
      · exact also
      · exact Eq.trans also (Eq.symm same)

/-- A call that is over has returned what its control says. -/
theorem OuterCall.eq_returned
    {call : OuterCall}
    {machine : Machine}
    {outcome : Except RuntimeError Value}
    (control : machine.control = call.deliver outcome)
    (subRuns : machine.subRuns = call.around) :
    machine = call.returned outcome machine.state := by
  rcases machine with ⟨state, _, _⟩
  cases control
  cases subRuns
  rfl

/-! ## The last instructions of a body -/

namespace Machine.Alone

variable {environment : Environment} {machine : Machine} {frame : Frame} {value : Value}

theorem executes
    (alone : machine.Alone frame)
    {instruction : Instruction}
    (decoded : decode frame.function.chunk.code frame.offset = .complete instruction) :
    machine.Executes frame instruction where
  control := alone.control
  innermost := by rw [alone.frames]; rfl
  decoded := decoded

theorem frames_fetched
    (alone : machine.Alone frame)
    (instruction : Instruction) :
    (machine.state.fetched environment frame instruction).frames =
      #[{ frame with offset := frame.offset + instruction.length }] := by
  unfold State.fetched Action.moveTo Action.change
  simp only [State.frames_recorded, alone.frames]
  rfl

/-- The frame goes on behind an instruction that does nothing but change the stack. -/
theorem goesOn
    (alone : machine.Alone frame)
    {instruction : Instruction}
    (decoded : decode frame.function.chunk.code frame.offset = .complete instruction)
    (noCall : ∀ index argumentCount, instruction ≠ .invoke index argumentCount)
    {stack : Array Value}
    (executed :
      ∀ state : State,
        state.stack = machine.state.stack →
          Action.execute environment machine.entryDepth instruction state =
            (.ok .proceed, { state with stack })) :
    (machine.step environment).Alone { frame with offset := frame.offset + instruction.length } ∧
      (machine.step environment).state.stack = stack ∧
      machine.state.SameEffects (machine.step environment).state := by
  have steps : machine.step environment = _ :=
    (alone.executes decoded).step_eq fun index count same => absurd same (noCall index count)
  have frames : (machine.state.fetched environment frame instruction).frames = _ :=
    alone.frames_fetched instruction
  have same := State.sameEffects_fetched environment frame instruction machine.state
  rw [executed _ State.stack_fetched, alone.subRuns] at steps
  have goes :
      machine.step environment =
        { state := { machine.state.fetched environment frame instruction with stack }
          control := .script
          subRuns := [{ stackMark := frame.base, entryDepth := 0, awaiting := none }] } := by
    rw [steps]
    unfold Machine.settle Machine.resume Machine.entryDepth
    simp only [frames]
    rfl
  rw [goes]
  exact ⟨⟨rfl, frames, rfl⟩, rfl, ⟨same.heap, same.registry, same.texts, same.loads⟩⟩

/-- A value is dropped. -/
theorem pop
    (alone : machine.Alone frame)
    (decoded : decode frame.function.chunk.code frame.offset = .complete .pop)
    (last : machine.state.stack.back? = some value) :
    (machine.step environment).Alone { frame with offset := frame.offset + 1 } ∧
      (machine.step environment).state.stack = machine.state.stack.pop ∧
      machine.state.SameEffects (machine.step environment).state := by
  refine alone.goesOn decoded nofun fun state same => ?_
  rcases state with ⟨stack, frames, heap, registry, journal⟩
  cases same
  unfold Action.execute Action.andProceed
  have pops :
      Action.pop { stack := machine.state.stack, frames, heap, registry, journal } =
        (.ok value, { stack := machine.state.stack.pop, frames, heap, registry, journal }) := by
    unfold Action.pop
    simp only [last]
  show ((Action.pop >>= fun _ => Pure.pure ()) >>= fun _ => Pure.pure Transition.proceed) _ = _
  rw [bind_assoc, Action.bind_of_ok pops]
  rfl

/-- Null is put on top of the stack. -/
theorem pushNull
    (alone : machine.Alone frame)
    (decoded : decode frame.function.chunk.code frame.offset = .complete .pushNull)
    (room : machine.state.stack.size < environment.settings.limits.stackCapacity) :
    (machine.step environment).Alone { frame with offset := frame.offset + 1 } ∧
      (machine.step environment).state.stack = machine.state.stack.push .null ∧
      machine.state.SameEffects (machine.step environment).state := by
  refine alone.goesOn decoded nofun fun state same => ?_
  rcases state with ⟨stack, frames, heap, registry, journal⟩
  cases same
  have pushes :
      Action.push environment.settings.limits .null
          { stack := machine.state.stack, frames, heap, registry, journal } =
        (.ok (), { stack := machine.state.stack.push .null, frames, heap, registry, journal }) :=
    if_pos room
  show (Action.push environment.settings.limits .null >>= fun _ =>
    Pure.pure Transition.proceed) _ = _
  rw [Action.bind_of_ok pushes]
  rfl

/-- The call ends with the value on top of the stack. -/
theorem leave
    (alone : machine.Alone frame)
    (decoded : decode frame.function.chunk.code frame.offset = .complete .leave)
    (plain : frame.initializer = false)
    (last : machine.state.stack.back? = some value) :
    ∃ final,
      machine.step environment = { state := final, control := .ended (.ok value), subRuns := [] } ∧
        machine.state.SameEffects final := by
  have steps : machine.step environment = _ := (alone.executes decoded).step_eq nofun
  have frames : (machine.state.fetched environment frame .leave).frames = _ :=
    alone.frames_fetched .leave
  have same := State.sameEffects_fetched environment frame .leave machine.state
  have stack : (machine.state.fetched environment frame .leave).stack = machine.state.stack :=
    State.stack_fetched
  revert steps frames same stack
  generalize machine.state.fetched environment frame .leave = fetched
  rintro steps frames ⟨heap, registry, texts, loads⟩ stack
  rw [steps, alone.subRuns]
  rw [← stack] at last
  refine
    ⟨{ fetched with
        stack := fetched.stack.pop.shrink frame.base
        frames := #[] },
      ?_, heap, registry, texts, loads⟩
  have pops : Action.pop fetched = (.ok value, { fetched with stack := fetched.stack.pop }) := by
    unfold Action.pop
    rw [last]
  have leaves :
      Action.leave environment 0 fetched =
        (.ok (.finished value),
          { fetched with stack := fetched.stack.pop.shrink frame.base, frames := #[] }) := by
    unfold Action.leave Action.frame
    rw [Action.bind_of_ok pops, Action.look_bind]
    simp only [plain, frames]
    rfl
  show Machine.settle .script _ (Action.leave environment machine.entryDepth fetched) = _
  rw [show machine.entryDepth = 0 by unfold Machine.entryDepth; rw [alone.subRuns], leaves]
  rfl

end Machine.Alone

/-! ## Where the calls part -/

/-- Outcomes of the two calls. -/
inductive Stage.Agree (stage : Stage) :
    Except RuntimeError Value → Except RuntimeError Value → Prop where
  /-- Control has reached the end of the last expression, whose value only the one returns. -/
  | parted
      {machine : Machine}
      {value : Value}
      (ends : stage.endsInExpression)
      (reaches : stage.runs.Reaches stage.environment machine)
      (ending : machine.Ending stage.started.stack.size stage.run 3 value) :
      Agree stage (.ok .null) (.ok value)
  /-- Control has not reached the end of a last expression. -/
  | together
      {outcome result : Except RuntimeError Value}
      (never :
        stage.endsInExpression →
          ∀ machine,
            stage.runs.Reaches stage.environment machine →
              ∀ value, ¬ machine.Ending stage.started.stack.size stage.run 3 value)
      (same : SameButTrace outcome result) :
      Agree stage outcome result

/--
Either both calls return, or neither of them ever does; and where they are, the states differ
in nothing but the body and the record of executed instructions.
-/
def Stage.ModesAgree (stage : Stage) : Prop :=
  (∃ outcome final result last,
      stage.runs.Returns stage.environment outcome final ∧
        stage.evals.Returns stage.environment result last ∧
        stage.Agree outcome result ∧
        final.SameBut stage.body stage.eval last) ∨
    ∀ count,
      stage.runs.Lasts (stage.runs.machineAt stage.environment count) ∧
        stage.evals.Lasts (stage.evals.machineAt stage.environment count) ∧
        (stage.runs.machineAt stage.environment count).state.SameBut stage.body stage.eval
          (stage.evals.machineAt stage.environment count).state

namespace Stage

variable {stage : Stage} {runs evals : Machine} {value : Value}

/-- The body in evaluation mode is shorter by the dropping of the value and by null. -/
theorem sizes_of_ends
    (bodies : Bodies stage.endsInExpression stage.run stage.eval)
    (ends : stage.endsInExpression) :
    stage.run.chunk.code.size = stage.eval.chunk.code.size + 2 := by
  rcases bodies.differ ends with ⟨common, runCode, evalCode⟩
  have runSize := congrArg List.length runCode
  have evalSize := congrArg List.length evalCode
  simp only [length_encode, totalLength_append] at runSize evalSize
  change stage.run.chunk.code.size = totalLength common + 3 at runSize
  change stage.eval.chunk.code.size = totalLength common + 1 at evalSize
  omega

/-- What the end of the body in run mode consists of. -/
theorem decode_run
    (bodies : Bodies stage.endsInExpression stage.run stage.eval)
    (ends : stage.endsInExpression)
    {offset : Nat}
    (left : offset + 3 = stage.run.chunk.code.size) :
    decode stage.run.chunk.code offset = .complete .pop ∧
      decode stage.run.chunk.code (offset + 1) = .complete .pushNull ∧
      decode stage.run.chunk.code (offset + 2) = .complete .leave := by
  rcases bodies.differ ends with ⟨common, code, -⟩
  have size := congrArg List.length code
  simp only [Array.length_toList, length_encode, totalLength_append] at size
  have here : offset = totalLength common := by
    change stage.run.chunk.code.size = totalLength common + 3 at size
    omega
  have second :
      stage.run.chunk.code.toList =
        Instruction.encode ((common ++ [Instruction.pop]) ++ Instruction.pushNull :: [.leave]) := by
    rw [code, List.append_assoc]
    rfl
  have third :
      stage.run.chunk.code.toList =
        Instruction.encode
          ((common ++ [Instruction.pop, Instruction.pushNull]) ++ Instruction.leave :: []) := by
    rw [code, List.append_assoc]
    rfl
  have pushes := Instruction.decode_encode second
  have leaves := Instruction.decode_encode third
  rw [totalLength_append] at pushes leaves
  exact here ▸ ⟨Instruction.decode_encode code, pushes, leaves⟩

/-- What the end of the body in evaluation mode consists of. -/
theorem decode_eval
    (bodies : Bodies stage.endsInExpression stage.run stage.eval)
    (ends : stage.endsInExpression)
    {offset : Nat}
    (left : offset + 1 = stage.eval.chunk.code.size) :
    decode stage.eval.chunk.code offset = .complete .leave := by
  rcases bodies.differ ends with ⟨common, -, code⟩
  have size := congrArg List.length code
  simp only [Array.length_toList, length_encode, totalLength_append] at size
  have here : offset = totalLength common := by
    change stage.eval.chunk.code.size = totalLength common + 1 at size
    omega
  exact here ▸ Instruction.decode_encode code

/-- Where both calls stand, the states differ in the body only. -/
theorem sameBut_of_surrounds
    {plain first second : State}
    (surrounds : stage.asRun.Surrounds plain first)
    (also : stage.asEval.Surrounds plain second) :
    first.SameBut stage.body stage.eval second where
  heap := by
    rw [surrounds.heap, also.heap]
    unfold Disguise.heap
    simp only [asRun, asEval, disguise, Array.setIfInBounds_setIfInBounds]
  registry := also.registry.trans surrounds.registry.symm
  texts := also.texts.trans surrounds.texts.symm
  loads := also.loads.trans surrounds.loads.symm

/-- The one call drops the value on top of the stack, and the other is over. -/
theorem Parts.step
    (parts : stage.Parts runs evals value) :
    (∃ frame : Frame,
        frame.base = stage.started.stack.size ∧
          (runs.step stage.environment).Alone frame ∧
          frame.initializer = false ∧
          decode frame.function.chunk.code frame.offset = .complete .pushNull ∧
          decode frame.function.chunk.code (frame.offset + 1) = .complete .leave) ∧
      (runs.step stage.environment).state.stack.size < runs.state.stack.size ∧
      runs.state.SameEffects (runs.step stage.environment).state ∧
      ∃ last,
        evals.step stage.environment = stage.evals.returned (.ok value) last ∧
          evals.state.SameEffects last := by
  rcases parts with ⟨ends, ⟨⟨offset, alone, left⟩, top⟩, ⟨⟨other, alsoAlone, alsoLeft⟩, alsoTop⟩⟩
  rcases decode_run stage.bodies ends left with ⟨pops, pushes, leaves⟩
  rcases @Machine.Alone.pop stage.environment _ _ _ alone pops top with ⟨dropped, stack, same⟩
  refine ⟨⟨_, rfl, dropped, rfl, pushes, leaves⟩, ?_, same,
    alsoAlone.leave (decode_eval stage.bodies ends alsoLeft) rfl alsoTop⟩
  rw [Array.back?_eq_getElem?] at top
  have inside := (Array.getElem?_eq_some_iff.mp top).1
  rw [stack, Array.size_pop]
  omega

/-- The one call returns null, the other the value on top of the stack. -/
theorem Parts.returns
    (prepared : stage.Prepared)
    {count : Nat}
    {value : Value}
    (together : stage.Together count)
    (parts :
      stage.Parts (stage.runs.machineAt stage.environment count)
        (stage.evals.machineAt stage.environment count) value) :
    ∃ final last,
      stage.runs.Returns stage.environment (.ok .null) final ∧
        stage.evals.Returns stage.environment (.ok value) last ∧
        final.SameBut stage.body stage.eval last := by
  rcases together with ⟨⟨plain, runsMasks, evalsMasks, -⟩, reaches, alsoReaches⟩
  have differ := sameBut_of_surrounds runsMasks.covers.toSurrounds evalsMasks.covers.toSurrounds
  have within := (reaches.withinLimits prepared.within (Nat.zero_le _)).state.stack
  rcases parts.step with
    ⟨⟨frame, base, dropped, plainFrame, pushes, leaves⟩, shorter, first, last, ended, fourth⟩
  have dropping := OuterCall.Reaches.step reaches (lasts_of_masks runsMasks)
  rcases dropped.pushNull pushes (Nat.lt_of_lt_of_le shorter within) with ⟨pushed, stack, second⟩
  have pushing := OuterCall.Reaches.step dropping
    (show 0 < List.length _ by rw [dropped.subRuns]; exact Nat.one_pos)
  rcases @Machine.Alone.leave stage.environment _ _ .null pushed leaves plainFrame
    (by rw [stack]; exact Array.back?_push) with ⟨final, isOver, third⟩
  have leaving := OuterCall.Reaches.step pushing
    (show 0 < List.length _ by rw [pushed.subRuns]; exact Nat.one_pos)
  rw [isOver] at leaving
  have alsoLeaving := OuterCall.Reaches.step alsoReaches (lasts_of_masks evalsMasks)
  rw [ended] at alsoLeaving
  exact ⟨final, last, leaving, alsoLeaving,
    differ.of_sameEffects ((first.trans second).trans third) fourth⟩

/-- Where control has reached the end of the last expression, the calls part. -/
theorem Together.parts_of_ending
    (prepared : stage.Prepared)
    {count : Nat}
    (together : stage.Together count)
    (ends : stage.endsInExpression)
    (ending :
      (stage.runs.machineAt stage.environment count).Ending stage.started.stack.size stage.run 3
        value) :
    ∃ value,
      stage.Parts (stage.runs.machineAt stage.environment count)
        (stage.evals.machineAt stage.environment count) value := by
  rcases together with ⟨⟨plain, runsMasks, evalsMasks, -⟩, -, -⟩
  rcases ending with ⟨⟨offset, alone, left⟩, -⟩
  have isScript := runsMasks.control.symm.trans alone.control
  refine (steady_or_parts prepared runsMasks evalsMasks (sound_runs prepared count)
    (sound_evals prepared count) isScript).resolve_left ?_
  rintro ⟨⟨-, frame, instruction, last, decoded, -, -⟩,
    -, again, other, alsoLast, alsoDecoded, -, single⟩
  cases last.symm.trans alsoLast
  cases decoded.symm.trans alsoDecoded
  have size := runsMasks.covers.size_frames
  rw [alone.frames] at size
  rcases runsMasks.covers.innermost with
    ⟨inner, plainLast, ⟨-, same, -, -, function⟩ | ⟨several, -⟩⟩
  · cases last.symm.trans plainLast
    rw [alone.frames] at same
    have atEnd : offset = frame.offset :=
      congrArg Frame.offset (Option.some.inj (show some _ = some _ from same))
    subst atEnd
    have isRun : frame.function = stage.run := function
    rw [isRun, (decode_run stage.bodies ends left).1] at decoded
    cases decoded
    have sizes := sizes_of_ends stage.bodies ends
    have differs := (single size.symm).1
    rw [show stage.asEval.function = stage.eval from rfl,
      decode_eval stage.bodies ends (by omega)] at differs
    cases differs
  · exact absurd size (Nat.ne_of_lt several)

/-- Control never reaches the end of a last expression if it does not before the call is over. -/
theorem never_ending
    {total : Nat}
    (ended : ¬ stage.runs.Lasts (stage.runs.machineAt stage.environment total))
    (never :
      ∀ count < total,
        ∀ value,
          ¬ (stage.runs.machineAt stage.environment count).Ending stage.started.stack.size stage.run
            3 value)
    (machine : Machine)
    (reaches : stage.runs.Reaches stage.environment machine)
    (value : Value) :
    ¬ machine.Ending stage.started.stack.size stage.run 3 value := by
  intro ending
  rcases ending.alone with ⟨offset, alone, -⟩
  have lasts : stage.runs.Lasts machine := by
    show 0 < List.length _
    rw [alone.subRuns]
    exact Nat.one_pos
  rcases reaches.lt_of_lasts lasts ended with ⟨count, early, rfl⟩
  exact never count early value ending

/-- Both calls have returned without having parted. -/
theorem Over.returns
    {count : Nat}
    (isOver : stage.Over (count + 1))
    (together : stage.Together count) :
    ¬ stage.runs.Lasts (stage.runs.machineAt stage.environment (count + 1)) ∧
      ∃ outcome final result last,
        stage.runs.Returns stage.environment outcome final ∧
          stage.evals.Returns stage.environment result last ∧
          SameButTrace outcome result ∧
          final.SameBut stage.body stage.eval last := by
  rcases isOver with ⟨plain, runsUnmasks, evalsUnmasks⟩
  rcases together with ⟨⟨before, runsMasks, evalsMasks, -⟩, reaches, alsoReaches⟩
  rcases runsUnmasks.ends with ⟨told, outcome, isTold, isOutcome, same⟩
  rcases evalsUnmasks.ends with ⟨again, result, alsoTold, isResult, alsoSame⟩
  cases isTold.symm.trans alsoTold
  have ended : ¬ stage.runs.Lasts (stage.runs.machineAt stage.environment (count + 1)) := by
    show ¬ 0 < List.length _
    rw [runsUnmasks.subRuns.2]
    exact Nat.lt_irrefl 0
  have runsOver :
      stage.runs.machineAt stage.environment (count + 1) =
        stage.runs.returned outcome (stage.runs.machineAt stage.environment (count + 1)).state :=
    OuterCall.eq_returned isOutcome runsUnmasks.subRuns.2
  have evalsOver :
      stage.evals.machineAt stage.environment (count + 1) =
        stage.evals.returned result (stage.evals.machineAt stage.environment (count + 1)).state :=
    OuterCall.eq_returned isResult evalsUnmasks.subRuns.2
  have returns :
      stage.runs.Reaches stage.environment (stage.runs.machineAt stage.environment (count + 1)) :=
    .step reaches (lasts_of_masks runsMasks)
  have alsoReturns :
      stage.evals.Reaches stage.environment
        (stage.evals.machineAt stage.environment (count + 1)) :=
    .step alsoReaches (lasts_of_masks evalsMasks)
  rw [runsOver] at returns
  rw [evalsOver] at alsoReturns
  refine ⟨ended, outcome, _, result, _, returns, alsoReturns, same.symm_trans alsoSame,
    sameBut_of_surrounds runsUnmasks.remains.toSurrounds evalsUnmasks.remains.toSurrounds⟩

/-- Running and evaluating a text agree. -/
theorem agree (prepared : stage.Prepared) : stage.ModesAgree := by
  by_cases forever : ∀ count, stage.Together count
  · refine .inr fun count => ?_
    rcases (forever count).masks with ⟨plain, runsMasks, evalsMasks, -⟩
    exact ⟨lasts_of_masks runsMasks, lasts_of_masks evalsMasks,
      sameBut_of_surrounds runsMasks.covers.toSurrounds evalsMasks.covers.toSurrounds⟩
  refine .inl ?_
  -- the first moment at which the calls have not made the same steps
  have ends : ∃ count, ¬ stage.Together count := not_forall.mp forever
  classical
  have earlier : ∀ count < Nat.find ends, stage.Together count := fun count early =>
    not_not.mp (Nat.find_min ends early)
  have apart : ¬ stage.Together (Nat.find ends) := Nat.find_spec ends
  revert earlier apart
  generalize Nat.find ends = first
  intro earlier apart
  cases first with
  | zero =>
      rcases begins prepared with together | ⟨error, refused, alsoRefused⟩
      · exact absurd together apart
      · have returns :
            stage.runs.Reaches stage.environment (stage.runs.machineAt stage.environment 0) :=
          .entered
        have alsoReturns :
            stage.evals.Reaches stage.environment (stage.evals.machineAt stage.environment 0) :=
          .entered
        rw [refused] at returns
        rw [alsoRefused] at alsoReturns
        have ended : ¬ stage.runs.Lasts (stage.runs.machineAt stage.environment 0) := by
          rw [refused]
          exact Nat.lt_irrefl 0
        exact ⟨_, _, _, _, returns, alsoReturns,
          .together (fun _ => never_ending ended nofun) rfl, rfl, rfl, rfl, rfl⟩
  | succ count =>
      have together := earlier count (Nat.lt_succ_self count)
      rcases together_succ prepared together with ⟨value, parts⟩ | both | isOver
      · rcases parts.returns prepared together with ⟨final, last, returns, alsoReturns, differ⟩
        exact ⟨_, _, _, _, returns, alsoReturns, .parted parts.ends together.runs parts.runs,
          differ⟩
      · exact absurd both apart
      · rcases isOver.returns together with
          ⟨ended, outcome, final, result, last, returns, alsoReturns, same, differ⟩
        refine ⟨outcome, final, result, last, returns, alsoReturns, .together ?_ same, differ⟩
        intro isExpression
        refine never_ending ended fun moment early value ending => ?_
        have meanwhile := earlier moment early
        rcases meanwhile.parts_of_ending prepared isExpression ending with ⟨value, parts⟩
        rcases parts.step with ⟨⟨frame, -, dropped, -⟩, -, -, after, left, -⟩
        rcases Nat.lt_or_eq_of_le (Nat.le_of_lt_succ early) with before | rfl
        · rcases (earlier (moment + 1) (Nat.succ_lt_succ before)).masks with ⟨plain, -, masks, -⟩
          have lasts := lasts_of_masks masks
          rw [show stage.evals.machineAt stage.environment (moment + 1) = _ from left] at lasts
          exact Nat.lt_irrefl 0 lasts
        · refine ended ?_
          show 0 < List.length _
          rw [show (stage.runs.machineAt stage.environment (moment + 1)).subRuns = _ from
            dropped.subRuns]
          exact Nat.one_pos

end Stage

end ScriptEngine
