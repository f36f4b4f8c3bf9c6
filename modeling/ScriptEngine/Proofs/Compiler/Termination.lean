import ScriptEngine.Proofs.Compiler.FollowingRoutines

/-!
# Compilation ends on every input

Whatever the tokens are, the routines of the compiler end although nothing bounds their loops
and their recursion.  On the way the place in the text never moves back and never behind the
end of the input, and the counter of nested routines stays within its limit and is restored
by every one of them (`Observed.compilation_ends`).
-/

set_option synthInstance.maxSize 100000

namespace ScriptEngine

open Compiler

namespace Session

/--
The counters of the past are within their bounds, the places in the text are in order, and
nested routines have restored the counter.
-/
structure Orderly (session : Session) : Prop where
  depth : session.depth ≤ maxNesting
  depths : ∀ moment ∈ session.moments, moment.depth ≤ maxNesting
  positions : ∀ moment ∈ session.moments, moment.position ≤ session.state.position
  forward : session.moments.Pairwise fun later earlier => earlier.position ≤ later.position
  restored : ∀ call ∈ session.returns, call.2 = call.1

theorem Orderly.start (state : Compilation) : (start state).Orderly where
  depth := Nat.zero_le _
  depths := by
    rintro _ (_ | ⟨_, ⟨⟩⟩)
    exact Nat.zero_le _
  positions := by
    rintro _ (_ | ⟨_, ⟨⟩⟩)
    exact Nat.le_refl _
  forward := List.pairwise_singleton _ _
  restored := nofun

theorem Orderly.mark {session : Session} (orderly : session.Orderly) : session.mark.Orderly where
  depth := orderly.depth
  depths := by
    rintro moment (_ | ⟨_, old⟩)
    · exact orderly.depth
    · exact orderly.depths moment old
  positions := by
    rintro moment (_ | ⟨_, old⟩)
    · exact Nat.le_refl _
    · exact orderly.positions moment old
  forward := List.pairwise_cons.mpr ⟨orderly.positions, orderly.forward⟩
  restored := orderly.restored

theorem Orderly.reach
    {session : Session}
    (orderly : session.Orderly)
    {state : Compilation}
    (forward : session.state.position ≤ state.position) :
    (session.reach state).Orderly :=
  mark
    { depth := orderly.depth
      depths := orderly.depths
      positions := fun moment member => Nat.le_trans (orderly.positions moment member) forward
      forward := orderly.forward
      restored := orderly.restored }

/-- Something happens to names. -/
theorem Orderly.withEvents
    {session : Session}
    (orderly : session.Orderly)
    (events : List NameEvent) :
    { session with events }.Orderly :=
  ⟨orderly.depth, orderly.depths, orderly.positions, orderly.forward, orderly.restored⟩

theorem Orderly.deeper
    {session : Session}
    (orderly : session.Orderly)
    (room : session.depth < maxNesting) :
    session.deeper.Orderly :=
  mark ⟨room, orderly.depths, orderly.positions, orderly.forward, orderly.restored⟩

theorem Orderly.shallower
    {session : Session}
    (orderly : session.Orderly)
    {former : Nat}
    (depth : session.depth = former + 1) :
    (session.shallower former).Orderly := by
  refine mark ⟨?_, orderly.depths, orderly.positions, orderly.forward, ?_⟩
  · exact Nat.le_trans (Nat.sub_le _ _) orderly.depth
  · rintro call (_ | ⟨_, old⟩)
    · show session.depth - 1 = former
      rw [depth]
      rfl
    · exact orderly.restored call old

/-- A part of a session goes on in the text and restores the counter. -/
structure Proceeds (before : Session) (_problem : Option CompileProblem)
    (after : Session) : Prop where
  onward : before.state.Onward after.state
  depth : after.depth = before.depth
  orderly : before.Orderly → after.Orderly

namespace Proceeds

variable {before between after : Session} {problem : Option CompileProblem}

theorem andThen
    (first : Proceeds before none between)
    (second : Proceeds between problem after) :
    Proceeds before problem after where
  onward := first.onward.trans second.onward
  depth := second.depth.trans first.depth
  orderly := second.orderly ∘ first.orderly

theorem reach
    {session : Session}
    {state : Compilation}
    (onward : session.state.Onward state) :
    Proceeds session problem (session.reach state) :=
  ⟨onward, rfl, fun orderly => orderly.reach onward.forward⟩

/-- Something happens to a name. -/
theorem note
    (session : Session)
    (event : NameEvent)
    (step : Compiler α)
    [paces : Has (Paces 0 0) step] :
    Proceeds session problem (session.note event (step session.state).2) :=
  have onward := Compilation.Onward.of_paces (paces.has session.state)
  ⟨onward, rfl, fun orderly => (orderly.withEvents _).reach onward.forward⟩

/-- Something may have happened before, and something may happen afterwards unless that failed. -/
theorem around
    {session : Session}
    (start : Proceeds session none before)
    (inside : Proceeds before problem after)
    (last : Session → Session)
    (finish : ∀ session, Proceeds session none (last session)) :
    Proceeds session problem (if problem.isSome then after else last after) := by
  cases problem with
  | none => exact (start.andThen inside).andThen (finish after)
  | some problem => exact start.andThen inside

end Proceeds

instance proceeds_steps : Steps Proceeds where
  nothing session := ⟨.refl _, rfl, id⟩
  andThen := .andThen
  observe _ _ _ remains := .reach remains.toOnward
  nested {session after problem} room depth inside :=
    { onward := inside.onward
      depth := by
        show after.depth - 1 = session.depth
        rw [depth]
        rfl
      orderly := fun orderly => (inside.orderly (orderly.deeper room)).shallower depth }
  resolve session name := .note _ _ (Compiler.resolve name)

/-- All routines go on in the text in the same way. -/
def proceeding : Relations where
  steady := Proceeds
  passes := Proceeds

instance proceeding_passage : Passage proceeding where
  steadySteps := proceeds_steps
  passesSteps := proceeds_steps
  weaken := id
  declareInModule _ name _ := .note _ _ (moduleSlot name)
  refuse _ name _ _ := .note _ _ (declareLocal name)
  declare name _ inside :=
    .around (.note _ _ (declareLocal name)) inside (·.completing name) fun session =>
      .note session _ (changeScope Scope.markInitialized)
  block inside :=
    .around (.note _ _ enterBlock) inside leaving fun session => .note session _ leaveBlock
  function name role inside :=
    .around (.note _ _ (do beginFunction name role; enterBlock)) inside finishing fun session =>
      .note session _ finishFunction

end Session

namespace Observed

/--
Whatever the tokens of a text are, if the last one is the end of the input, then both modes
of compilation end with the outcome of the compiler, as soon as enough rounds and calls are
granted.  Up to then the place in the text has never moved back or behind a token that ends
the input, the counter has not exceeded its limit, and every nested routine, whether it
succeeded or failed, has restored the counter.  Code and operands end from everywhere.
-/
theorem compilation_ends
    (body : Array Token)
    (last : Token)
    (ends : last.kind = .endOfInput)
    (mode : CompileMode)
    (table : Module)
    (home firstFunction calls rounds : Nat)
    (enoughCalls : maxNesting < calls)
    (enoughRounds : (body.push last).size < rounds) :
    (∃ outcome after,
      script calls mode rounds (.start (start (body.push last) table home firstFunction)) =
          some (outcome, after) ∧
        Compiler.script maxNesting mode (start (body.push last) table home firstFunction) =
          (outcome, after.state) ∧
        after.depth = 0 ∧
        (∀ moment ∈ after.moments,
          moment.depth ≤ maxNesting ∧ moment.position ≤ body.size ∧
            ∀ place (inside : place < (body.push last).size),
              (body.push last)[place].kind.isEnd → moment.position ≤ place) ∧
        (after.moments.Pairwise fun later earlier => earlier.position ≤ later.position) ∧
        ∀ call ∈ after.returns, call.2 = call.1) ∧
      ∀ session : Session,
        session.state.remaining < rounds →
          (∀ least, ∃ outcome after,
            expressionAfter calls least rounds session = some (outcome, after) ∧
              after.depth = session.depth) ∧
          ∀ form, ∃ outcome after,
            codeAfter calls form rounds session = some (outcome, after) ∧
              after.depth = session.depth := by
  have enough : (start (body.push last) table home firstFunction).remaining < rounds :=
    Nat.lt_of_le_of_lt (Nat.sub_le _ _) enoughRounds
  refine ⟨?_, fun session enoughRounds => ?_⟩
  · rcases script_follows Session.proceeding mode (rfl : (Session.start _).depth = 0) enoughCalls
        enough with
      ⟨outcome, written, after, runs, compiles, proceeds, -, isAfter⟩
    have finish (session : Session) : session.Proceeds none session.ending :=
      .reach (.of_paces ((inferInstance : Has (Paces 0 0) finishFunction).has session.state))
    have whole := Session.Proceeds.around (Session.proceeds_steps.nothing _) proceeds _ finish
    rw [← isAfter] at whole
    have orderly := whole.orderly (.start _)
    have behind (place : Nat) (inside : place < (body.push last).size)
        (isEnd : (body.push last)[place].kind.isEnd) : after.state.position ≤ place := by
      refine whole.onward.inside place ?_ (Nat.zero_le _)
      show ((body.push last).getD place default).kind.isEnd
      rw [Array.getD_eq_getD_getElem?, Array.getElem?_eq_getElem inside]
      exact isEnd
    have atEnd : after.state.position ≤ body.size := by
      apply behind
      rw [Array.getElem_push_eq, ends]
      rfl
    refine ⟨outcome, after, runs, compiles, whole.depth, fun moment member => ?_, orderly.forward,
      orderly.restored⟩
    have early := orderly.positions moment member
    exact ⟨orderly.depths moment member, Nat.le_trans early atEnd,
      fun place inside isEnd => Nat.le_trans early (behind place inside isEnd)⟩
  · have within : maxNesting - session.depth < calls :=
      Nat.lt_of_le_of_lt (Nat.sub_le _ _) enoughCalls
    refine ⟨fun least => ?_, fun form => ?_⟩
    · have follows : Follows Session.Proceeds session.depth (expressionAfter calls least) _ :=
        .expressionAfter calls within least
      rcases follows.follows session rfl rounds enoughRounds with ⟨after, runs, -, depth, -⟩
      exact ⟨_, after, runs, depth⟩
    · have follows :
          Follows Session.Proceeds session.depth (codeAfter calls form)
            (codeWithin (maxNesting - session.depth) form) := by
        cases form with
        | statement =>
            show Follows Session.proceeding.steady _ _ _
            exact (Follows.codeAfter calls within).1
        | declaration =>
            show Follows Session.proceeding.passes _ _ _
            exact (Follows.codeAfter calls within).2
      rcases follows.follows session rfl rounds enoughRounds with ⟨after, runs, -, depth, -⟩
      exact ⟨_, after, runs, depth⟩

/--
A text that is cut off behind an opening mark is refused for the depth of its expression, and
all the routines that were open then have restored the counter.
-/
theorem cutOffTokens_restores :
    cutOffTokens.back?.map (·.kind) = some .endOfInput ∧
      maxNesting < 257 ∧
      cutOffTokens.size < 4 ∧
      ∃ error after,
        script 257 .run 4 (.start (start cutOffTokens { name := "main" } 0 0)) =
            some (.error error, after) ∧
          error.problem = .expressionTooDeep ∧
          after.depth = 0 := by
  refine ⟨rfl, by decide, by decide, ?_⟩
  rcases (compilation_ends cutOffTokens.pop ⟨.endOfInput, 7, 7, 1, ""⟩ rfl .run { name := "main" }
      0 0 257 4 (by decide) (by decide)).1 with
    ⟨outcome, after, runs, compiles, depth, -⟩
  rcases script_cutOffTokens .run { name := "main" } 0 0 with ⟨error, final, refused, isDeep⟩
  cases compiles.symm.trans refused
  exact ⟨error, after, runs, isDeep, depth⟩

end Observed

end ScriptEngine
