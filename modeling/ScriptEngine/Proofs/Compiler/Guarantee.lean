import ScriptEngine.Compilation.Variable
import ScriptEngine.Proofs.Code.Encoding

/-!
# What a step of the compilation guarantees

`Compiler.Guarantees step state onSuccess onError` says what holds after a step
that starts in a state: `onSuccess` for the value and the state of a success,
`onError` for the problem of an error.  A sequence of steps is treated from its
beginning on; there is one rule for every primitive step, so that the routines
of the compiler are never unfolded down to states and pairs.

Tokens that have not been read are seen as a list of token kinds,
`Compilation.upcoming`.
-/

namespace ScriptEngine

namespace Compilation

/-- The kinds of the tokens that have not been read. -/
def upcoming (state : Compilation) : List TokenKind :=
  (state.tokens.toList.drop state.position).map Token.kind

/-- The state with another chunk. -/
def withChunk (state : Compilation) (chunk : Chunk) : Compilation :=
  { state with draft := { state.draft with chunk } }

/-- The state with another scope. -/
def withScope (state : Compilation) (scope : Scope) : Compilation :=
  { state with draft := { state.draft with scope } }

/-- The state with another table of module variables. -/
def withTable (state : Compilation) (table : Module) : Compilation :=
  { state with table }

/-- The bytes that the present function has so far. -/
def written (state : Compilation) : List UInt8 :=
  state.draft.chunk.code.toList

@[simp]
theorem upcoming_withChunk (state : Compilation) (chunk : Chunk) :
    (state.withChunk chunk).upcoming = state.upcoming := rfl

@[simp]
theorem upcoming_withScope (state : Compilation) (scope : Scope) :
    (state.withScope scope).upcoming = state.upcoming := rfl

@[simp]
theorem upcoming_withTable (state : Compilation) (table : Module) :
    (state.withTable table).upcoming = state.upcoming := rfl

theorem length_upcoming (state : Compilation) :
    state.upcoming.length = state.remaining := by
  simp [upcoming, remaining]

theorem kind_current (state : Compilation) :
    state.current.kind = state.upcoming.headD .endOfInput := by
  rw [upcoming, List.headD_eq_head?_getD, List.head?_map, List.head?_drop, current,
    Array.getD_eq_getD_getElem?, Array.getElem?_toList]
  cases state.tokens[state.position]? <;> rfl

/-- At the end of the input reading changes nothing. -/
theorem advance_of_isEnd {state : Compilation} (ended : state.current.kind.isEnd) :
    state.advance = state := by
  simp [advance, ended]

theorem isEnd_of_upcoming_nil {state : Compilation} (nothing : state.upcoming = []) :
    state.current.kind.isEnd := by
  simp [kind_current, nothing, TokenKind.isEnd]

/-- Unless the input has ended, the next token is the first of the upcoming ones. -/
theorem upcoming_eq_cons {state : Compilation} (unfinished : ¬ state.current.kind.isEnd) :
    state.upcoming = state.current.kind :: state.advance.upcoming := by
  have inside : state.position < state.tokens.toList.length := by
    apply Nat.lt_of_not_le
    intro outside
    apply unfinished
    apply isEnd_of_upcoming_nil
    simp [upcoming, List.drop_eq_nil_of_le outside]
  have current : state.current = state.tokens.toList.get ⟨state.position, inside⟩ := by
    simp [Compilation.current, Array.getD_eq_getD_getElem?, Array.length_toList ▸ inside]
  rw [advance, if_neg unfinished, current]
  simp [upcoming, List.drop_eq_getElem_cons inside]

theorem upcoming_advance
    {state : Compilation}
    {kind : TokenKind}
    {rest : List TokenKind}
    (unfinished : ¬ kind.isEnd)
    (upcoming : state.upcoming = kind :: rest) :
    state.advance.upcoming = rest := by
  have kindCurrent : state.current.kind = kind := by simp [kind_current, upcoming]
  have split : state.upcoming = state.current.kind :: state.advance.upcoming :=
    upcoming_eq_cons (by rwa [kindCurrent])
  rw [upcoming] at split
  exact (List.cons.inj split).2.symm

/-- A token that has just been read is the previous one. -/
theorem previous_advance {state : Compilation} (unfinished : ¬ state.current.kind.isEnd) :
    state.advance.previous = state.current := by
  rw [advance, if_neg unfinished]
  rfl

end Compilation

namespace Compiler

/-! ## Sequences -/

section Sequences

variable {first : Compiler α} {next : α → Compiler β} {state between after : Compilation}

theorem bind_of_ok
    {result : α}
    (succeeds : first state = (.ok result, between)) :
    (first >>= next) state = next result between := by
  show StateT.bind first (ExceptT.bindCont next) state = _
  unfold StateT.bind
  rw [succeeds]
  rfl

/-- A sequence that succeeds has succeeded in both steps. -/
theorem exists_of_bind_ok
    {value : β}
    (succeeds : (first >>= next) state = (.ok value, after)) :
    ∃ result between,
      first state = (.ok result, between) ∧ next result between = (.ok value, after) := by
  change StateT.bind first (ExceptT.bindCont next) state = _ at succeeds
  unfold StateT.bind at succeeds
  rcases outcome : first state with ⟨error | result, between⟩
  · rw [outcome] at succeeds
    cases succeeds
  · rw [outcome] at succeeds
    exact ⟨result, between, rfl, succeeds⟩

theorem matchKind_apply (test : TokenKind → Bool) (state : Compilation) :
    matchKind test state =
      if test state.current.kind then (.ok true, state.advance) else (.ok false, state) := by
  unfold matchKind
  rw [bind_of_ok (rfl : look _ state = (.ok (test state.current.kind), state))]
  split <;> rfl

/-- A token that is not there is not read. -/
theorem bind_matchKind_of_not
    {test : TokenKind → Bool}
    {next : Bool → Compiler β}
    (fails : test state.current.kind = false) :
    (matchKind test >>= next) state = next false state := by
  apply bind_of_ok
  rw [matchKind_apply, fails]
  rfl

theorem matchMark_of_isMark
    {mark : Punctuation}
    (isMark : state.current.kind.isMark mark = true) :
    matchMark mark state = (.ok true, state.advance) := by
  unfold matchMark
  rw [matchKind_apply, if_pos isMark]

theorem matchMark_of_not_isMark
    {mark : Punctuation}
    (other : ¬ state.current.kind.isMark mark = true) :
    matchMark mark state = (.ok false, state) := by
  unfold matchMark
  rw [matchKind_apply, if_neg other]

/-- A mark that had to be there has been read. -/
theorem consume_eq_ok
    {mark : Punctuation}
    {what : String}
    (succeeds : consume mark what state = (.ok (), after)) :
    state.current.kind.isMark mark = true ∧ after = state.advance := by
  rcases exists_of_bind_ok succeeds with ⟨found, between, matched, rest⟩
  change matchKind _ state = _ at matched
  rw [matchKind_apply] at matched
  split at matched
  · rename_i present
    cases matched
    cases rest
    exact ⟨present, rfl⟩
  · cases matched
    cases rest

/-- An identifier that had to be there has been read. -/
theorem consumeIdentifier_eq_ok
    {what name : String}
    (succeeds : consumeIdentifier what state = (.ok name, after)) :
    state.current.kind = .identifier name ∧ after = state.advance := by
  rcases exists_of_bind_ok succeeds with ⟨_, _, looks, reads⟩
  cases looks
  beta_reduce at reads
  cases kind : state.current.kind with
  | identifier content =>
      rw [kind] at reads
      cases reads
      exact ⟨rfl, rfl⟩
  | _ =>
      rw [kind] at reads
      cases reads

theorem look_bind
    (view : Compilation → α)
    (next : α → Compiler β)
    (state : Compilation) :
    (look view >>= next) state = next (view state) state := rfl

/-- What a change of the code that can fail does when it succeeds. -/
theorem limitedChunk_eq_ok
    {step : Chunk → Except ChunkLimit α × Chunk}
    {value : α}
    (succeeds : limitedChunk step state = (.ok value, after)) :
    ∃ chunk, step state.draft.chunk = (.ok value, chunk) ∧ after = state.withChunk chunk := by
  unfold limitedChunk at succeeds
  rcases exists_of_bind_ok succeeds with ⟨result, between, first, second⟩
  generalize outcome : step state.draft.chunk = given at first
  cases first
  rcases given with ⟨limit | found, chunk⟩
  · cases second
  · cases second
    exact ⟨chunk, rfl, rfl⟩

end Sequences

/-! ## Guarantees -/

/-- What holds after a step that starts in a state. -/
def Guarantees
    (step : Compiler α)
    (state : Compilation)
    (onSuccess : α → Compilation → Prop)
    (onError : CompileProblem → Prop) :
    Prop :=
  match step state with
  | (.ok value, after) => onSuccess value after
  | (.error error, _) => onError error.problem

section Rules

variable {state : Compilation} {onError : CompileProblem → Prop}

theorem Guarantees.of_ok
    {step : Compiler α}
    {onSuccess : α → Compilation → Prop}
    {value : α}
    {after : Compilation}
    (guarantee : Guarantees step state onSuccess onError)
    (succeeded : step state = (.ok value, after)) :
    onSuccess value after := by
  unfold Guarantees at guarantee
  rwa [succeeded] at guarantee

theorem Guarantees.mono
    {step : Compiler α}
    {onSuccess weaker : α → Compilation → Prop}
    {weakerError : CompileProblem → Prop}
    (guarantee : Guarantees step state onSuccess onError)
    (success : ∀ value after, onSuccess value after → weaker value after)
    (error : ∀ problem, onError problem → weakerError problem) :
    Guarantees step state weaker weakerError := by
  unfold Guarantees at guarantee ⊢
  split at guarantee
  · exact success _ _ guarantee
  · exact error _ guarantee

/-- Two guarantees hold together. -/
theorem Guarantees.and
    {step : Compiler α}
    {onSuccess others : α → Compilation → Prop}
    (guarantee : Guarantees step state onSuccess onError)
    (other : Guarantees step state others (fun _ => True)) :
    Guarantees step state (fun value after => onSuccess value after ∧ others value after)
      onError := by
  unfold Guarantees at guarantee other ⊢
  split
  · rename_i succeeded
    rw [succeeded] at guarantee other
    exact ⟨guarantee, other⟩
  · rename_i failed
    rw [failed] at guarantee
    exact guarantee

theorem guarantees_nothing (step : Compiler α) (state : Compilation) :
    Guarantees step state (fun _ _ => True) (fun _ => True) := by
  unfold Guarantees
  split <;> trivial

/-- A sequence guarantees what its second step does after its first. -/
theorem Guarantees.bind
    {first : Compiler α}
    {next : α → Compiler β}
    {onSuccess : β → Compilation → Prop}
    (guarantee :
      Guarantees first state
        (fun value after => Guarantees (next value) after onSuccess onError) onError) :
    Guarantees (first >>= next) state onSuccess onError := by
  unfold Guarantees at guarantee ⊢
  show
    match StateT.bind first (ExceptT.bindCont next) state with
    | (.ok value, after) => onSuccess value after
    | (.error error, _) => onError error.problem
  unfold StateT.bind
  rcases outcome : first state with ⟨error | value, after⟩
  · rw [outcome] at guarantee
    exact guarantee
  · rw [outcome] at guarantee
    exact guarantee

theorem Guarantees.pure
    {onSuccess : α → Compilation → Prop}
    {value : α}
    (holds : onSuccess value state) :
    Guarantees (pure value) state onSuccess onError :=
  holds

theorem guarantees_look
    {view : Compilation → α}
    {onSuccess : α → Compilation → Prop}
    (holds : onSuccess (view state) state) :
    Guarantees (look view) state onSuccess onError :=
  holds

theorem guarantees_change
    {step : Compilation → Compilation}
    {onSuccess : Unit → Compilation → Prop}
    (holds : onSuccess () (step state)) :
    Guarantees (change step) state onSuccess onError :=
  holds

theorem guarantees_fail
    {problem : CompileProblem}
    {onSuccess : α → Compilation → Prop}
    (holds : onError problem) :
    Guarantees (fail problem) state onSuccess onError :=
  holds

theorem guarantees_failAtCurrent
    {problem : CompileProblem}
    {onSuccess : α → Compilation → Prop}
    (holds : onError problem) :
    Guarantees (failAtCurrent problem) state onSuccess onError :=
  holds

/-! ## Tokens -/

theorem guarantees_advance
    {onSuccess : Unit → Compilation → Prop}
    (holds : onSuccess () state.advance) :
    Guarantees advance state onSuccess onError :=
  holds

theorem guarantees_matchKind
    {test : TokenKind → Bool}
    {onSuccess : Bool → Compilation → Prop}
    (present : test state.current.kind → onSuccess true state.advance)
    (absent : ¬ test state.current.kind → onSuccess false state) :
    Guarantees (matchKind test) state onSuccess onError := by
  refine .bind (guarantees_look ?_)
  by_cases found : test state.current.kind
  · rw [if_pos found]
    exact present found
  · rw [if_neg found]
    exact absent found

theorem guarantees_consume
    {mark : Punctuation}
    {what : String}
    {onSuccess : Unit → Compilation → Prop}
    (present : state.current.kind.isMark mark → onSuccess () state.advance)
    (absent : ¬ state.current.kind.isMark mark → onError (.expected what)) :
    Guarantees (consume mark what) state onSuccess onError :=
  .bind (guarantees_matchKind present absent)

theorem guarantees_consumeIdentifier
    {what : String}
    {onSuccess : String → Compilation → Prop}
    (present : ∀ name, state.current.kind = .identifier name → onSuccess name state.advance)
    (absent : (∀ name, state.current.kind ≠ .identifier name) → onError (.expected what)) :
    Guarantees (consumeIdentifier what) state onSuccess onError := by
  refine .bind (guarantees_look ?_)
  split
  · rename_i name equality
    exact .bind (guarantees_advance (present name equality))
  · rename_i other
    exact guarantees_failAtCurrent (absent other)

/--
A repeated step keeps an invariant that every round establishes anew; the last
round establishes the result.
-/
theorem guarantees_repeatAtMost
    {round : α → Compiler (Bool × α)}
    {bound : Nat}
    {start : α}
    {onSuccess : α → Compilation → Prop}
    (invariant : Nat → α → Compilation → Prop)
    (holds : invariant bound start state)
    (exhausted : ∀ value after, invariant 0 value after → onSuccess value after)
    (step :
      ∀ bound value before,
        invariant (bound + 1) value before →
          Guarantees (round value) before
            (fun result after =>
              if result.1 then invariant bound result.2 after else onSuccess result.2 after)
            onError) :
    Guarantees (repeatAtMost round bound start) state onSuccess onError := by
  induction bound generalizing start state with
  | zero => exact exhausted start state holds
  | succ bound induction =>
      refine .bind ((step bound start state holds).mono ?_ (fun _ error => error))
      rintro ⟨goesOn, result⟩ after outcome
      cases goesOn with
      | false => exact outcome
      | true => exact induction outcome

theorem guarantees_repeatWhile
    {round : α → Compiler (Bool × α)}
    {start : α}
    {onSuccess : α → Compilation → Prop}
    (invariant : Nat → α → Compilation → Prop)
    (holds : invariant (state.upcoming.length + 1) start state)
    (exhausted : ∀ value after, invariant 0 value after → onSuccess value after)
    (step :
      ∀ bound value before,
        invariant (bound + 1) value before →
          Guarantees (round value) before
            (fun result after =>
              if result.1 then invariant bound result.2 after else onSuccess result.2 after)
            onError) :
    Guarantees (repeatWhile round start) state onSuccess onError := by
  rw [Compilation.length_upcoming] at holds
  exact guarantees_repeatAtMost invariant holds exhausted step

/-- A repeated step keeps what every round keeps, whether it is the last one or not. -/
theorem guarantees_repeatInvariant
    {round : α → Compiler (Bool × α)}
    {start : α}
    (invariant : α → Compilation → Prop)
    (holds : invariant start state)
    (step :
      ∀ value before,
        invariant value before →
          Guarantees (round value) before (fun result after => invariant result.2 after) onError) :
    Guarantees (repeatWhile round start) state invariant onError := by
  refine guarantees_repeatWhile (fun _ => invariant) holds (fun _ _ => id) ?_
  intro bound value before kept
  refine (step value before kept).mono (fun result after keptAfter => ?_) fun _ => id
  split
  · exact keptAfter
  · exact keptAfter

/-! ## Code -/

theorem guarantees_limitedChunk
    {step : Chunk → Except ChunkLimit α × Chunk}
    {onSuccess : α → Compilation → Prop}
    (success :
      ∀ value chunk,
        step state.draft.chunk = (.ok value, chunk) → onSuccess value (state.withChunk chunk))
    (error : ∀ limit, onError (.limit limit)) :
    Guarantees (limitedChunk step) state onSuccess onError := by
  refine .bind ?_
  unfold Guarantees
  simp only
  rcases outcome : step state.draft.chunk with ⟨limit | value, chunk⟩
  · exact error limit
  · exact success value chunk outcome

/-- An open jump is appended; its handle remembers the place. -/
theorem guarantees_emitJump
    (jump : ForwardJump)
    {onSuccess : PendingJump → Compilation → Prop}
    (holds :
      ∀ line,
        onSuccess { operand := state.written.length + 1 }
          (state.withChunk (state.draft.chunk.emit (jump.past Chunk.openDistance) line))) :
    Guarantees (emitJump jump.opcode) state onSuccess onError := by
  refine .bind (guarantees_look ?_)
  unfold Guarantees
  simp only [Chunk.emitJump_eq]
  have handle := holds state.previous.line
  rw [Compilation.written, Array.length_toList] at handle
  exact handle

/-- Closing a jump makes it lead to the present end of the code. -/
theorem guarantees_patchJump
    {before skipped : List UInt8}
    {jump : ForwardJump}
    {onSuccess : Unit → Compilation → Prop}
    (written :
      state.written = before ++ (jump.past Chunk.openDistance).bytes ++ skipped)
    (success :
      ∀ chunk : Chunk,
        skipped.length ≤ Chunk.maxDistance →
        chunk.pool = state.draft.chunk.pool →
        chunk.code.toList =
          before ++ (jump.past (UInt16.ofNat skipped.length)).bytes ++ skipped →
        onSuccess () (state.withChunk chunk))
    (error : ∀ limit, onError (.limit limit)) :
    Guarantees (patchJump { operand := before.length + 1 }) state onSuccess onError := by
  refine guarantees_limitedChunk ?_ error
  intro value chunk patched
  obtain ⟨near, pool, code⟩ := Chunk.patchJump_ok written patched
  exact success chunk near pool code

/-- A backward jump is appended if its start is near enough. -/
theorem guarantees_emitLoop
    {start : Nat}
    {onSuccess : Unit → Compilation → Prop}
    (earlier : start ≤ state.written.length)
    (success :
      ∀ chunk : Chunk,
        state.written.length + 3 - start ≤ Chunk.maxDistance →
        chunk.pool = state.draft.chunk.pool →
        chunk.code.toList =
          state.written ++
            (Instruction.loop (UInt16.ofNat (state.written.length + 3 - start))).bytes →
        onSuccess () (state.withChunk chunk))
    (error : ∀ limit, onError (.limit limit)) :
    Guarantees (emitLoop start) state onSuccess onError := by
  refine .bind (guarantees_look (guarantees_limitedChunk ?_ error))
  intro value chunk emitted
  rw [Compilation.written, Array.length_toList] at earlier success
  obtain ⟨near, pool, code⟩ := Chunk.emitLoop_ok earlier emitted
  exact success chunk near pool code

theorem guarantees_emitOn
    {line : Nat}
    {instruction : Instruction}
    {onSuccess : Unit → Compilation → Prop}
    (holds :
      onSuccess () (state.withChunk (state.draft.chunk.emit instruction line))) :
    Guarantees (emitOn line instruction) state onSuccess onError :=
  holds

theorem guarantees_emit
    {instruction : Instruction}
    {onSuccess : Unit → Compilation → Prop}
    (holds :
      ∀ line, onSuccess () (state.withChunk (state.draft.chunk.emit instruction line))) :
    Guarantees (emit instruction) state onSuccess onError :=
  holds state.previous.line

end Rules

end Compiler

end ScriptEngine
