import ScriptEngine.Proofs.Code.LineTable
import ScriptEngine.Proofs.Compiler.Record
import ScriptEngine.Proofs.Token.Spacing

/-!
# Lines of compiled code ascend

An instruction comes from the line of the token that was read last, and tokens are read in
the order of the text.  So the lines of a function ascend while it is written, and when the
function around it goes on, its lines do too (`Compiler.KeepsLineOrder`).  In evaluation mode
a value is popped behind the statement it comes from, on a line that has been noted; nothing
has been written since (`Compiler.PendingInOrder`).

The main theorem says what follows for the line tables of all functions of a text
(`line_tables_ascend`).
-/

set_option synthInstance.maxSize 100000

namespace ScriptEngine

/-! ## Lines of tokens -/

theorem lineAfter_append (before more : List Char) :
    lineAfter before ≤ lineAfter (before ++ more) := by
  unfold lineAfter
  rw [List.count_append]
  omega

/-- Tokens come in the order of their lines, which are not before the line where they begin. -/
theorem Segmented.lines
    {before characters : List Char}
    {tokens : List Token}
    (segmented : Segmented before characters (tokens.map .ok)) :
    (tokens.map Token.line).Pairwise (· ≤ ·) ∧
      ∀ token ∈ tokens, lineAfter before ≤ token.line := by
  generalize found : tokens.map Except.ok = answers at segmented
  induction segmented generalizing tokens with
  | ended blank =>
      rcases List.map_eq_singleton_iff.mp found with ⟨token, rfl, same⟩
      cases same
      refine ⟨List.pairwise_singleton _ _, ?_⟩
      rintro token (_ | ⟨_, ⟨⟩⟩)
      exact lineAfter_append _ _
  | @piece before gap taken rest answer answers blank nonempty answered segmented induction =>
      rcases List.map_eq_cons_iff.mp found with ⟨token, tokens, rfl, rfl, rfl⟩
      rcases induction rfl with ⟨ordered, behind⟩
      cases answered with
      | token spells =>
          refine ⟨List.pairwise_cons.mpr ⟨?_, ordered⟩, List.forall_mem_cons.mpr ⟨?_, ?_⟩⟩
          · intro line member
            rcases List.mem_map.mp member with ⟨token, isToken, rfl⟩
            exact Nat.le_trans (lineAfter_append _ _) (behind token isToken)
          · exact lineAfter_append _ _
          · intro token isToken
            rw [List.append_assoc] at behind
            exact Nat.le_trans (lineAfter_append _ _) (behind token isToken)

/-- The tokens of a text are in the order of their lines. -/
theorem lines_of_scan
    {source : String}
    {tokens : Array Token}
    (scanned : Token.scan source = .ok tokens) :
    (tokens.toList.map Token.line).Pairwise (· ≤ ·) := by
  rcases Segmented.exists_of_between [] source.toList with ⟨answers, segmented, reads⟩
  have scans : Token.scan source = _ := reads.scanFrom #[]
  rw [scanned] at scans
  rcases found : answers.mapM id with error | all
  · rw [found] at scans
    cases scans
  · rw [found] at scans
    cases scans
    cases eq_map_ok_of_mapM found
    exact segmented.lines.1

/-- A line on which a token begins. -/
def IsTokenLine (tokens : Array Token) (line : Nat) : Prop :=
  ∃ token ∈ tokens, token.line = line

/-! ## Compilations in the order of the lines -/

/--
Tokens are in the order of their lines, and the lines of all functions ascend, up to the
line of the token that was read last in those that are not finished.
-/
structure Compilation.InLineOrder (state : Compilation) : Prop where
  sorted : (state.tokens.toList.map Token.line).Pairwise (· ≤ ·)
  begun : 0 < state.tokens.size
  inside : state.position ≤ state.tokens.size
  drafts :
    ∀ draft ∈ state.draft :: state.enclosing,
      draft.chunk.Ascends (IsTokenLine state.tokens) state.previous.line
  finished :
    ∀ function ∈ state.finished,
      ∃ last, function.chunk.Ascends (IsTokenLine state.tokens) last

namespace Compilation.InLineOrder

variable {state : Compilation}

theorem previous_eq (order : state.InLineOrder) :
    ∃ bound : state.position - 1 < state.tokens.size,
      state.previous = state.tokens[state.position - 1] := by
  have begun := order.begun
  have inside := order.inside
  have bound : state.position - 1 < state.tokens.size := by omega
  refine ⟨bound, ?_⟩
  unfold Compilation.previous
  rw [Array.getD_eq_getD_getElem?, Array.getElem?_eq_getElem bound]
  rfl

theorem isTokenLine (order : state.InLineOrder) :
    IsTokenLine state.tokens state.previous.line := by
  rcases order.previous_eq with ⟨bound, same⟩
  rw [same]
  exact ⟨_, Array.getElem_mem bound, rfl⟩

/-- The present function is changed, and its lines still ascend. -/
theorem redraft
    (order : state.InLineOrder)
    {draft : Draft}
    (ascends : draft.chunk.Ascends (IsTokenLine state.tokens) state.previous.line) :
    InLineOrder { state with draft } where
  sorted := order.sorted
  begun := order.begun
  inside := order.inside
  drafts := List.forall_mem_cons.mpr ⟨ascends, (List.forall_mem_cons.mp order.drafts).2⟩
  finished := order.finished

theorem present (order : state.InLineOrder) :
    state.draft.chunk.Ascends (IsTokenLine state.tokens) state.previous.line :=
  order.drafts _ List.mem_cons_self

/-- The present function is finished, and one of those around it may go on. -/
theorem finish
    (order : state.InLineOrder)
    {function : Function}
    (same : function.chunk = state.draft.chunk)
    {draft : Draft}
    {enclosing : List Draft}
    (left : ∀ other ∈ draft :: enclosing, other ∈ state.draft :: state.enclosing) :
    InLineOrder { state with draft, enclosing, finished := state.finished.push function } where
  sorted := order.sorted
  begun := order.begun
  inside := order.inside
  drafts other member := order.drafts other (left other member)
  finished := by
    intro other member
    rcases Array.mem_push.mp member with old | rfl
    · exact order.finished other old
    · exact ⟨_, same ▸ order.present⟩

/-- The token that was read last is not before the one that was read last earlier. -/
theorem advance (order : state.InLineOrder) :
    state.advance.InLineOrder ∧ state.previous.line ≤ state.advance.previous.line := by
  by_cases ended : state.current.kind.isEnd
  · rw [Compilation.advance_of_isEnd ended]
    exact ⟨order, Nat.le_refl _⟩
  · have moved : state.advance = { state with position := state.position + 1 } := by
      rw [Compilation.advance, if_neg ended]
    have unread : state.position < state.tokens.size := by
      apply Nat.lt_of_not_le
      intro beyond
      apply ended
      rw [Compilation.current, Array.getD_eq_getD_getElem?, Array.getElem?_eq_none beyond]
      rfl
    have later : state.previous.line ≤ state.advance.previous.line := by
      rcases order.previous_eq with ⟨bound, same⟩
      have read : state.advance.previous = state.tokens[state.position] := by
        rw [Compilation.previous_advance ended, Compilation.current, Array.getD_eq_getD_getElem?,
          Array.getElem?_eq_getElem unread]
        rfl
      rw [same, read]
      have sorted := order.sorted
      rw [List.pairwise_map] at sorted
      rcases Nat.eq_or_lt_of_le (Nat.sub_le state.position 1) with first | earlier
      · simp only [first]
        exact Nat.le_refl _
      · exact List.pairwise_iff_getElem.mp sorted _ _ bound unread earlier
    refine ⟨?_, later⟩
    rw [moved] at later ⊢
    exact
      { sorted := order.sorted
        begun := order.begun
        inside := unread
        drafts := fun draft member => (order.drafts draft member).mono later
        finished := order.finished }

end Compilation.InLineOrder

namespace Compiler

/-- A step that succeeds keeps the order of the lines. -/
def KeepsLineOrder : Effect :=
  fun before problem after =>
    problem = none → before.InLineOrder → after.InLineOrder ∧ after.tokens = before.tokens

namespace KeepsLineOrder

/-- A step that changes the code of the present function in the order of the lines. -/
theorem of_redraft
    {step : Compiler α}
    (keeps :
      ∀ {state after : Compilation} {value : α},
        step state = (.ok value, after) →
          state.InLineOrder →
            ∃ draft : Draft,
              after = { state with draft } ∧
                draft.chunk.Ascends (IsTokenLine state.tokens) state.previous.line) :
    Has KeepsLineOrder step := by
  constructor
  intro state
  rcases outcome : step state with ⟨error | value, after⟩
  · exact nofun
  · intro _ order
    rcases keeps outcome order with ⟨draft, rfl, ascends⟩
    exact ⟨order.redraft ascends, rfl⟩

instance uniform : KeepsLineOrder.Uniform where
  nothing _ _ order := ⟨order, rfl⟩
  andThen first second isOk order := by
    rcases first rfl order with ⟨between, same⟩
    rcases second isOk between with ⟨after, alsoSame⟩
    exact ⟨after, alsoSame.trans same⟩
  advance state _ order := by
    refine ⟨order.advance.1, ?_⟩
    unfold Compilation.advance
    split <;> rfl
  stop _ _ _ := nofun
  emit state instruction _ order :=
    ⟨order.redraft (order.present.emit (Nat.le_refl _) order.isTokenLine instruction), rfl⟩
  constant state value _ order := ⟨order.redraft (order.present.addConstant _), rfl⟩
  redraft state draft same _ order := ⟨order.redraft (same ▸ order.present), rfl⟩
  declare state name _ order :=
    ⟨⟨order.sorted, order.begun, order.inside, order.drafts, order.finished⟩, rfl⟩

instance stepwise : KeepsLineOrder.Stepwise where
  emitJump operation := by
    refine of_redraft fun {state after value} succeeds order => ?_
    cases succeeds
    exact ⟨_, rfl, order.present.emitJump (Nat.le_refl _) order.isTokenLine operation⟩
  patchJump pending := by
    refine of_redraft fun {state after value} succeeds order => ?_
    rcases limitedChunk_eq_ok succeeds with ⟨chunk, patched, rfl⟩
    refine ⟨_, rfl, ?_⟩
    have kept := order.present.patchJump pending
    rwa [patched] at kept
  emitLoop start := by
    refine of_redraft fun {state after value} succeeds order => ?_
    rcases exists_of_bind_ok succeeds with ⟨line, between, looks, writes⟩
    cases looks
    rcases limitedChunk_eq_ok writes with ⟨chunk, written, rfl⟩
    rcases Chunk.emitLoop_eq written with ⟨distance, rfl⟩
    exact ⟨_, rfl, order.present.emit (Nat.le_refl _) order.isTokenLine _⟩
  beginFunction name role := by
    constructor
    intro state _ order
    exact
      ⟨{ sorted := order.sorted
         begun := order.begun
         inside := order.inside
         drafts := List.forall_mem_cons.mpr ⟨Chunk.ascends_blank _ _, order.drafts⟩
         finished := order.finished }, rfl⟩
  finishFunction := by
    constructor
    rintro ⟨tokens, position, table, home, draft, around, firstFunction, finished⟩
    cases around with
    | nil => exact fun _ order => ⟨order.finish rfl fun _ => id, rfl⟩
    | cons outer rest =>
        exact fun _ order => ⟨order.finish rfl fun _ => List.mem_cons_of_mem _, rfl⟩

instance expressionWithin (levels : Nat) (least : Precedence) :
    Has KeepsLineOrder (expressionWithin levels least) := by
  induction levels generalizing least with
  | zero => exact ⟨fun _ => nofun⟩
  | succ levels induction => exact Has.operators least

instance codeWithin (levels : Nat) (form : CodeForm) :
    Has KeepsLineOrder (codeWithin levels form) := by
  induction levels generalizing form with
  | zero => exact ⟨fun _ => nofun⟩
  | succ levels induction => exact Has.body form

/-- What holds after a step that keeps the order. -/
theorem guarantees
    (step : Compiler α)
    [keeps : Has KeepsLineOrder step]
    {state : Compilation}
    (order : state.InLineOrder) :
    Guarantees step state
      (fun _ after => after.InLineOrder ∧ after.tokens = state.tokens) (fun _ => True) := by
  have kept := keeps.has state
  unfold Guarantees
  rcases outcome : step state with ⟨error | value, after⟩
  · trivial
  · rw [outcome] at kept
    exact kept rfl order

end KeepsLineOrder

/-! ## Whole texts -/

/-- The line that has been noted for a value is that of a token read and of no later code. -/
def PendingInOrder (pending : Option Nat) (state : Compilation) : Prop :=
  ∀ line, pending = some line →
    IsTokenLine state.tokens line ∧
      line ≤ state.previous.line ∧
        state.draft.chunk.Ascends (IsTokenLine state.tokens) line

/-- The tokens of the text are those with which the compilation began. -/
structure TextInOrder (tokens : Array Token) (pending : Option Nat) (state : Compilation) :
    Prop where
  order : state.InLineOrder
  same : state.tokens = tokens
  pending : PendingInOrder pending state

variable {tokens : Array Token} {pending : Option Nat} {state : Compilation}

/-- Behind an expression its line is noted, and nothing is written up to the next statement. -/
theorem evaluatedStatement_inOrder
    (levels : Nat)
    (text : TextInOrder tokens none state) :
    Guarantees (evaluatedStatement levels) state
      (fun line after => TextInOrder tokens (some line) after) (fun _ => True) := by
  refine .bind ((KeepsLineOrder.guarantees _ text.order).mono ?_ fun _ => id)
  rintro _ after ⟨order, same⟩
  refine .bind (guarantees_look ?_)
  have noted : TextInOrder tokens (some after.previous.line) after := by
    refine ⟨order, same.trans text.same, ?_⟩
    rintro line ⟨⟩
    exact ⟨order.isTokenLine, Nat.le_refl _, order.present⟩
  have passes :
      ∀ {last : Compilation} {ends : Bool},
        TextInOrder tokens (some after.previous.line) last →
          Guarantees
            (do
              unless ends do
                failAtCurrent (.expected "';' after expression")
              return after.previous.line)
            last (fun line final => TextInOrder tokens (some line) final) (fun _ => True) := by
    intro last ends read
    split
    · refine .bind (.pure ?_)
      exact read
    · exact .bind (guarantees_failAtCurrent trivial)
  refine .bind (guarantees_matchKind (fun _ => ?_) fun _ => ?_)
  · rcases order.advance with ⟨further, later⟩
    have read : TextInOrder tokens (some after.previous.line) after.advance := by
      have unchanged :
          after.advance.tokens = after.tokens ∧ after.advance.draft = after.draft := by
        unfold Compilation.advance
        split <;> exact ⟨rfl, rfl⟩
      refine ⟨further, unchanged.1.trans noted.same, fun line isLine => ?_⟩
      rcases noted.pending line isLine with ⟨isToken, bound, ascends⟩
      cases isLine
      rw [unchanged.1, unchanged.2]
      exact ⟨isToken, later, ascends⟩
    exact .bind (guarantees_look (passes read))
  · exact .bind (guarantees_look (passes noted))

theorem topLevel_inOrder
    (levels : Nat)
    (mode : CompileMode)
    (text : TextInOrder tokens pending state) :
    Guarantees (topLevel levels mode pending) state
      (fun result after => TextInOrder tokens result.2 after) (fun _ => True) := by
  refine .bind (guarantees_look ?_)
  split
  · exact .pure text
  have goesOn :
      ∀ popped : Compilation,
        TextInOrder tokens none popped →
          Guarantees
            (do
              if mode = .eval ∧ (← atExpressionStatement) then
                return (true, some (← evaluatedStatement levels))
              else
                codeWithin levels .declaration
                return (true, none))
            popped (fun result after => TextInOrder tokens result.2 after) (fun _ => True) := by
    intro popped ready
    refine .bind (guarantees_look ?_)
    split
    · exact .bind ((evaluatedStatement_inOrder levels ready).mono (fun _ _ => id) fun _ => id)
    · refine .bind ((KeepsLineOrder.guarantees _ ready.order).mono ?_ fun _ => id)
      rintro _ after ⟨order, same⟩
      exact .pure ⟨order, same.trans ready.same, nofun⟩
  cases pending with
  | none => exact goesOn state text
  | some line =>
      refine .bind (guarantees_emitOn (goesOn _ ⟨?_, text.same, nofun⟩))
      rcases text.pending line rfl with ⟨isToken, bound, ascends⟩
      exact text.order.redraft ((ascends.emit (Nat.le_refl line) isToken .pop).mono bound)

/-- All functions of a text ascend in its lines. -/
theorem script_inOrder
    (levels : Nat)
    (mode : CompileMode)
    (text : TextInOrder tokens none state) :
    Guarantees (script levels mode) state
      (fun _ after => after.InLineOrder ∧ after.tokens = tokens) (fun _ => True) := by
  have rounds :=
    guarantees_repeatInvariant (fun rest after => TextInOrder tokens rest after) text
      fun _ _ => topLevel_inOrder levels mode
  refine .bind (rounds.mono (fun rest after ready => ?_) fun _ => id)
  have ends :
      ∀ (leave : Compiler Unit) [Has KeepsLineOrder leave],
        Guarantees (do leave; let _ ← finishFunction) after
          (fun _ final => final.InLineOrder ∧ final.tokens = tokens) (fun _ => True) := by
    intro leave _
    refine (KeepsLineOrder.guarantees _ ready.order).mono ?_ fun _ => id
    rintro _ final ⟨order, same⟩
    exact ⟨order, same.trans ready.same⟩
  split
  · exact ends _
  · exact ends _

/-- The functions of a scanned text that compiles ascend in its lines. -/
theorem ascends_of_compileTokens
    {source : String}
    {levels : Nat}
    {mode : CompileMode}
    {table : Module}
    {home firstFunction : Nat}
    {functions : Array Function}
    (scanned : Token.scan source = .ok tokens)
    (success :
      (compileTokens levels mode tokens table home firstFunction).functions = .ok functions)
    {function : Function}
    (member : function ∈ functions) :
    ∃ last, function.chunk.Ascends (IsTokenLine tokens) last := by
  rcases spelled_of_scan scanned with ⟨others, last, isAll, -⟩
  have begins : Compilation.InLineOrder (start tokens table home firstFunction) :=
    { sorted := lines_of_scan scanned
      begun := by simp [start, isAll]
      inside := Nat.zero_le _
      drafts := List.forall_mem_singleton.mpr (Chunk.ascends_blank _ _)
      finished := nofun }
  have ordered := script_inOrder levels mode ⟨begins, rfl, nofun⟩
  unfold compileTokens at success
  split at success
  · rename_i final outcome
    cases success
    rcases ordered.of_ok outcome with ⟨order, (same : final.tokens = tokens)⟩
    rw [← same]
    exact order.finished function member
  · cases success

end Compiler

/--
The line table of every function of a text that compiles increases in offsets and in lines,
and its lines are lines of tokens of the text.  All bytes of an instruction come from the
same line, and what comes later in the code does not come from an earlier line.
-/
theorem line_tables_ascend
    {mode : CompileMode}
    {source : String}
    {table : Module}
    {home firstFunction : Nat}
    {functions : Array Function}
    (success : (compile mode source table home firstFunction).functions = .ok functions) :
    ∃ tokens,
      Token.scan source = .ok tokens ∧
        ∀ function ∈ functions,
          function.chunk.lineStarts.Pairwise
              (fun first second => first.offset < second.offset ∧ first.line < second.line) ∧
            (∀ start ∈ function.chunk.lineStarts, ∃ token ∈ tokens, token.line = start.line) ∧
            (∀ start instruction,
              Boundary function.chunk.code start →
                Instruction.decode function.chunk.code start = .complete instruction →
                  ∀ offset,
                    start ≤ offset →
                      offset < start + instruction.length →
                        function.chunk.lineAt offset = function.chunk.lineAt start) ∧
            ∀ first second,
              first ≤ second → function.chunk.lineAt first ≤ function.chunk.lineAt second := by
  have recorded := recorded_of_compile success
  unfold compile at success
  split at success
  · cases success
  · rename_i tokens scanned
    refine ⟨tokens, scanned, fun function member => ?_⟩
    rcases Compiler.ascends_of_compileTokens scanned success member with ⟨last, ascends⟩
    rcases recorded function member with ⟨history, emits⟩
    refine ⟨?_, ?_, ?_, fun first second => ascends.lineAt_mono⟩
    · exact List.pairwise_reverse.mpr (ascends.offsets.and ascends.lines)
    · exact fun start isStart => ascends.isKnown start (List.mem_reverse.mp isStart)
    · intro start instruction boundary decoded offset begun inside
      rcases emits.recorded boundary decoded with ⟨line, -, lines⟩
      rw [lines offset begun inside]
      exact (lines start (Nat.le_refl _) (Nat.lt_add_of_pos_right instruction.length_pos)).symm

/-- A function and two values on four lines; the first value is popped behind its line. -/
def spreadSource : String :=
  "fun f() \x7b\n\x7d\ntrue\n;true"

/-- The text compiles to two functions, and their lines ascend. -/
theorem spreadSource_ascends :
    ∃ functions,
      (compile .eval spreadSource { name := "main" } 0 0).functions = .ok functions ∧
        functions.size = 2 ∧
          ∀ function ∈ functions,
            function.chunk.lineStarts.Pairwise
                (fun first second => first.offset < second.offset ∧ first.line < second.line) ∧
              ∀ first second,
                first ≤ second → function.chunk.lineAt first ≤ function.chunk.lineAt second := by
  have size :
      (compile .eval spreadSource { name := "main" } 0 0).functions.toOption.map Array.size =
        some 2 := by
    cbv
  rcases success : (compile .eval spreadSource { name := "main" } 0 0).functions with
    error | functions
  · rw [success] at size
    cases size
  · rw [success] at size
    rcases line_tables_ascend success with ⟨tokens, -, ascend⟩
    refine ⟨functions, rfl, Option.some.inj size, fun function member => ?_⟩
    exact ⟨(ascend function member).1, (ascend function member).2.2.2⟩

end ScriptEngine
