import ScriptEngine.Proofs.Imperative.Steps

/-!
# The machine does what programs say

The code of an expression leaves its value on the stack, and the code of a statement
does what the interpreter does with the statement.  The proofs go along the code;
the rounds of a loop are counted by the interpreter.
-/

namespace ScriptEngine.Imperative

open Syntax Site Interpreter

/-! ## Expressions -/

theorem Expr.Coded.rescoped
    {book : Resources}
    {scope other : Scope}
    {value : Expr}
    {code : List Instruction}
    (coded : value.Coded book scope code)
    (refers :
      ∀ name reference, Refers book scope name reference → Refers book other name reference) :
    value.Coded book other code := by
  induction coded with
  | number pushes => exact .number pushes
  | string pushes => exact .string pushes
  | literal => exact .literal
  | named isReference => exact .named (refers _ _ isReference)
  | grouping _ induction => exact .grouping induction
  | unary _ induction => exact .unary induction
  | binary _ _ left right => exact .binary left right
  | conjunction _ _ near left right => exact .conjunction left right near
  | disjunction _ _ near left right => exact .disjunction left right near
  | assign isReference _ induction => exact .assign (refers _ _ isReference) induction

theorem Refers.of_pending
    {book : Resources}
    {scope : Scope}
    {variableName name : String}
    {reference : Compiler.Reference}
    (refers : Refers book (scope.pending variableName) name reference) :
    Refers book scope name reference := by
  cases refers with
  | localSlot resolved => exact .localSlot (resolve_of_pending resolved)
  | moduleSlot resolved found => exact .moduleSlot (resolve_of_pending resolved) found

section Expressions

variable
  {site : Site}
  {scope : Scope}
  {offset : Nat}
  {temporaries : List Value}

/-- The code of an expression leaves its value on the stack. -/
theorem Expr.Coded.performs
    {value : Expr}
    {code : List Instruction}
    (coded : value.Coded site.book scope code)
    (codeAt : site.function.CodeAt offset code) :
    site.Performs (site.At scope offset temporaries) value.eval
      (fun result =>
        site.At scope (offset + Instruction.totalLength code) (result :: temporaries)) := by
  induction coded generalizing offset temporaries with
  | number pushes => exact .returns fun store state isAt => isAt.constant pushes rfl codeAt
  | string pushes => exact .returns fun store state isAt => isAt.constant pushes rfl codeAt
  | literal => exact .returns fun store state isAt => isAt.literal codeAt
  | named refers => exact performs_read refers codeAt
  | grouping _ induction => exact induction codeAt
  | unary _ induction =>
      refine .bind (induction codeAt.left) fun operand => ?_
      refine (performs_unary codeAt.right).thenSteps fun result store state isAt => .here ?_
      exact isAt.relocated (by simp [Nat.add_assoc])
  | binary _ _ leftInduction rightInduction =>
      refine .bind (leftInduction codeAt.left) fun left => ?_
      refine .bind (rightInduction codeAt.right.left) fun right => ?_
      refine (performs_binary codeAt.right.right).thenSteps fun result store state isAt => .here ?_
      exact isAt.relocated (by simp [Nat.add_assoc])
  | conjunction _ _ near leftInduction rightInduction =>
      have skipAt := codeAt.right
      refine .bind (leftInduction codeAt.left) fun left => ?_
      refine .afterSteps (fun store state isAt => isAt.jumpIfFalse skipAt.head near) ?_
      cases holds left with
      | true =>
          have popAt := skipAt.afterJumpIfFalse
          refine .afterSteps (fun store state isAt => isAt.pop popAt.head) ?_
          refine (rightInduction popAt.afterPop).thenSteps fun result store state isAt => .here ?_
          exact isAt.relocated (by rw [totalLength_conjunctionCode]; omega)
      | false =>
          refine .returns fun store state isAt => .here ?_
          rw [totalLength_pop] at isAt
          apply isAt.relocated
          rw [totalLength_conjunctionCode, if_neg Bool.false_ne_true]
          omega
  | disjunction _ _ near leftInduction rightInduction =>
      have skipAt := codeAt.right
      have jumpAt := skipAt.afterJumpIfFalse
      refine .bind (leftInduction codeAt.left) fun left => ?_
      refine .afterSteps (fun store state isAt => isAt.jumpIfFalse skipAt.head (by decide)) ?_
      cases holds left with
      | true =>
          refine .returns fun store state isAt => ?_
          refine (isAt.jump jumpAt.head near).mono fun final isFinal => ?_
          rw [if_pos rfl, totalLength_pop] at isFinal
          exact isFinal.relocated (by rw [totalLength_disjunctionCode]; omega)
      | false =>
          have popAt := jumpAt.afterJump
          refine .afterSteps (fun store state isAt => isAt.pop popAt.head) ?_
          refine (rightInduction popAt.afterPop).thenSteps fun result store state isAt => .here ?_
          exact isAt.relocated (by rw [totalLength_disjunctionCode]; omega)
  | assign refers _ induction =>
      refine .bind (induction codeAt.left) fun new => ?_
      refine .bind (performs_assign refers codeAt.right) fun _ => ?_
      refine .returns fun store state isAt => .here ?_
      exact isAt.relocated (by simp [Nat.add_assoc])

theorem InitialCoded.performs
    {initializer : Option Expr}
    {code : List Instruction}
    (coded : InitialCoded site.book scope initializer code)
    (codeAt : site.function.CodeAt offset code) :
    site.Performs (site.At scope offset temporaries) (initialValue initializer)
      (fun value =>
        site.At scope (offset + Instruction.totalLength code) (value :: temporaries)) := by
  cases coded with
  | absent => exact .returns fun store state isAt => isAt.null codeAt
  | present coded => exact coded.performs codeAt

theorem InitialCoded.of_pending
    {book : Resources}
    {name : String}
    {initializer : Option Expr}
    {code : List Instruction}
    (coded : InitialCoded book (scope.pending name) initializer code) :
    InitialCoded book scope initializer code := by
  cases coded with
  | absent => exact .absent
  | present coded => exact .present (coded.rescoped fun _ _ refers => refers.of_pending)

/-- An expression that is evaluated for its effect. -/
theorem Expr.Coded.performs_dropped
    {value : Expr}
    {code : List Instruction}
    (coded : value.Coded site.book scope code)
    (codeAt : site.function.CodeAt offset (code ++ [.pop])) :
    site.Performs (site.At scope offset temporaries) (perform (some value))
      (fun _ => site.At scope (offset + Instruction.totalLength (code ++ [.pop])) temporaries) := by
  refine .bind (coded.performs codeAt.left) fun _ => ?_
  refine .returns fun store state isAt => ?_
  refine (isAt.pop codeAt.right).mono fun final isFinal => ?_
  exact isFinal.relocated (by rw [Instruction.totalLength_append, Nat.add_assoc]; rfl)

/-- A condition is tested: the value is popped on either side of the jump. -/
theorem Expr.Coded.performs_test
    {condition : Expr}
    {code : List Instruction}
    {distance : Nat}
    {rest : List Instruction}
    (coded : condition.Coded site.book scope code)
    (codeAt :
      site.function.CodeAt offset (code ++ .jumpIfFalse (UInt16.ofNat distance) :: .pop :: rest))
    (popAt :
      site.function.CodeAt (offset + Instruction.totalLength code + 3 + distance) [.pop])
    (near : distance ≤ Chunk.maxDistance) :
    site.Performs (site.At scope offset []) (test (some condition))
      (fun passes =>
        site.At scope
          (offset + Instruction.totalLength code + 4 + if passes then 0 else distance) []) := by
  have skipAt := codeAt.right
  refine .bind (coded.performs codeAt.left) fun value => ?_
  refine .returns fun store state isAt => ?_
  refine (isAt.jumpIfFalse skipAt.head near).bind fun jumped => ?_
  cases holds value with
  | true => exact fun isJumped => isJumped.pop skipAt.afterJumpIfFalse.head
  | false =>
      intro isJumped
      refine (isJumped.pop popAt).mono fun final isFinal => ?_
      exact isFinal.relocated (by rw [if_neg Bool.false_ne_true]; omega)

end Expressions

/-! ## Loops -/

section Loops

variable {site : Site}

/-- Rounds are made until a test fails. -/
theorem Site.Performs.rounds
    {entry inside exit : Store → State → Prop}
    {test : Interpreter Bool}
    {round : Interpreter Unit}
    (tests : site.Performs entry test fun passes => if passes then inside else exit)
    (rounds : site.Performs inside round fun _ => entry)
    (bound : Nat) :
    site.Performs entry (Interpreter.rounds test round bound) (fun _ => exit) := by
  induction bound with
  | zero => exact fun store state _ outcome final ends => nomatch ends
  | succ bound induction =>
      refine .bind tests fun passes => ?_
      cases passes with
      | true => exact .bind rounds fun _ => induction
      | false => exact .returns fun store state holds => .here holds

variable
  {scope : Scope}
  {condition increment : Option Expr}
  {conditionCode incrementCode : Option (List Instruction)}
  {bodyCode : List Instruction}
  {body : Interpreter Unit}

/-- The code of a statement does what the statement does, wherever it stands. -/
def Does (site : Site) (scope : Scope) (code : List Instruction) (action : Interpreter Unit)
    (after : Scope) : Prop :=
  ∀ offset,
    site.function.CodeAt offset code →
      site.Performs (site.At scope offset []) action
        (fun _ => site.At after (offset + Instruction.totalLength code) [])

/-- A round leads from behind the condition back to the beginning of the loop. -/
theorem performs_round
    {start back : Nat}
    (bodyDoes : Does site scope bodyCode body scope)
    (incrementCoded : IncrementCoded site.book scope increment incrementCode)
    (near : RoundsNear back incrementCode bodyCode)
    (codeAt : site.function.CodeAt (start + back) (roundsCode back incrementCode bodyCode)) :
    site.Performs (site.At scope (start + back) [])
      (do
        body
        perform increment)
      (fun _ => site.At scope start []) := by
  cases incrementCoded with
  | absent =>
      refine .bind (bodyDoes _ codeAt.left) fun _ => ?_
      refine .returns fun store state isAt => isAt.loop codeAt.right near ?_
      omega
  | @present _ code coded =>
      rcases near with ⟨incrementNear, bodyNear⟩
      have incrementAt := codeAt.afterJump
      have loopAt := incrementAt.right
      have bodyAt := loopAt.afterLoop
      have skipNear :
          Instruction.totalLength (code ++ [Instruction.pop]) + 3 ≤ Chunk.maxDistance := by
        omega
      refine .afterSteps (fun store state isAt => isAt.jump codeAt.head skipNear) ?_
      refine .bind (.afterSteps (fun store state isAt => .here (isAt.relocated ?_))
        (bodyDoes _ bodyAt.left)) fun _ => ?_
      · omega
      refine .afterSteps (fun store state isAt => isAt.loop bodyAt.right bodyNear ?_)
        ((coded.performs_dropped incrementAt.left).thenSteps
          fun _ store state isAt => isAt.loop loopAt.head incrementNear ?_)
      · omega
      · omega

theorem loop_does
    (conditionCoded : ConditionCoded site.book scope condition conditionCode)
    (incrementCoded : IncrementCoded site.book scope increment incrementCode)
    (bodyDoes : Does site scope bodyCode body scope)
    (near : LoopNear conditionCode incrementCode bodyCode)
    (bound : Nat) :
    Does site scope (loopCode conditionCode incrementCode bodyCode)
      (rounds (test condition)
        (do
          body
          perform increment)
        bound)
      scope := by
  intro offset codeAt
  cases conditionCoded with
  | absent =>
      have tests :
          site.Performs (site.At scope offset []) (test none) fun passes =>
            if passes then site.At scope offset []
            else
              site.At scope
                (offset + Instruction.totalLength (loopCode none incrementCode bodyCode)) [] :=
        .returns fun store state isAt => .here isAt
      exact .rounds tests (performs_round bodyDoes incrementCoded near codeAt) bound
  | @present _ code coded =>
      rcases near with ⟨roundsNear, exitNear⟩
      have roundsAt := codeAt.right.afterJumpIfFalse.afterPop
      have round := @performs_round _ _ _ _ _ _ offset _ bodyDoes incrementCoded roundsNear
        (roundsAt.left.relocated (by omega))
      have tests := coded.performs_test codeAt (roundsAt.right.relocated (by omega)) exitNear
      refine .rounds (tests.thenSteps fun passes store state isAt => .here ?_) round bound
      cases passes with
      | true => exact isAt.relocated (by rw [if_pos rfl]; omega)
      | false =>
          refine isAt.relocated ?_
          rw [if_neg Bool.false_ne_true, loopCode, Instruction.totalLength_append]
          show _ =
            offset +
              (_ + (3 + (1 + Instruction.totalLength (roundsCode _ _ _ ++ [Instruction.pop]))))
          rw [Instruction.totalLength_append]
          show _ = offset + (_ + (3 + (1 + (_ + 1))))
          omega

end Loops

/-! ## Statements -/

theorem bind_perform_none (body : Interpreter Unit) :
    (do
      body
      perform none) =
      body :=
  bind_pure_unit

theorem totalLength_pops (count : Nat) :
    Instruction.totalLength (List.replicate count .pop) = count := by
  induction count with
  | zero => rfl
  | succ count induction => rw [List.replicate_succ, totalLength_pop, induction]

theorem performs_enter
    {site : Site}
    {scope : Scope}
    {offset : Nat} :
    site.Performs (site.At scope offset []) (change Store.enter)
      (fun _ => site.At scope.enter offset []) := by
  intro store state isAt outcome final ends
  cases ends
  exact .here isAt.enter

theorem Stmt.Coded.depth
    {book : Resources}
    {scope after : Scope}
    {stmt : Stmt}
    {code : List Instruction}
    (coded : Stmt.Coded book scope stmt code after) :
    after.depth = scope.depth := by
  induction coded with
  | followed _ _ first rest => exact rest.trans first
  | _ => rfl

/-- The code of a statement does what the interpreter does. -/
theorem Stmt.Coded.does
    {site : Site}
    {scope after : Scope}
    {stmt : Stmt}
    {code : List Instruction}
    (coded : Stmt.Coded site.book scope stmt code after)
    (bound : Nat) :
    Does site scope code (stmt.run site.heap.display bound) after := by
  induction coded with
  | nothing => exact fun offset _ => .returns fun store state isAt => .here isAt
  | followed _ _ first rest =>
      intro offset codeAt
      refine .bind (first offset codeAt.left) fun _ => ?_
      refine (rest _ codeAt.right).thenSteps fun _ store state isAt => .here ?_
      exact isAt.relocated (by rw [Instruction.totalLength_append]; omega)
  | define outside found coded =>
      intro offset codeAt
      refine .bind (coded.performs codeAt.left) fun value => ?_
      refine (performs_define outside found codeAt.right).thenSteps
        fun _ store state isAt => .here ?_
      exact isAt.relocated (by rw [Instruction.totalLength_append, Nat.add_assoc]; rfl)
  | declare inside room coded =>
      intro offset codeAt
      refine .bind (coded.of_pending.performs codeAt) fun value => ?_
      intro store state isAt outcome final ends
      cases ends
      exact .here (isAt.declare inside room _)
  | expression coded => exact fun offset codeAt => coded.performs_dropped codeAt
  | print coded =>
      intro offset codeAt
      refine .bind (coded.performs codeAt.left) fun value => ?_
      refine (performs_print codeAt.right).thenSteps fun _ store state isAt => .here ?_
      exact isAt.relocated (by rw [Instruction.totalLength_append, Nat.add_assoc]; rfl)
  | block coded leaves body =>
      intro offset codeAt
      have inside := coded.depth
      refine .bind performs_enter fun _ => .bind (body offset codeAt.left) fun _ => ?_
      refine (performs_leave leaves ?_ codeAt.right).thenSteps fun _ store state isAt => .here ?_
      · rw [inside]
        exact Nat.succ_pos _
      · exact isAt.relocated (by rw [Instruction.totalLength_append, totalLength_pops]; omega)
  | conditional coded _ _ consequenceNear alternativeNear consequence alternative =>
      intro offset codeAt
      have consequenceAt := codeAt.right.afterJumpIfFalse.afterPop
      have jumpAt := consequenceAt.right
      have popAt := jumpAt.afterJump
      refine .bind (coded.performs_test codeAt (popAt.head.relocated ?_) consequenceNear)
        fun passes => ?_
      · rw [totalLength_pop]
        omega
      cases passes with
      | true =>
          refine (consequence _ consequenceAt.left).thenSteps fun _ store state isAt => ?_
          refine (isAt.jump jumpAt.head alternativeNear).mono fun final isFinal => ?_
          rw [totalLength_pop] at isFinal
          exact isFinal.relocated
            (by rw [Instruction.totalLength_append, totalLength_branchCode]; omega)
      | false =>
          rw [if_neg Bool.false_ne_true]
          refine .afterSteps (fun store state isAt => .here (isAt.relocated ?_))
            ((alternative _ popAt.afterPop).thenSteps fun _ store state isAt => .here ?_)
          · rw [totalLength_pop]
            omega
          · exact isAt.relocated
              (by rw [Instruction.totalLength_append, totalLength_branchCode]; omega)
  | loop coded _ near body =>
      have looping := loop_does (.present coded) .absent body near bound
      rwa [bind_perform_none] at looping
  | counted coded conditionCoded incrementCoded _ near leaves initializer body =>
      intro offset codeAt
      have inside := coded.depth
      have loopAt := codeAt.right
      refine .bind performs_enter fun _ => .bind (initializer offset codeAt.left) fun _ => ?_
      refine .bind (loop_does conditionCoded incrementCoded body near bound _ loopAt.left)
        fun _ => ?_
      refine (performs_leave leaves ?_ loopAt.right).thenSteps fun _ store state isAt => .here ?_
      · rw [inside]
        exact Nat.succ_pos _
      · refine isAt.relocated ?_
        rw [Instruction.totalLength_append, Instruction.totalLength_append, totalLength_pops]
        omega

end ScriptEngine.Imperative
