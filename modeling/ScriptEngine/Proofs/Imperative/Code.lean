import ScriptEngine.Proofs.Compiler.Accumulation
import ScriptEngine.Proofs.Compiler.Invariant
import ScriptEngine.Proofs.Imperative.Program

/-!
# The code of imperative programs

`Expr.Coded` and `Stmt.Coded` say which code belongs to a tree.  They refer to the
constants and module variables of the finished function, so that a part of the code
is described without what comes before it.  A declaration leads from one scope to
another; the initialiser of a local variable is coded in a scope in which the
variable is not ready yet.
-/

namespace ScriptEngine

namespace Syntax

/-- Constants and module variables stand at the same places in another book. -/
structure Resources.Within (earlier later : Resources) : Prop where
  constants : earlier.pool.constants.toList <+: later.pool.constants.toList
  names :
    ∀ name slot, earlier.table.find? name = some slot → later.table.find? name = some slot

namespace Resources.Within

variable {earlier between later : Resources}

theorem refl (resources : Resources) : Within resources resources :=
  ⟨List.prefix_refl _, fun _ _ => id⟩

theorem trans (first : Within earlier between) (second : Within between later) :
    Within earlier later :=
  ⟨first.constants.trans second.constants, fun name slot found =>
    second.names name slot (first.names name slot found)⟩

theorem constant
    (within : Within earlier later)
    {index : Nat}
    {value : Value}
    (found : earlier.pool.constants[index]? = some value) :
    later.pool.constants[index]? = some value := by
  have inside := (Array.getElem?_eq_some_iff.mp found).1
  rcases within.constants with ⟨added, split⟩
  rw [← Array.getElem?_toList, ← split, List.getElem?_append_left (by simpa using inside),
    Array.getElem?_toList, found]

end Resources.Within

end Syntax

namespace Imperative

open Syntax

/-! ## Expressions -/

/-- An instruction pushes a constant. -/
def Pushes (book : Resources) (value : Value) (instruction : Instruction) : Prop :=
  ∃ index,
    book.pool.constants[index]? = some value ∧
      index < Chunk.maxConstants ∧ instruction = Generator.pushConstant index

/-- What a name refers to. -/
inductive Refers (book : Resources) (scope : Scope) (name : String) :
    Compiler.Reference → Prop where
  | localSlot
      {slot : Nat}
      (resolved : scope.resolve name = .ok (some slot)) :
      Refers book scope name (.localSlot slot)
  | moduleSlot
      {slot : Nat}
      (resolved : scope.resolve name = .ok none)
      (found : book.table.find? name = some slot) :
      Refers book scope name (.moduleSlot slot)

/-- The code of a conjunction: the right operand is skipped if the left one fails. -/
def conjunctionCode (left right : List Instruction) : List Instruction :=
  left ++ .jumpIfFalse (UInt16.ofNat (Instruction.totalLength (.pop :: right))) :: .pop :: right

/-- The code of a disjunction: the right operand is skipped unless the left one fails. -/
def disjunctionCode (left right : List Instruction) : List Instruction :=
  left ++ .jumpIfFalse 3 ::
    .jump (UInt16.ofNat (Instruction.totalLength (.pop :: right))) :: .pop :: right

theorem totalLength_pop (code : List Instruction) :
    Instruction.totalLength (.pop :: code) = Instruction.totalLength code + 1 :=
  Nat.add_comm _ _

theorem totalLength_conjunctionCode (left right : List Instruction) :
    Instruction.totalLength (conjunctionCode left right) =
      Instruction.totalLength left + 4 + Instruction.totalLength right := by
  rw [conjunctionCode, Instruction.totalLength_append]
  show _ + (3 + (1 + Instruction.totalLength right)) = _
  omega

theorem totalLength_disjunctionCode (left right : List Instruction) :
    Instruction.totalLength (disjunctionCode left right) =
      Instruction.totalLength left + 7 + Instruction.totalLength right := by
  rw [disjunctionCode, Instruction.totalLength_append]
  show _ + (3 + (3 + (1 + Instruction.totalLength right))) = _
  omega

/-- The code of an expression. -/
inductive Expr.Coded (book : Resources) (scope : Scope) : Expr → List Instruction → Prop where
  | number
      {value : Float} {instruction : Instruction}
      (pushes : Pushes book (.number value) instruction) :
      Coded book scope (.number value) [instruction]
  | string
      {content : String} {instruction : Instruction}
      (pushes : Pushes book (.string content) instruction) :
      Coded book scope (.string content) [instruction]
  | literal {word : Literal} : Coded book scope (.literal word) [word.instruction]
  | named
      {name : Name} {reference : Compiler.Reference}
      (refers : Refers book scope name.spelling reference) :
      Coded book scope (.named name) [reference.read]
  | grouping
      {inner : Expr} {code : List Instruction}
      (coded : Coded book scope inner code) :
      Coded book scope (.grouping inner) code
  | unary
      {operator : UnaryOperator} {operand : Expr} {code : List Instruction}
      (coded : Coded book scope operand code) :
      Coded book scope (.unary operator operand) (code ++ [operator.instruction])
  | binary
      {operator : BinaryOperator} {left right : Expr} {leftCode rightCode : List Instruction}
      (leftCoded : Coded book scope left leftCode)
      (rightCoded : Coded book scope right rightCode) :
      Coded book scope (.binary operator left right)
        (leftCode ++ (rightCode ++ operator.instructions))
  | conjunction
      {left right : Expr} {leftCode rightCode : List Instruction}
      (leftCoded : Coded book scope left leftCode)
      (rightCoded : Coded book scope right rightCode)
      (near : Instruction.totalLength (.pop :: rightCode) ≤ Chunk.maxDistance) :
      Coded book scope (.conjunction left right) (conjunctionCode leftCode rightCode)
  | disjunction
      {left right : Expr} {leftCode rightCode : List Instruction}
      (leftCoded : Coded book scope left leftCode)
      (rightCoded : Coded book scope right rightCode)
      (near : Instruction.totalLength (.pop :: rightCode) ≤ Chunk.maxDistance) :
      Coded book scope (.disjunction left right) (disjunctionCode leftCode rightCode)
  | assign
      {name : Name} {value : Expr} {reference : Compiler.Reference} {code : List Instruction}
      (refers : Refers book scope name.spelling reference)
      (coded : Coded book scope value code) :
      Coded book scope (.assign name value) (code ++ [reference.write])

/-- Code that has been generated from a tree, and stays the code of the tree from then on. -/
structure Generated
    (before after : Resources)
    (coded : Resources → Prop) :
    Prop where
  sound : after.Sound
  within : before.Within after
  coded : ∀ book, after.Within book → coded book

section Generator

open Generator

variable {before after : Resources} {scope : Scope}

theorem constant_generated
    (sound : before.Sound)
    {value : Value}
    (literal : value.isLiteral = true)
    {instruction : Instruction}
    (generated : constant value before = some (instruction, after)) :
    Generated before after fun book => Pushes book value instruction := by
  simp only [constant, bind_apply, pure_apply, Option.bind_eq_some_iff, Option.some.injEq,
    Prod.mk.injEq] at generated
  rcases generated with ⟨⟨index, between⟩, isIndex, rfl, rfl⟩
  rcases constantIndex_grows sound literal isIndex with ⟨grows, found⟩
  refine ⟨grows.sound, ⟨grows.context.constants, ?_⟩, ?_⟩
  · unfold constantIndex at isIndex
    split at isIndex
    · cases isIndex
      exact fun _ _ => id
    · cases isIndex
  · intro book within
    exact ⟨index, within.constant found, lt_max_of_found grows.sound found, rfl⟩

theorem moduleSlot_generated
    (sound : before.Sound)
    {name : String}
    {slot : Nat}
    (generated : moduleSlot name before = some (slot, after)) :
    Generated before after fun book => book.table.find? name = some slot := by
  rcases moduleSlot_grows sound generated with ⟨grows, -⟩
  have found := moduleSlot_found generated
  refine ⟨grows.sound, ⟨grows.context.constants, ?_⟩, fun book within => within.names _ _ found⟩
  intro other place isPlace
  unfold moduleSlot at generated
  split at generated
  · rename_i position table declared
    cases generated
    have kept := Module.find?_declare isPlace name
    rwa [declared] at kept
  · cases generated

theorem reference_generated
    (sound : before.Sound)
    {name : String}
    {target : Compiler.Reference}
    (generated :
      reference { scope, enclosing := [], role := .script } name before = some (target, after)) :
    Generated before after fun book => Refers book scope name target := by
  rcases resolved : scope.resolve name with problem | (_ | slot)
  · simp only [reference, resolved] at generated
    cases generated
  · simp only [reference, resolved, bind_apply, pure_apply, Option.bind_eq_some_iff,
      Option.some.injEq, Prod.mk.injEq] at generated
    rcases generated with ⟨⟨_, between⟩, required, ⟨slot, final⟩, declared, rfl, rfl⟩
    rcases require_eq required with ⟨-, rfl⟩
    have slotGenerated := moduleSlot_generated sound declared
    exact ⟨slotGenerated.sound, slotGenerated.within, fun book within =>
      .moduleSlot resolved (slotGenerated.coded book within)⟩
  · simp only [reference, resolved, pure_apply, Option.some.injEq, Prod.mk.injEq] at generated
    rcases generated with ⟨rfl, rfl⟩
    exact ⟨sound, .refl before, fun _ _ => .localSlot resolved⟩

/-- The code generator writes the code of an expression. -/
theorem Expr.code_generated
    (value : Expr)
    (sound : before.Sound)
    {code : List Instruction}
    (generated :
      value.tree.code { scope, enclosing := [], role := .script } before = some (code, after)) :
    Generated before after fun book => value.Coded book scope code := by
  induction value generalizing before after code with
  | number value =>
      simp only [tree, Syntax.Expr.code, bind_apply, Option.bind_eq_some_iff, pure_apply,
        Option.some.injEq, Prod.mk.injEq] at generated
      rcases generated with ⟨⟨instruction, _⟩, found, rfl, rfl⟩
      have constantGenerated := constant_generated sound rfl found
      exact ⟨constantGenerated.sound, constantGenerated.within, fun book within =>
        .number (constantGenerated.coded book within)⟩
  | string content =>
      simp only [tree, Syntax.Expr.code, bind_apply, Option.bind_eq_some_iff, pure_apply,
        Option.some.injEq, Prod.mk.injEq] at generated
      rcases generated with ⟨⟨instruction, _⟩, found, rfl, rfl⟩
      have constantGenerated := constant_generated sound rfl found
      exact ⟨constantGenerated.sound, constantGenerated.within, fun book within =>
        .string (constantGenerated.coded book within)⟩
  | literal word =>
      simp only [tree, Syntax.Expr.code, pure_apply, Option.some.injEq, Prod.mk.injEq] at generated
      rcases generated with ⟨rfl, rfl⟩
      exact ⟨sound, .refl before, fun _ _ => .literal⟩
  | named name =>
      simp only [tree, Syntax.Expr.code, bind_apply, Option.bind_eq_some_iff, pure_apply,
        Option.some.injEq, Prod.mk.injEq] at generated
      rcases generated with ⟨⟨target, _⟩, found, rfl, rfl⟩
      have targetGenerated := reference_generated sound found
      exact ⟨targetGenerated.sound, targetGenerated.within, fun book within =>
        .named (targetGenerated.coded book within)⟩
  | grouping inner induction =>
      simp only [tree, Syntax.Expr.code] at generated
      have innerGenerated := induction sound generated
      exact ⟨innerGenerated.sound, innerGenerated.within, fun book within =>
        .grouping (innerGenerated.coded book within)⟩
  | unary operator operand induction =>
      simp only [tree, Syntax.Expr.code, bind_apply, Option.bind_eq_some_iff, pure_apply,
        Option.some.injEq, Prod.mk.injEq, unaryInstruction_eq] at generated
      rcases generated with ⟨⟨operandCode, _⟩, found, rfl, rfl⟩
      have operandGenerated := induction sound found
      exact ⟨operandGenerated.sound, operandGenerated.within, fun book within =>
        .unary (operandGenerated.coded book within)⟩
  | binary operator left right leftInduction rightInduction =>
      simp only [tree, Syntax.Expr.code, bind_apply, Option.bind_eq_some_iff, pure_apply,
        Option.some.injEq, Prod.mk.injEq, binaryInstructions_eq, List.append_assoc] at generated
      rcases generated with
        ⟨⟨leftCode, between⟩, leftFound, ⟨rightCode, _⟩, rightFound, rfl, rfl⟩
      have leftGenerated := leftInduction sound leftFound
      have rightGenerated := rightInduction leftGenerated.sound rightFound
      refine ⟨rightGenerated.sound, leftGenerated.within.trans rightGenerated.within, ?_⟩
      intro book within
      exact .binary (leftGenerated.coded book (rightGenerated.within.trans within))
        (rightGenerated.coded book within)
  | conjunction left right leftInduction rightInduction =>
      simp only [tree, Syntax.Expr.code, bind_apply, Option.bind_eq_some_iff, pure_apply,
        Option.some.injEq, Prod.mk.injEq] at generated
      rcases generated with
        ⟨⟨leftCode, between⟩, leftFound, ⟨rightCode, _⟩, rightFound, ⟨skip, _⟩, jumps, rfl, rfl⟩
      rcases jumpOver_eq jumps with ⟨near, rfl, rfl⟩
      have leftGenerated := leftInduction sound leftFound
      have rightGenerated := rightInduction leftGenerated.sound rightFound
      refine ⟨rightGenerated.sound, leftGenerated.within.trans rightGenerated.within, ?_⟩
      intro book within
      exact .conjunction (leftGenerated.coded book (rightGenerated.within.trans within))
        (rightGenerated.coded book within) near
  | disjunction left right leftInduction rightInduction =>
      simp only [tree, Syntax.Expr.code, bind_apply, Option.bind_eq_some_iff, pure_apply,
        Option.some.injEq, Prod.mk.injEq] at generated
      rcases generated with
        ⟨⟨leftCode, between⟩, leftFound, ⟨rightCode, _⟩, rightFound, ⟨skip, _⟩, jumps, rfl, rfl⟩
      rcases jumpOver_eq jumps with ⟨near, rfl, rfl⟩
      have leftGenerated := leftInduction sound leftFound
      have rightGenerated := rightInduction leftGenerated.sound rightFound
      refine ⟨rightGenerated.sound, leftGenerated.within.trans rightGenerated.within, ?_⟩
      intro book within
      exact .disjunction (leftGenerated.coded book (rightGenerated.within.trans within))
        (rightGenerated.coded book within) near
  | assign name value induction =>
      simp only [tree, Syntax.Expr.code, bind_apply, Option.bind_eq_some_iff, pure_apply,
        Option.some.injEq, Prod.mk.injEq] at generated
      rcases generated with
        ⟨⟨target, between⟩, targetFound, ⟨_, _⟩, allowed, ⟨valueCode, _⟩, valueFound, rfl, rfl⟩
      have unchanged := requireWritable_eq allowed
      simp only at unchanged
      subst unchanged
      have targetGenerated := reference_generated sound targetFound
      have valueGenerated := induction targetGenerated.sound valueFound
      refine ⟨valueGenerated.sound, targetGenerated.within.trans valueGenerated.within, ?_⟩
      intro book within
      exact .assign (targetGenerated.coded book (valueGenerated.within.trans within))
        (valueGenerated.coded book within)

end Generator

/-! ## Loops -/

/--
The rounds of a loop.  They begin `back` bytes behind the beginning of the loop.
Without an increment they are the body and a jump to the beginning; an increment
stands before the body, is jumped over, and leads to the beginning itself.
-/
def roundsCode (back : Nat) (increment : Option (List Instruction)) (body : List Instruction) :
    List Instruction :=
  match increment with
  | none => body ++ [.loop (UInt16.ofNat (back + Instruction.totalLength body + 3))]
  | some increment =>
    .jump (UInt16.ofNat (Instruction.totalLength increment + 3)) ::
      (increment ++
        .loop (UInt16.ofNat (back + 3 + Instruction.totalLength increment + 3)) ::
          (body ++
            [.loop (UInt16.ofNat
              (Instruction.totalLength increment + 3 + Instruction.totalLength body + 3))]))

/-- The jumps in the rounds of a loop are not too long. -/
def RoundsNear (back : Nat) (increment : Option (List Instruction)) (body : List Instruction) :
    Prop :=
  match increment with
  | none => back + Instruction.totalLength body + 3 ≤ Chunk.maxDistance
  | some increment =>
    back + 3 + Instruction.totalLength increment + 3 ≤ Chunk.maxDistance ∧
      Instruction.totalLength increment + 3 + Instruction.totalLength body + 3 ≤
        Chunk.maxDistance

/-- A loop: a condition, if there is one, with a jump out of the loop, and the rounds. -/
def loopCode (condition increment : Option (List Instruction)) (body : List Instruction) :
    List Instruction :=
  match condition with
  | none => roundsCode 0 increment body
  | some condition =>
    let rounds := roundsCode (Instruction.totalLength condition + 4) increment body
    condition ++
      .jumpIfFalse (UInt16.ofNat (Instruction.totalLength rounds + 1)) ::
        .pop :: (rounds ++ [.pop])

/-- The jumps in a loop are not too long. -/
def LoopNear (condition increment : Option (List Instruction)) (body : List Instruction) : Prop :=
  match condition with
  | none => RoundsNear 0 increment body
  | some condition =>
    let back := Instruction.totalLength condition + 4
    RoundsNear back increment body ∧
      Instruction.totalLength (roundsCode back increment body) + 1 ≤ Chunk.maxDistance

/-- The code of a condition that may be left out. -/
inductive ConditionCoded (book : Resources) (scope : Scope) :
    Option Expr → Option (List Instruction) → Prop where
  | absent : ConditionCoded book scope none none
  | present
      {condition : Expr} {code : List Instruction}
      (coded : condition.Coded book scope code) :
      ConditionCoded book scope (some condition) (some code)

/-- The code of an increment that may be left out. -/
inductive IncrementCoded (book : Resources) (scope : Scope) :
    Option Expr → Option (List Instruction) → Prop where
  | absent : IncrementCoded book scope none none
  | present
      {increment : Expr} {code : List Instruction}
      (coded : increment.Coded book scope code) :
      IncrementCoded book scope (some increment) (some (code ++ [.pop]))

/-! ## Statements -/

/-- The code of the first value of a variable. -/
inductive InitialCoded (book : Resources) (scope : Scope) :
    Option Expr → List Instruction → Prop where
  | absent : InitialCoded book scope none [.pushNull]
  | present
      {value : Expr} {code : List Instruction}
      (coded : value.Coded book scope code) :
      InitialCoded book scope (some value) code

/-- Two alternatives, one of which is executed after a condition has been tested. -/
def branchCode (consequence alternative : List Instruction) : List Instruction :=
  .jumpIfFalse (UInt16.ofNat (Instruction.totalLength (.pop :: consequence) + 3)) :: .pop ::
    (consequence ++
      .jump (UInt16.ofNat (Instruction.totalLength (.pop :: alternative))) :: .pop :: alternative)

theorem totalLength_branchCode (consequence alternative : List Instruction) :
    Instruction.totalLength (branchCode consequence alternative) =
      4 + Instruction.totalLength consequence + 4 + Instruction.totalLength alternative := by
  show 3 + (1 + Instruction.totalLength (consequence ++ _ :: _ :: alternative)) = _
  rw [Instruction.totalLength_append]
  show 3 + (1 + (_ + (3 + (1 + Instruction.totalLength alternative)))) = _
  omega

/-- The code of a statement, with the scope before and after it. -/
inductive Stmt.Coded (book : Resources) :
    Scope → Stmt → List Instruction → Scope → Prop where
  | nothing {scope : Scope} : Coded book scope .nothing [] scope
  | followed
      {scope between after : Scope} {first rest : Stmt} {firstCode restCode : List Instruction}
      (firstCoded : Coded book scope first firstCode between)
      (restCoded : Coded book between rest restCode after) :
      Coded book scope (.followed first rest) (firstCode ++ restCode) after
  | define
      {scope : Scope} {name : Name} {initializer : Option Expr} {code : List Instruction}
      {slot : Nat}
      (outside : scope.depth = 0)
      (found : book.table.find? name.spelling = some slot)
      (coded : InitialCoded book scope initializer code) :
      Coded book scope (.declare name initializer)
        (code ++ [.defineModule (UInt16.ofNat slot)]) scope
  | declare
      {scope : Scope} {name : Name} {initializer : Option Expr} {code : List Instruction}
      (inside : 0 < scope.depth)
      (room : scope.locals.length < Scope.maxLocals)
      (coded : InitialCoded book (scope.pending name.spelling) initializer code) :
      Coded book scope (.declare name initializer) code (scope.declared name.spelling)
  | expression
      {scope : Scope} {value : Expr} {code : List Instruction}
      (coded : value.Coded book scope code) :
      Coded book scope (.expression value) (code ++ [.pop]) scope
  | print
      {scope : Scope} {value : Expr} {code : List Instruction}
      (coded : value.Coded book scope code) :
      Coded book scope (.print value) (code ++ [.print]) scope
  | block
      {scope inner : Scope} {body : Stmt} {code : List Instruction} {count : Nat}
      (coded : Coded book scope.enter body code inner)
      (leaves : inner.leave = (count, scope)) :
      Coded book scope (.block body) (code ++ List.replicate count .pop) scope
  | conditional
      {scope : Scope} {condition : Expr} {consequence alternative : Stmt}
      {code consequenceCode alternativeCode : List Instruction}
      (coded : condition.Coded book scope code)
      (consequenceCoded : Coded book scope consequence consequenceCode scope)
      (alternativeCoded : Coded book scope alternative alternativeCode scope)
      (consequenceNear :
        Instruction.totalLength (.pop :: consequenceCode) + 3 ≤ Chunk.maxDistance)
      (alternativeNear : Instruction.totalLength (.pop :: alternativeCode) ≤ Chunk.maxDistance) :
      Coded book scope (.conditional condition consequence alternative)
        (code ++ branchCode consequenceCode alternativeCode) scope
  | loop
      {scope : Scope} {condition : Expr} {body : Stmt} {code bodyCode : List Instruction}
      (coded : condition.Coded book scope code)
      (bodyCoded : Coded book scope body bodyCode scope)
      (near : LoopNear (some code) none bodyCode) :
      Coded book scope (.loop condition body) (loopCode (some code) none bodyCode) scope
  | counted
      {scope inner : Scope} {initializer body : Stmt} {condition increment : Option Expr}
      {code bodyCode : List Instruction} {conditionCode incrementCode : Option (List Instruction)}
      {count : Nat}
      (coded : Coded book scope.enter initializer code inner)
      (conditionCoded : ConditionCoded book inner condition conditionCode)
      (incrementCoded : IncrementCoded book inner increment incrementCode)
      (bodyCoded : Coded book inner body bodyCode inner)
      (near : LoopNear conditionCode incrementCode bodyCode)
      (leaves : inner.leave = (count, scope)) :
      Coded book scope (.counted initializer condition increment body)
        (code ++ (loopCode conditionCode incrementCode bodyCode ++ List.replicate count .pop))
        scope

/-- A function is the body of a module and does what a program says. -/
structure Stmt.IsBodyOf (program : Stmt) (function : Function) (table : Module) (home : Nat) :
    Prop where
  arity : function.arity = 0
  home : function.home = home
  coded :
    ∃ code,
      function.chunk.code.toList = Instruction.encode (code ++ [.pushNull, .leave]) ∧
        program.Coded { pool := function.chunk.pool, table } (Scope.reserving "") code
          (Scope.reserving "")

end Imperative

end ScriptEngine
