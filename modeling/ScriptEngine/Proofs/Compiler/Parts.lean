import ScriptEngine.Proofs.Compiler.ExpressionFlow

/-!
# The code of the parts of an expression

The code of an expression holds the code of every expression that occurs in it as a whole
(`Expr.Contains.hasCodeIn`): the constants and module variables that the part mentions have
then been given positions, and they keep them.
-/

namespace ScriptEngine.Syntax

open Generator Resources

/-- The expressions from which an expression is put together, from left to right. -/
def Expr.operands : Expr → List Expr
  | .number _ | .string _ | .literal _ | .named _ | .receiver => []
  | .grouping inner | .unary _ inner | .property inner _ | .assignName _ inner => [inner]
  | .array elements => elements
  | .binary _ left right | .conjunction left right | .disjunction left right => [left, right]
  | .subscript owner index => [owner, index]
  | .assignProperty owner _ value => [owner, value]
  | .assignSubscript owner index value => [owner, index, value]
  | .call callee arguments => callee :: arguments
  | .invocation owner _ arguments => owner :: arguments

/-- An expression is a part of another one. -/
inductive Expr.Contains : Expr → Expr → Prop where
  | refl (tree : Expr) : Contains tree tree
  | operand
      {tree inner part : Expr}
      (member : inner ∈ tree.operands)
      (contains : Contains inner part) :
      Contains tree part

/--
The code of an expression stands among instructions, and what it mentions is part of the
resources in the end.
-/
inductive Expr.HasCodeIn (surroundings : Surroundings) (tree : Expr)
    (instructions : List Instruction) (final : Resources) : Prop where
  | intro
      {earlier code later : List Instruction}
      {first last : Resources}
      (split : instructions = earlier ++ code ++ later)
      (assigns : tree.Assigns IsVariableName)
      (sound : first.Sound)
      (generated : tree.code surroundings first = some (code, last))
      (grows : Grows last final)

section Parts

variable
  {surroundings : Surroundings}
  {tree inner part : Expr}
  {instructions more : List Instruction}
  {before between after : Resources}
  {height : Nat}

namespace Expr.HasCodeIn

theorem append (has : tree.HasCodeIn surroundings instructions after) (more : List Instruction) :
    tree.HasCodeIn surroundings (instructions ++ more) after := by
  rcases has with @⟨earlier, code, later, _, _, rfl, assigns, sound, generated, grows⟩
  exact ⟨List.append_assoc _ _ _, assigns, sound, generated, grows⟩

theorem prepend (has : tree.HasCodeIn surroundings instructions after) (more : List Instruction) :
    tree.HasCodeIn surroundings (more ++ instructions) after := by
  rcases has with @⟨earlier, code, later, _, _, rfl, assigns, sound, generated, grows⟩
  have split : more ++ (earlier ++ code ++ later) = more ++ earlier ++ code ++ later := by simp
  exact ⟨split, assigns, sound, generated, grows⟩

theorem further
    (has : tree.HasCodeIn surroundings instructions between)
    (grows : Grows between after) :
    tree.HasCodeIn surroundings instructions after := by
  rcases has with ⟨split, assigns, sound, generated, earlier⟩
  exact ⟨split, assigns, sound, generated, earlier.trans grows⟩

end Expr.HasCodeIn

section Fitting

variable (fits : surroundings.scope.Fits height)

include fits

theorem Expr.code_grows
    (assigns : tree.Assigns IsVariableName)
    (sound : before.Sound)
    (generated : tree.code surroundings before = some (instructions, after)) :
    Grows before after :=
  (tree.code_generates assigns fits sound generated).grows

/-- The code of an expression is the code of its whole. -/
theorem Expr.hasCodeIn_self
    (assigns : tree.Assigns IsVariableName)
    (sound : before.Sound)
    (generated : tree.code surroundings before = some (instructions, after)) :
    tree.HasCodeIn surroundings instructions after := by
  have split : instructions = [] ++ instructions ++ [] := by simp
  exact ⟨split, assigns, sound, generated,
    .refl (Expr.code_grows fits assigns sound generated).sound⟩

/-- Each of several expressions has its code among theirs. -/
theorem hasCodeIn_of_itemsCode
    {items : List Expr}
    {suffix : List Instruction}
    (assigns : AllAssign IsVariableName items)
    (sound : before.Sound)
    (generated : itemsCode surroundings suffix items before = some (instructions, after)) :
    Grows before after ∧ ∀ item ∈ items, item.HasCodeIn surroundings instructions after := by
  induction items generalizing before instructions with
  | nil =>
      simp only [itemsCode, pure_apply, Option.some.injEq, Prod.mk.injEq] at generated
      obtain ⟨rfl, rfl⟩ := generated
      exact ⟨.refl sound, List.forall_mem_nil _⟩
  | cons first rest induction =>
      simp only [itemsCode, bind_apply, Option.bind_eq_some_iff, pure_apply, Option.some.injEq,
        Prod.mk.injEq] at generated
      obtain ⟨⟨firstCode, between⟩, firstFound, ⟨restCode, _⟩, restFound, rfl, rfl⟩ := generated
      have start := Expr.code_grows fits assigns.1 sound firstFound
      obtain ⟨grows, others⟩ := induction assigns.2 start.sound restFound
      refine ⟨start.trans grows, List.forall_mem_cons.mpr ⟨?_, fun item member => ?_⟩⟩
      · exact (((Expr.hasCodeIn_self fits assigns.1 sound firstFound).further grows).append
          suffix).append restCode
      · exact (others item member).prepend _

/-- Every operand has its code in the code of the expression. -/
theorem Expr.hasCodeIn_of_operand
    (assigns : tree.Assigns IsVariableName)
    (sound : before.Sound)
    (generated : tree.code surroundings before = some (instructions, after))
    (member : inner ∈ tree.operands) :
    inner.HasCodeIn surroundings instructions after := by
  cases tree with
  | number | string | literal | named | receiver => cases member
  | grouping operand =>
      rw [Expr.code] at generated
      cases List.mem_singleton.mp member
      exact hasCodeIn_self fits assigns sound generated
  | array elements =>
      simp only [Expr.code, bind_apply, Option.bind_eq_some_iff, pure_apply, Option.some.injEq,
        Prod.mk.injEq] at generated
      obtain ⟨⟨push, named⟩, pushFound, ⟨filling, _⟩, filled, rfl, rfl⟩ := generated
      have pushSound := (nameIndex_grows sound pushFound).1.sound
      exact ((hasCodeIn_of_itemsCode fits assigns pushSound filled).2 inner member).prepend
        [.getModule _, .call 0]
  | unary operator operand =>
      simp only [Expr.code, bind_apply, Option.bind_eq_some_iff, pure_apply, Option.some.injEq,
        Prod.mk.injEq] at generated
      obtain ⟨⟨operandCode, _⟩, found, rfl, rfl⟩ := generated
      change operand.Assigns IsVariableName at assigns
      cases List.mem_singleton.mp member
      exact (hasCodeIn_self fits assigns sound found).append _
  | binary operator left right =>
      simp only [Expr.code, bind_apply, Option.bind_eq_some_iff, pure_apply, Option.some.injEq,
        Prod.mk.injEq] at generated
      obtain ⟨⟨leftCode, _⟩, leftFound, ⟨rightCode, _⟩, rightFound, rfl, rfl⟩ := generated
      have grows := code_grows fits assigns.1 sound leftFound
      have later := code_grows fits assigns.2 grows.sound rightFound
      rcases List.mem_pair.mp member with rfl | rfl
      · exact (((hasCodeIn_self fits assigns.1 sound leftFound).further later).append _).append _
      · exact ((hasCodeIn_self fits assigns.2 grows.sound rightFound).prepend _).append _
  | conjunction left right =>
      simp only [Expr.code, bind_apply, Option.bind_eq_some_iff, pure_apply, Option.some.injEq,
        Prod.mk.injEq] at generated
      obtain ⟨⟨leftCode, _⟩, leftFound, ⟨rightCode, _⟩, rightFound, ⟨jump, _⟩, jumpFound, rfl,
        rfl⟩ := generated
      obtain ⟨-, rfl, rfl⟩ := jumpOver_eq jumpFound
      have grows := code_grows fits assigns.1 sound leftFound
      have later := code_grows fits assigns.2 grows.sound rightFound
      rcases List.mem_pair.mp member with rfl | rfl
      · exact ((hasCodeIn_self fits assigns.1 sound leftFound).further later).append _
      · exact ((hasCodeIn_self fits assigns.2 grows.sound rightFound).prepend [_, .pop]).prepend _
  | disjunction left right =>
      simp only [Expr.code, bind_apply, Option.bind_eq_some_iff, pure_apply, Option.some.injEq,
        Prod.mk.injEq] at generated
      obtain ⟨⟨leftCode, _⟩, leftFound, ⟨rightCode, _⟩, rightFound, ⟨jump, _⟩, jumpFound, rfl,
        rfl⟩ := generated
      obtain ⟨-, rfl, rfl⟩ := jumpOver_eq jumpFound
      have grows := code_grows fits assigns.1 sound leftFound
      have later := code_grows fits assigns.2 grows.sound rightFound
      rcases List.mem_pair.mp member with rfl | rfl
      · exact ((hasCodeIn_self fits assigns.1 sound leftFound).further later).append _
      · exact ((hasCodeIn_self fits assigns.2 grows.sound rightFound).prepend
          [.jumpIfFalse 3, _, .pop]).prepend _
  | call callee arguments =>
      simp only [Expr.code, bind_apply, Option.bind_eq_some_iff, pure_apply, Option.some.injEq,
        Prod.mk.injEq] at generated
      obtain ⟨⟨calleeCode, _⟩, calleeFound, ⟨argumentCode, _⟩, argumentsFound, ⟨_, _⟩, required,
        rfl, rfl⟩ := generated
      obtain ⟨-, rfl⟩ := require_eq required
      have grows := code_grows fits assigns.1 sound calleeFound
      obtain ⟨later, items⟩ := hasCodeIn_of_itemsCode fits assigns.2 grows.sound argumentsFound
      rcases List.mem_cons.mp member with rfl | isArgument
      · exact (((hasCodeIn_self fits assigns.1 sound calleeFound).further later).append _).append _
      · exact ((items inner isArgument).prepend _).append _
  | property owner name =>
      simp only [Expr.code, bind_apply, Option.bind_eq_some_iff, pure_apply, Option.some.injEq,
        Prod.mk.injEq] at generated
      obtain ⟨⟨ownerCode, _⟩, ownerFound, ⟨index, _⟩, nameFound, rfl, rfl⟩ := generated
      change owner.Assigns IsVariableName at assigns
      have grows := code_grows fits assigns sound ownerFound
      have later := (nameIndex_grows grows.sound nameFound).1
      cases List.mem_singleton.mp member
      exact ((hasCodeIn_self fits assigns sound ownerFound).further later).append _
  | invocation owner name arguments =>
      simp only [Expr.code, bind_apply, Option.bind_eq_some_iff, pure_apply, Option.some.injEq,
        Prod.mk.injEq] at generated
      obtain ⟨⟨ownerCode, _⟩, ownerFound, ⟨index, _⟩, nameFound, ⟨argumentCode, _⟩,
        argumentsFound, ⟨_, _⟩, required, rfl, rfl⟩ := generated
      obtain ⟨-, rfl⟩ := require_eq required
      have grows := code_grows fits assigns.1 sound ownerFound
      have named := (nameIndex_grows grows.sound nameFound).1
      obtain ⟨later, items⟩ := hasCodeIn_of_itemsCode fits assigns.2 named.sound argumentsFound
      rcases List.mem_cons.mp member with rfl | isArgument
      · exact (((hasCodeIn_self fits assigns.1 sound ownerFound).further
          (named.trans later)).append _).append _
      · exact ((items inner isArgument).prepend _).append _
  | subscript owner index =>
      simp only [Expr.code, bind_apply, Option.bind_eq_some_iff, pure_apply, Option.some.injEq,
        Prod.mk.injEq] at generated
      obtain ⟨⟨ownerCode, _⟩, ownerFound, ⟨indexCode, _⟩, indexFound, rfl, rfl⟩ := generated
      have grows := code_grows fits assigns.1 sound ownerFound
      have later := code_grows fits assigns.2 grows.sound indexFound
      rcases List.mem_pair.mp member with rfl | rfl
      · exact (((hasCodeIn_self fits assigns.1 sound ownerFound).further later).append _).append _
      · exact ((hasCodeIn_self fits assigns.2 grows.sound indexFound).prepend _).append _
  | assignName name value =>
      simp only [Expr.code, bind_apply, Option.bind_eq_some_iff, pure_apply, Option.some.injEq,
        Prod.mk.injEq] at generated
      obtain ⟨⟨target, _⟩, found, ⟨_, _⟩, writable, ⟨valueCode, _⟩, valueFound, rfl, rfl⟩ :=
        generated
      obtain rfl := requireWritable_eq writable
      have grows := (reference_grows sound found).1
      cases List.mem_singleton.mp member
      exact (hasCodeIn_self fits assigns.2 grows.sound valueFound).append _
  | assignProperty owner name value =>
      simp only [Expr.code, bind_apply, Option.bind_eq_some_iff, pure_apply, Option.some.injEq,
        Prod.mk.injEq] at generated
      obtain ⟨⟨ownerCode, _⟩, ownerFound, ⟨index, _⟩, nameFound, ⟨valueCode, _⟩, valueFound,
        rfl, rfl⟩ := generated
      have grows := code_grows fits assigns.1 sound ownerFound
      have named := (nameIndex_grows grows.sound nameFound).1
      have later := code_grows fits assigns.2 named.sound valueFound
      rcases List.mem_pair.mp member with rfl | rfl
      · exact (((hasCodeIn_self fits assigns.1 sound ownerFound).further
          (named.trans later)).append _).append _
      · exact ((hasCodeIn_self fits assigns.2 named.sound valueFound).prepend _).append _
  | assignSubscript owner index value =>
      simp only [Expr.code, bind_apply, Option.bind_eq_some_iff, pure_apply, Option.some.injEq,
        Prod.mk.injEq] at generated
      obtain ⟨⟨ownerCode, _⟩, ownerFound, ⟨indexCode, _⟩, indexFound, ⟨valueCode, _⟩,
        valueFound, rfl, rfl⟩ := generated
      have grows := code_grows fits assigns.1 sound ownerFound
      have further := code_grows fits assigns.2.1 grows.sound indexFound
      have later := code_grows fits assigns.2.2 further.sound valueFound
      rcases List.mem_cons.mp member with rfl | isOther
      · exact ((((hasCodeIn_self fits assigns.1 sound ownerFound).further
          (further.trans later)).append _).append _).append _
      · rcases List.mem_pair.mp isOther with rfl | rfl
        · exact ((((hasCodeIn_self fits assigns.2.1 grows.sound indexFound).further
            later).prepend _).append _).append _
        · exact ((hasCodeIn_self fits assigns.2.2 further.sound valueFound).prepend _).append _

/-- Every part of an expression has its code in the code of the whole. -/
theorem Expr.Contains.hasCodeIn
    (contains : tree.Contains part)
    (assigns : tree.Assigns IsVariableName)
    (sound : before.Sound)
    (generated : tree.code surroundings before = some (instructions, after)) :
    part.HasCodeIn surroundings instructions after := by
  induction contains generalizing before instructions after with
  | refl => exact hasCodeIn_self fits assigns sound generated
  | operand member contains induction =>
      rcases hasCodeIn_of_operand fits assigns sound generated member with
        ⟨rfl, innerAssigns, innerSound, innerGenerated, grows⟩
      exact (((induction innerAssigns innerSound innerGenerated).further grows).prepend _).append _

end Fitting

end Parts

end ScriptEngine.Syntax
