import ScriptEngine.Proofs.Compiler.ExpressionFlow

/-!
# The operands of an expression

While an expression is evaluated the stack grows above the height at which the evaluation
begins and shrinks to it at most: the code of the expression takes only operands that it has
pushed itself, and of what lies below it addresses local variables only (`Climbs`).  Its jumps
lead forward, to instructions of the code or to its end.
-/

namespace ScriptEngine

/-- The local variable that an instruction addresses, if it addresses one, is one of the first. -/
def Instruction.LocalsBelow (locals : Nat) : Instruction → Prop
  | getLocal slot | setLocal slot => slot.toNat < locals
  | _ => True

/--
Code that is entered with a number of operands and left behind its end with `final` operands.
Every instruction finds its operands among them.
-/
inductive Climbs (locals final : Nat) : Nat → List Instruction → Prop where
  | done : Climbs locals final final []
  | next
      {height : Nat}
      {instruction : Instruction}
      {rest : List Instruction}
      (straight : instruction.isStraight = true)
      (takes : instruction.takes ≤ height)
      (below : instruction.LocalsBelow locals)
      (onward : Climbs locals final (height - instruction.takes + instruction.gives) rest) :
      Climbs locals final height (instruction :: rest)
  /-- A part may be skipped if the value on top fails. -/
  | skip
      {height : Nat}
      {skipped rest : List Instruction}
      (positive : 0 < height)
      (near : Instruction.totalLength skipped ≤ Chunk.maxDistance)
      (through : Climbs locals final height (skipped ++ rest))
      (across : Climbs locals final height rest) :
      Climbs locals final height
        (.jumpIfFalse (UInt16.ofNat (Instruction.totalLength skipped)) :: (skipped ++ rest))
  /-- A part is skipped. -/
  | leap
      {height : Nat}
      {skipped rest : List Instruction}
      (near : Instruction.totalLength skipped ≤ Chunk.maxDistance)
      (across : Climbs locals final height rest) :
      Climbs locals final height
        (.jump (UInt16.ofNat (Instruction.totalLength skipped)) :: (skipped ++ rest))

namespace Climbs

open Syntax Syntax.Generator

variable {locals final height : Nat} {rest : List Instruction}

/-- Reading a variable pushes one value. -/
theorem read
    {target : Compiler.Reference}
    (below : target.read.LocalsBelow locals)
    (onward : Climbs locals final (height + 1) rest) :
    Climbs locals final height (target.read :: rest) := by
  cases target <;> exact .next rfl (Nat.zero_le _) below onward

/-- An instruction that finds its operands, and leaves one value more than there were. -/
theorem one
    (operands : Nat)
    {instruction : Instruction}
    (straight : instruction.isStraight = true)
    (takes : instruction.takes = operands + 1)
    (gives : instruction.gives = 1)
    (below : instruction.LocalsBelow locals)
    (onward : Climbs locals final (height + 1) rest) :
    Climbs locals final (height + 1 + operands) (instruction :: rest) := by
  refine .next straight (by omega) below ?_
  have same : height + 1 + operands - instruction.takes + instruction.gives = height + 1 := by
    omega
  rw [same]
  exact onward

theorem discard
    (onward : Climbs locals final height rest) :
    Climbs locals final (height + 1) (.pop :: rest) :=
  .next rfl (Nat.succ_pos _) trivial onward

/-- A part of one jump may be skipped. -/
theorem skipOne
    {distance : UInt16}
    (positive : 0 < height)
    (through : Climbs locals final height (.jump distance :: rest))
    (across : Climbs locals final height rest) :
    Climbs locals final height (.jumpIfFalse 3 :: .jump distance :: rest) :=
  have near : Instruction.totalLength [.jump distance] ≤ Chunk.maxDistance :=
    (by decide : 3 ≤ Chunk.maxDistance)
  .skip positive near through across

/-- The instruction that pushes a constant. -/
theorem constant
    {value : Value}
    {resources after : Resources}
    {instruction : Instruction}
    (found : constant value resources = some (instruction, after))
    (onward : Climbs locals final (height + 1) rest) :
    Climbs locals final height (instruction :: rest) := by
  simp only [Generator.constant, bind_apply, Option.bind_eq_some_iff, pure_apply,
    Option.some.injEq, Prod.mk.injEq] at found
  obtain ⟨⟨index, _⟩, -, rfl, rfl⟩ := found
  unfold pushConstant
  split <;> exact .next rfl (Nat.zero_le _) trivial onward

/-- The instructions of an operator with two operands. -/
theorem binary
    (operator : BinaryOperator)
    (onward : Climbs locals final (height + 1) rest) :
    Climbs locals final (height + 1 + 1) (binaryInstructions operator ++ rest) := by
  have negated : Climbs locals final (height + 1) (.negateTruth :: rest) :=
    .one 0 rfl rfl rfl trivial onward
  cases operator with
  | notEqual | greaterEqual | lessEqual => exact .one 1 rfl rfl rfl trivial negated
  | _ => exact .one 1 rfl rfl rfl trivial onward

/-- Writing a variable leaves the value. -/
theorem write
    {target : Compiler.Reference}
    (below : target.write.LocalsBelow locals)
    (onward : Climbs locals final (height + 1) rest) :
    Climbs locals final (height + 1) (target.write :: rest) := by
  cases target <;> exact .next rfl (Nat.succ_pos _) below onward

end Climbs

namespace Syntax

open Generator

variable {locals final : Nat} {surroundings : Surroundings}

/-- Every local variable that a name can refer to is one of the first. -/
structure Surroundings.Below (surroundings : Surroundings) (locals : Nat) : Prop where
  positive : 0 < locals
  inside :
    ∀ name slot,
      surroundings.scope.resolve name = .ok (some slot) → slot < locals ∧ slot < Scope.maxLocals

theorem Surroundings.Below.of_fits
    (fits : surroundings.scope.Fits locals) :
    surroundings.Below locals :=
  ⟨fits.positive, fits.inside⟩

/-- A reference is to a variable of the module or to one of the first local variables. -/
theorem reference_below
    (below : surroundings.Below locals)
    {name : String}
    {resources after : Resources}
    {target : Compiler.Reference}
    (generated : reference surroundings name resources = some (target, after)) :
    target.read.LocalsBelow locals ∧ target.write.LocalsBelow locals := by
  cases target with
  | moduleSlot slot => exact ⟨trivial, trivial⟩
  | localSlot slot =>
      have resolved : surroundings.scope.resolve name = .ok (some slot) := by
        rcases resolved : surroundings.scope.resolve name with problem | (_ | other)
        · simp only [reference, resolved] at generated
          cases generated
        · simp only [reference, resolved, bind_apply, pure_apply, Option.bind_eq_some_iff,
            Option.some.injEq, Prod.mk.injEq] at generated
          obtain ⟨_, -, _, -, isModule, -⟩ := generated
          cases isModule
        · cases reference_of_local resolved generated
          rfl
      rcases below.inside name slot resolved with ⟨inside, small⟩
      have same : (UInt8.ofNat slot).toNat < locals := by
        rw [toNat_localSlot small]
        exact inside
      exact ⟨same, same⟩

mutual

/-- The code of an expression takes nothing from below, and leaves one value. -/
theorem Expr.code_climbs
    (tree : Expr)
    (below : surroundings.Below locals)
    {before after : Resources}
    {instructions : List Instruction}
    (generated : tree.code surroundings before = some (instructions, after))
    {height : Nat}
    {rest : List Instruction}
    (onward : Climbs locals final (height + 1) rest) :
    Climbs locals final height (instructions ++ rest) := by
  cases tree with
  | number value =>
      simp only [Expr.code, bind_apply, Option.bind_eq_some_iff, pure_apply, Option.some.injEq,
        Prod.mk.injEq] at generated
      obtain ⟨⟨instruction, _⟩, found, rfl, rfl⟩ := generated
      exact .constant found onward
  | string content =>
      simp only [Expr.code, bind_apply, Option.bind_eq_some_iff, pure_apply, Option.some.injEq,
        Prod.mk.injEq] at generated
      obtain ⟨⟨instruction, _⟩, found, rfl, rfl⟩ := generated
      exact .constant found onward
  | literal word =>
      simp only [Expr.code, pure_apply, Option.some.injEq, Prod.mk.injEq] at generated
      obtain ⟨rfl, rfl⟩ := generated
      cases word <;> exact .next rfl (Nat.zero_le _) trivial onward
  | named name =>
      simp only [Expr.code, bind_apply, Option.bind_eq_some_iff, pure_apply, Option.some.injEq,
        Prod.mk.injEq] at generated
      obtain ⟨⟨target, _⟩, found, rfl, rfl⟩ := generated
      exact .read (reference_below below found).1 onward
  | receiver =>
      simp only [Expr.code, bind_apply, Option.bind_eq_some_iff, pure_apply, Option.some.injEq,
        Prod.mk.injEq] at generated
      obtain ⟨-, -, rfl, rfl⟩ := generated
      exact .next rfl (Nat.zero_le _) below.positive onward
  | grouping inner =>
      rw [Expr.code] at generated
      exact inner.code_climbs below generated onward
  | array elements =>
      simp only [Expr.code, bind_apply, Option.bind_eq_some_iff, pure_apply, Option.some.injEq,
        Prod.mk.injEq] at generated
      obtain ⟨⟨push, named⟩, -, ⟨filling, _⟩, filled, rfl, rfl⟩ := generated
      have pushes {higher : Nat} {rest : List Instruction} (bound : height + 1 ≤ higher)
          (onward : Climbs locals final (higher + 0) rest) :
          Climbs locals final (higher + 1) ([Instruction.invoke push 1] ++ rest) := by
        obtain ⟨fewer, rfl⟩ := Nat.exists_eq_add_of_le' (Nat.le_of_add_left_le bound)
        exact .one 1 rfl rfl rfl trivial onward
      have fill := itemsCode_climbs elements 0 below filled pushes (by rwa [Nat.zero_mul])
      exact .next rfl (Nat.zero_le _) trivial (.one 0 rfl rfl rfl trivial fill)
  | unary operator operand =>
      simp only [Expr.code, bind_apply, Option.bind_eq_some_iff, pure_apply, Option.some.injEq,
        Prod.mk.injEq] at generated
      obtain ⟨⟨operandCode, _⟩, found, rfl, rfl⟩ := generated
      rw [List.append_assoc]
      refine operand.code_climbs below found ?_
      cases operator <;> exact .one 0 rfl rfl rfl trivial onward
  | binary operator left right =>
      simp only [Expr.code, bind_apply, Option.bind_eq_some_iff, pure_apply, Option.some.injEq,
        Prod.mk.injEq] at generated
      obtain ⟨⟨leftCode, _⟩, leftFound, ⟨rightCode, _⟩, rightFound, rfl, rfl⟩ := generated
      rw [List.append_assoc, List.append_assoc]
      exact left.code_climbs below leftFound
        (right.code_climbs below rightFound (.binary operator onward))
  | conjunction left right =>
      simp only [Expr.code, bind_apply, Option.bind_eq_some_iff, pure_apply, Option.some.injEq,
        Prod.mk.injEq] at generated
      obtain ⟨⟨leftCode, _⟩, leftFound, ⟨rightCode, _⟩, rightFound, ⟨jump, _⟩, jumpFound, rfl,
        rfl⟩ := generated
      obtain ⟨near, rfl, rfl⟩ := jumpOver_eq jumpFound
      rw [List.append_assoc]
      refine left.code_climbs below leftFound (.skip (Nat.succ_pos _) near ?_ onward)
      exact .discard (right.code_climbs below rightFound onward)
  | disjunction left right =>
      simp only [Expr.code, bind_apply, Option.bind_eq_some_iff, pure_apply, Option.some.injEq,
        Prod.mk.injEq] at generated
      obtain ⟨⟨leftCode, _⟩, leftFound, ⟨rightCode, _⟩, rightFound, ⟨jump, _⟩, jumpFound, rfl,
        rfl⟩ := generated
      obtain ⟨near, rfl, rfl⟩ := jumpOver_eq jumpFound
      rw [List.append_assoc]
      refine left.code_climbs below leftFound
        (.skipOne (Nat.succ_pos _) (.leap near onward) ?_)
      exact .discard (right.code_climbs below rightFound onward)
  | call callee arguments =>
      simp only [Expr.code, bind_apply, Option.bind_eq_some_iff, pure_apply, Option.some.injEq,
        Prod.mk.injEq] at generated
      obtain ⟨⟨calleeCode, _⟩, calleeFound, ⟨argumentCode, _⟩, argumentsFound, ⟨_, _⟩, required,
        rfl, rfl⟩ := generated
      obtain ⟨few, rfl⟩ := require_eq required
      rw [List.append_assoc, List.append_assoc]
      refine callee.code_climbs below calleeFound
        (itemsCode_climbs arguments 1 below argumentsFound (fun _ => id) ?_)
      refine .one _ rfl ?_ rfl trivial onward
      show (UInt8.ofNat arguments.length).toNat + 1 = _
      rw [toNat_argumentCount (of_decide_eq_true few), Nat.one_mul]
  | property owner name =>
      simp only [Expr.code, bind_apply, Option.bind_eq_some_iff, pure_apply, Option.some.injEq,
        Prod.mk.injEq] at generated
      obtain ⟨⟨ownerCode, _⟩, ownerFound, ⟨index, _⟩, -, rfl, rfl⟩ := generated
      rw [List.append_assoc]
      exact owner.code_climbs below ownerFound (.one 0 rfl rfl rfl trivial onward)
  | invocation owner name arguments =>
      simp only [Expr.code, bind_apply, Option.bind_eq_some_iff, pure_apply, Option.some.injEq,
        Prod.mk.injEq] at generated
      obtain ⟨⟨ownerCode, _⟩, ownerFound, ⟨index, _⟩, -, ⟨argumentCode, _⟩,
        argumentsFound, ⟨_, _⟩, required, rfl, rfl⟩ := generated
      obtain ⟨few, rfl⟩ := require_eq required
      rw [List.append_assoc, List.append_assoc]
      refine owner.code_climbs below ownerFound
        (itemsCode_climbs arguments 1 below argumentsFound (fun _ => id) ?_)
      refine .one _ rfl ?_ rfl trivial onward
      show (UInt8.ofNat arguments.length).toNat + 1 = _
      rw [toNat_argumentCount (of_decide_eq_true few), Nat.one_mul]
  | subscript owner index =>
      simp only [Expr.code, bind_apply, Option.bind_eq_some_iff, pure_apply, Option.some.injEq,
        Prod.mk.injEq] at generated
      obtain ⟨⟨ownerCode, _⟩, ownerFound, ⟨indexCode, _⟩, indexFound, rfl, rfl⟩ := generated
      rw [List.append_assoc, List.append_assoc]
      exact owner.code_climbs below ownerFound
        (index.code_climbs below indexFound (.one 1 rfl rfl rfl trivial onward))
  | assignName name value =>
      simp only [Expr.code, bind_apply, Option.bind_eq_some_iff, pure_apply, Option.some.injEq,
        Prod.mk.injEq] at generated
      obtain ⟨⟨target, _⟩, found, ⟨_, _⟩, writable, ⟨valueCode, _⟩, valueFound, rfl, rfl⟩ :=
        generated
      rw [List.append_assoc]
      exact value.code_climbs below valueFound (.write (reference_below below found).2 onward)
  | assignProperty owner name value =>
      simp only [Expr.code, bind_apply, Option.bind_eq_some_iff, pure_apply, Option.some.injEq,
        Prod.mk.injEq] at generated
      obtain ⟨⟨ownerCode, _⟩, ownerFound, ⟨index, _⟩, -, ⟨valueCode, _⟩, valueFound,
        rfl, rfl⟩ := generated
      rw [List.append_assoc, List.append_assoc]
      exact owner.code_climbs below ownerFound
        (value.code_climbs below valueFound (.one 1 rfl rfl rfl trivial onward))
  | assignSubscript owner index value =>
      simp only [Expr.code, bind_apply, Option.bind_eq_some_iff, pure_apply, Option.some.injEq,
        Prod.mk.injEq] at generated
      obtain ⟨⟨ownerCode, _⟩, ownerFound, ⟨indexCode, _⟩, indexFound, ⟨valueCode, _⟩,
        valueFound, rfl, rfl⟩ := generated
      rw [List.append_assoc, List.append_assoc, List.append_assoc]
      exact owner.code_climbs below ownerFound
        (index.code_climbs below indexFound
          (value.code_climbs below valueFound (.one 2 rfl rfl rfl trivial onward)))

/-- Expressions one after the other, each of which leaves `gain` values together with its suffix. -/
theorem itemsCode_climbs
    (items : List Expr)
    (gain : Nat)
    (below : surroundings.Below locals)
    {suffix : List Instruction}
    {before after : Resources}
    {instructions : List Instruction}
    (generated : itemsCode surroundings suffix items before = some (instructions, after))
    {height : Nat}
    (suffixClimbs :
      ∀ {higher : Nat} {rest : List Instruction},
        height ≤ higher →
        Climbs locals final (higher + gain) rest →
          Climbs locals final (higher + 1) (suffix ++ rest))
    {rest : List Instruction}
    (onward : Climbs locals final (height + gain * items.length) rest) :
    Climbs locals final height (instructions ++ rest) := by
  cases items with
  | nil =>
      simp only [itemsCode, pure_apply, Option.some.injEq, Prod.mk.injEq] at generated
      obtain ⟨rfl, rfl⟩ := generated
      exact onward
  | cons first others =>
      simp only [itemsCode, bind_apply, Option.bind_eq_some_iff, pure_apply, Option.some.injEq,
        Prod.mk.injEq] at generated
      obtain ⟨⟨firstCode, between⟩, firstFound, ⟨restCode, _⟩, restFound, rfl, rfl⟩ := generated
      rw [List.append_assoc, List.append_assoc]
      have total : height + gain * (first :: others).length =
          height + gain + gain * others.length := by
        rw [List.length_cons, Nat.mul_succ]
        omega
      rw [total] at onward
      refine first.code_climbs below firstFound (suffixClimbs (Nat.le_refl height) ?_)
      exact itemsCode_climbs others gain below restFound
        (fun bound => suffixClimbs (Nat.le_trans (Nat.le_add_right height gain) bound)) onward

end

end Syntax

/-! ## Places in the code of a function -/

/-- Instructions stand in the code of a function from an offset on. -/
def Function.HasCodeAt (function : Function) (offset : Nat) (instructions : List Instruction) :
    Prop :=
  ∃ earlier later : List UInt8,
    function.chunk.code.toList = earlier ++ Instruction.encode instructions ++ later ∧
      earlier.length = offset

namespace Function.HasCodeAt

variable {function : Function} {offset : Nat} {first second rest : List Instruction}

theorem left (written : function.HasCodeAt offset (first ++ second)) :
    function.HasCodeAt offset first := by
  rcases written with ⟨earlier, later, code, isOffset⟩
  refine ⟨earlier, Instruction.encode second ++ later, ?_, isOffset⟩
  simpa using code

theorem right (written : function.HasCodeAt offset (first ++ second)) :
    function.HasCodeAt (offset + Instruction.totalLength first) second := by
  rcases written with ⟨earlier, later, code, rfl⟩
  refine ⟨earlier ++ Instruction.encode first, later, ?_, by simp⟩
  simpa using code

theorem tail
    {instruction : Instruction}
    (written : function.HasCodeAt offset (instruction :: rest)) :
    function.HasCodeAt (offset + instruction.length) rest := by
  have split : function.HasCodeAt offset ([instruction] ++ rest) := written
  exact split.right

theorem decoded
    {instruction : Instruction}
    (written : function.HasCodeAt offset (instruction :: rest)) :
    Instruction.decode function.chunk.code offset = .complete instruction := by
  rcases written with ⟨earlier, later, code, rfl⟩
  have whole :
      function.chunk.code =
        (earlier ++ instruction.bytes ++ (Instruction.encode rest ++ later)).toArray := by
    apply Array.toList_inj.mp
    simpa using code
  rw [whole]
  exact Instruction.decode_append _ _ _

end Function.HasCodeAt

/-- Code that ends at an offset goes on from another one with a number of operands. -/
def Function.ClimbsAt (function : Function) (locals final height offset ending : Nat) : Prop :=
  ∃ rest,
    function.HasCodeAt offset rest ∧
      offset + Instruction.totalLength rest = ending ∧ Climbs locals final height rest

/-- An instruction that works on operands and on the first local variables, and where it leads. -/
structure Function.ClimbsBy (function : Function) (locals final height offset ending : Nat)
    (instruction : Instruction) : Prop where
  decoded : Instruction.decode function.chunk.code offset = .complete instruction
  inside : offset < ending
  takes : instruction.takes ≤ height
  below : instruction.LocalsBelow locals
  stays : instruction ≠ .leave
  onward :
    ∀ target ∈ instruction.successors offset,
      offset < target ∧
        function.ClimbsAt locals final (height - instruction.takes + instruction.gives) target
          ending

namespace Function.ClimbsAt

variable {function : Function} {locals final height offset ending : Nat}

theorem next
    {instruction : Instruction}
    {rest : List Instruction}
    (written : function.HasCodeAt offset (instruction :: rest))
    (climbs : Climbs locals final height rest) :
    offset < offset + instruction.length ∧
      function.ClimbsAt locals final height (offset + instruction.length)
        (offset + Instruction.totalLength (instruction :: rest)) := by
  refine ⟨Nat.lt_add_of_pos_right instruction.length_pos, rest, written.tail, ?_, climbs⟩
  rw [Instruction.totalLength_cons, Nat.add_assoc]

theorem past
    {instruction : Instruction}
    {skipped rest : List Instruction}
    (near : Instruction.totalLength skipped ≤ Chunk.maxDistance)
    (length : instruction.length = 3)
    (written : function.HasCodeAt offset (instruction :: (skipped ++ rest)))
    (climbs : Climbs locals final height rest) :
    offset < offset + 3 + (UInt16.ofNat (Instruction.totalLength skipped)).toNat ∧
      function.ClimbsAt locals final height
        (offset + 3 + (UInt16.ofNat (Instruction.totalLength skipped)).toNat)
        (offset + Instruction.totalLength (instruction :: (skipped ++ rest))) := by
  rw [toNat_ofNat_of_near near]
  refine ⟨by omega, rest, length ▸ written.tail.right, ?_, climbs⟩
  rw [Instruction.totalLength_cons, Instruction.totalLength_append, length]
  omega

/-- The code is at its end, or there is an instruction. -/
theorem cases (climbs : function.ClimbsAt locals final height offset ending) :
    offset = ending ∧ height = final ∨
      ∃ instruction, function.ClimbsBy locals final height offset ending instruction := by
  rcases climbs with ⟨rest, written, rfl, climbs⟩
  cases climbs with
  | done => exact .inl ⟨rfl, rfl⟩
  | @next _ instruction _ straight takes below onward =>
      refine .inr ⟨instruction, written.decoded, ?_, takes, below, ?_, ?_⟩
      · rw [Instruction.totalLength_cons]
        have positive := instruction.length_pos
        omega
      · rintro rfl
        cases straight
      · intro target follows
        rw [Instruction.successors_of_isStraight straight] at follows
        rw [List.mem_singleton.mp follows]
        exact next written onward
  | @skip _ skipped rest positive near through across =>
      have same : height - 1 + 1 = height := Nat.sub_add_cancel positive
      refine .inr ⟨_, written.decoded, ?_, positive, trivial, nofun, ?_⟩
      · exact Nat.lt_add_of_pos_right (Nat.add_pos_left (Instruction.length_pos _) _)
      · intro target follows
        change _ ∧ function.ClimbsAt locals final (height - 1 + 1) _ _
        rw [same]
        rcases List.mem_cons.mp follows with rfl | follows
        · exact next written through
        · rw [List.mem_singleton.mp follows]
          exact past near rfl written across
  | @leap _ skipped rest near across =>
      refine .inr ⟨_, written.decoded, ?_, Nat.zero_le _, trivial, nofun, ?_⟩
      · exact Nat.lt_add_of_pos_right (Nat.add_pos_left (Instruction.length_pos _) _)
      · intro target follows
        rw [List.mem_singleton.mp follows]
        exact past near rfl written across

/-- The code of an expression leaves one value. -/
theorem of_expression
    {tree : Syntax.Expr}
    {surroundings : Syntax.Surroundings}
    (below : surroundings.Below locals)
    {before after : Syntax.Resources}
    {instructions : List Instruction}
    (generated : tree.code surroundings before = some (instructions, after))
    (written : function.HasCodeAt offset instructions) :
    function.ClimbsAt locals 1 0 offset (offset + Instruction.totalLength instructions) := by
  have climbs := tree.code_climbs below generated (Climbs.done : Climbs locals 1 1 [])
  rw [List.append_nil] at climbs
  exact ⟨instructions, written, rfl, climbs⟩

end Function.ClimbsAt

end ScriptEngine
