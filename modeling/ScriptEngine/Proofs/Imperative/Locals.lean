import ScriptEngine.Proofs.Compiler.Invariant
import ScriptEngine.Proofs.Imperative.Interpreter

/-!
# Where local variables lie

The compiler gives every variable of a block a slot, counted from the outermost
block.  On the stack the values of all variables lie in the same order, above the
callee in slot zero.  What the interpreter finds under a name, in the innermost
block that has it, is what lies in the slot of the name, and an assignment changes
nothing else.
-/

namespace ScriptEngine.Imperative

/-- The variables of blocks as the compiler keeps them, latest first. -/
def entriesOf : List Block → List LocalVariable
  | [] => []
  | block :: outer =>
    block.map (fun entry => { name := entry.1, depth := outer.length + 1, initialized := true }) ++
      entriesOf outer

/-- The scope of a place inside blocks. -/
def scopeOf (blocks : List Block) : Scope where
  locals := entriesOf blocks ++ [{ name := "", depth := 0, initialized := true }]
  depth := blocks.length

/-- The values of the variables of blocks, latest first. -/
def valuesOf (blocks : List Block) : List Value :=
  blocks.flatten.map Prod.snd

variable {name : String} {value : Value} {block : Block} {blocks outer : List Block}

theorem valuesOf_cons (block : Block) (outer : List Block) :
    valuesOf (block :: outer) = block.map Prod.snd ++ valuesOf outer := by
  simp [valuesOf]

theorem length_entriesOf (blocks : List Block) :
    (entriesOf blocks).length = (valuesOf blocks).length := by
  induction blocks with
  | nil => rfl
  | cons block outer induction =>
      rw [entriesOf, valuesOf_cons, List.length_append, List.length_append, induction,
        List.length_map, List.length_map]

theorem length_locals_scopeOf (blocks : List Block) :
    (scopeOf blocks).locals.length = (valuesOf blocks).length + 1 := by
  simp [scopeOf, length_entriesOf]

theorem scopeOf_enter (blocks : List Block) : scopeOf ([] :: blocks) = (scopeOf blocks).enter := rfl

theorem scopeOf_declare (name : String) (value : Value) (block : Block) (outer : List Block) :
    scopeOf (((name, value) :: block) :: outer) = (scopeOf (block :: outer)).declared name := rfl

theorem depth_of_mem_entriesOf
    {blocks : List Block}
    {entry : LocalVariable}
    (member : entry ∈ entriesOf blocks) :
    entry.depth ≤ blocks.length := by
  induction blocks with
  | nil => cases member
  | cons block outer induction =>
      rcases List.mem_append.mp member with inner | old
      · rcases List.mem_map.mp inner with ⟨_, -, rfl⟩
        exact Nat.le_refl _
      · exact Nat.le_succ_of_le (induction old)

/-- Leaving a block ends its variables. -/
theorem leave_scopeOf (block : Block) (outer : List Block) :
    (scopeOf (block :: outer)).leave = (block.length, scopeOf outer) := by
  have inner :
      ∀ entry ∈ block.map (fun entry : String × Value =>
          ({ name := entry.1, depth := outer.length + 1, initialized := true } : LocalVariable)),
        (entry.depth == outer.length + 1) = true := by
    intro entry member
    rcases List.mem_map.mp member with ⟨_, -, rfl⟩
    exact beq_self_eq_true _
  have remaining :
      ∀ entry ∈ (scopeOf outer).locals, (entry.depth == outer.length + 1) = false := by
    intro entry member
    rw [beq_eq_false_iff_ne]
    rcases List.mem_append.mp member with old | zero
    · have shallow := depth_of_mem_entriesOf old
      omega
    · rw [List.mem_singleton.mp zero]
      exact (Nat.succ_ne_zero _).symm
  rcases split : (scopeOf outer).locals with _ | ⟨first, rest⟩
  · cases outer <;> simp [scopeOf, entriesOf] at split
  have outside := remaining first (by rw [split]; exact List.mem_cons_self)
  have locals :
      (scopeOf (block :: outer)).locals =
        block.map (fun entry =>
          { name := entry.1, depth := outer.length + 1, initialized := true }) ++
            first :: rest := by
    rw [← split]
    exact List.append_assoc _ _ _
  have depth : (scopeOf (block :: outer)).depth = outer.length + 1 := rfl
  unfold Scope.leave
  rw [locals, depth, List.takeWhile_append_of_pos inner, List.dropWhile_append_of_pos inner]
  simp only [List.takeWhile_cons, List.dropWhile_cons, outside, Bool.false_eq_true, if_false,
    List.append_nil, List.length_map]
  rw [← split]
  rfl

/-- A name stands for a local variable: where the value lies, and what an assignment does. -/
structure IsLocal (name : String) (blocks : List Block) (upper : List Value) (value : Value)
    (lower : List Value) : Prop where
  values : valuesOf blocks = upper ++ value :: lower
  resolved : (scopeOf blocks).resolve name = .ok (some (lower.length + 1))
  found : findLocal? name blocks = some value
  assigned :
    ∀ new,
      ∃ changed,
        assignLocal? name new blocks = some changed ∧
          scopeOf changed = scopeOf blocks ∧ valuesOf changed = upper ++ new :: lower

/-- A name stands for no local variable. -/
structure IsNotLocal (name : String) (blocks : List Block) : Prop where
  resolved : (scopeOf blocks).resolve name = .ok none
  found : findLocal? name blocks = none
  assigned : ∀ new, assignLocal? name new blocks = none

/-- A variable of another name in front changes only where an assignment takes place. -/
theorem assignLocal?_declare
    {other : String}
    (different : other ≠ name)
    (value new : Value)
    (block : Block)
    (outer : List Block) :
    assignLocal? name new (((other, value) :: block) :: outer) =
      (assignLocal? name new (block :: outer)).map fun
        | [] => []
        | changed :: rest => ((other, value) :: changed) :: rest := by
  simp only [assignLocal?, Block.assign?, if_neg different]
  cases block.assign? name new with
  | some changed => rfl
  | none => cases assignLocal? name new outer <;> rfl

theorem IsLocal.declare
    {upper lower : List Value}
    {found : Value}
    {other : String}
    (isLocal : IsLocal name (block :: outer) upper found lower)
    (different : other ≠ name)
    (value : Value) :
    IsLocal name (((other, value) :: block) :: outer) (value :: upper) found lower where
  values := congrArg (value :: ·) isLocal.values
  resolved := by
    have resolved := isLocal.resolved
    simpa [scopeOf_declare, Scope.declared, Scope.resolve, Scope.resolveIn,
      different] using resolved
  found := by
    have found := isLocal.found
    simpa [findLocal?, Block.find?, different] using found
  assigned := by
    intro new
    rcases isLocal.assigned new with ⟨changed, assigned, scope, values⟩
    rcases changed with _ | ⟨first, rest⟩
    · cases congrArg Scope.depth scope
    · refine ⟨((other, value) :: first) :: rest, ?_, ?_, congrArg (value :: ·) values⟩
      · rw [assignLocal?_declare different, assigned]
        rfl
      · rw [scopeOf_declare, scopeOf_declare, scope]

theorem IsNotLocal.declare
    {other : String}
    (isNotLocal : IsNotLocal name (block :: outer))
    (different : other ≠ name)
    (value : Value) :
    IsNotLocal name (((other, value) :: block) :: outer) where
  resolved := by
    have resolved := isNotLocal.resolved
    simpa [scopeOf_declare, Scope.declared, Scope.resolve, Scope.resolveIn,
      different] using resolved
  found := by
    have found := isNotLocal.found
    simpa [findLocal?, Block.find?, different] using found
  assigned := by
    intro new
    rw [assignLocal?_declare different, isNotLocal.assigned new]
    rfl

/-- A variable hides all others of its name. -/
theorem isLocal_declared (name : String) (value : Value) (block : Block) (outer : List Block) :
    IsLocal name (((name, value) :: block) :: outer) [] value (valuesOf (block :: outer)) where
  values := rfl
  resolved := by
    rw [scopeOf_declare, Scope.resolve_declared, length_locals_scopeOf]
  found := by
    simp [findLocal?, Block.find?]
  assigned := by
    intro new
    refine ⟨((name, new) :: block) :: outer, ?_, rfl, rfl⟩
    simp [assignLocal?, Block.assign?]

/-- The compiler and the interpreter find the same variables in blocks. -/
theorem isLocal_or_isNotLocal
    (isName : IsVariableName name)
    (blocks : List Block) :
    (∃ upper value lower, IsLocal name blocks upper value lower) ∨ IsNotLocal name blocks := by
  induction blocks with
  | nil =>
      refine .inr ⟨?_, rfl, fun _ => rfl⟩
      have other : ("" == name) = false := beq_eq_false_iff_ne.mpr isName.1.symm
      simp [scopeOf, entriesOf, Scope.resolve, Scope.resolveIn, other]
  | cons block outer outerInduction =>
      induction block with
      | nil =>
          rcases outerInduction with ⟨upper, value, lower, isLocal⟩ | isNotLocal
          · refine .inl ⟨upper, value, lower, isLocal.values, isLocal.resolved, isLocal.found, ?_⟩
            intro new
            rcases isLocal.assigned new with ⟨changed, assigned, scope, values⟩
            refine ⟨[] :: changed, ?_, ?_, values⟩
            · simp [assignLocal?, Block.assign?, assigned]
            · rw [scopeOf_enter, scopeOf_enter, scope]
          · refine .inr ⟨isNotLocal.resolved, isNotLocal.found, fun new => ?_⟩
            simp [assignLocal?, Block.assign?, isNotLocal.assigned new]
      | cons latest earlier blockInduction =>
          rcases latest with ⟨other, value⟩
          by_cases same : other = name
          · subst same
            exact .inl ⟨_, _, _, isLocal_declared other value earlier outer⟩
          · rcases blockInduction with ⟨upper, found, lower, isLocal⟩ | isNotLocal
            · exact .inl ⟨_, _, _, isLocal.declare same value⟩
            · exact .inr (isNotLocal.declare same value)

/-- What can be resolved while a variable is being initialised does not depend on it. -/
theorem resolve_of_pending
    {scope : Scope}
    {other : String}
    {result : Option Nat}
    (resolved : (scope.pending other).resolve name = .ok result) :
    scope.resolve name = .ok result := by
  unfold Scope.resolve Scope.pending Scope.resolveIn at resolved
  split at resolved
  · cases resolved
  · exact resolved

end ScriptEngine.Imperative
