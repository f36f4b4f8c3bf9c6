import ScriptEngine.Proofs.Code.Pool
import ScriptEngine.Proofs.Compiler.Effect

/-!
# What a compilation accumulates

Whether it succeeds or not, a compilation changes the table of its module in one
way only: it declares names.  All functions that it finishes belong to the module.
`Compiler.Accumulates` is an effect that every routine has.
-/

namespace ScriptEngine

namespace Module

theorem find?_declare
    {table : Module}
    {name : String}
    {slot : Nat}
    (found : table.find? name = some slot)
    (other : String) :
    (table.declare other).2.find? name = some slot := by
  rcases table.declare_cases other with ⟨_, -, same⟩ | ⟨missing, -, appended⟩ | ⟨-, -, same⟩
  · rwa [same]
  · rw [appended, find?_append, if_neg, found]
    rintro rfl
    rw [missing] at found
    cases found
  · rwa [same]

/-- Names have been declared in a table. -/
inductive Grows (before : Module) : Module → Prop where
  | same : Grows before before
  | declare {between : Module} (earlier : Grows before between) (name : String) :
      Grows before (between.declare name).2

namespace Grows

variable {before between after : Module}

theorem trans (first : Grows before between) (second : Grows between after) :
    Grows before after := by
  induction second with
  | same => exact first
  | declare _ name induction => exact induction.declare name

theorem indexed (grows : Grows before after) (indexed : before.Indexed) : after.Indexed := by
  induction grows with
  | same => exact indexed
  | declare _ name induction => exact induction.declare name

theorem find? (grows : Grows before after) {name : String} {slot : Nat}
    (found : before.find? name = some slot) : after.find? name = some slot := by
  induction grows with
  | same => exact found
  | declare _ name induction => exact find?_declare induction name

theorem size_le (grows : Grows before after) : before.size ≤ after.size := by
  induction grows with
  | same => exact Nat.le_refl _
  | declare _ name induction => exact Nat.le_trans induction (size_le_declare _ name)

/-- A table that is full does not change. -/
theorem eq_of_full (grows : Grows before after) (full : Module.maxVariables ≤ before.size) :
    after = before := by
  induction grows with
  | same => rfl
  | @declare between _ name same =>
      subst same
      rcases between.declare_cases name with ⟨_, -, kept⟩ | ⟨-, room, -⟩ | ⟨-, -, kept⟩
      · rw [kept]
      · exact absurd full (Nat.not_le_of_lt room)
      · rw [kept]

/-- A new variable is not assigned. -/
theorem mem_values
    (grows : Grows before after)
    {value : Value}
    (member : value ∈ after.values) :
    value ∈ before.values ∨ value = .undefined := by
  induction grows with
  | same => exact .inl member
  | @declare between _ name induction =>
      unfold Module.declare at member
      split at member
      · exact induction member
      · simp only at member
        split at member
        · rcases Array.mem_push.mp member with old | new
          · exact induction old
          · exact .inr new
        · exact induction member

end Grows

end Module

namespace Compiler

/-- Names have been declared and functions of the module have been finished. -/
structure Gains (before after : Compilation) : Prop where
  table : Module.Grows before.table after.table
  home : after.home = before.home
  finished :
    (∀ function ∈ before.finished, function.home = before.home) →
      ∀ function ∈ after.finished, function.home = before.home

theorem Gains.trans
    {before between after : Compilation}
    (first : Gains before between)
    (second : Gains between after) :
    Gains before after where
  table := first.table.trans second.table
  home := second.home.trans first.home
  finished := by
    intro belong
    rw [← first.home]
    apply second.finished
    rw [first.home]
    exact first.finished belong

/-- Whether a step fails or not, it only declares names and finishes functions. -/
def Accumulates : Effect :=
  fun before _ after => Gains before after

namespace Accumulates

/-- A step that touches neither the table nor the finished functions. -/
theorem of_same
    {before after : Compilation}
    (table : after.table = before.table)
    (home : after.home = before.home)
    (finished : after.finished = before.finished) :
    Gains before after := by
  constructor
  · rw [table]
    exact .same
  · exact home
  · rw [finished]
    exact id

/-- The only step that finishes a function. -/
theorem finishFunction (state : Compilation) : Gains state (finishFunction state).2 := by
  have belong :
      ∀ last : Function,
        last.home = state.home →
        (∀ function ∈ state.finished, function.home = state.home) →
          ∀ function ∈ state.finished.push last, function.home = state.home := by
    intro last home earlier function member
    rcases Array.mem_push.mp member with old | rfl
    · exact earlier function old
    · exact home
  unfold Compiler.finishFunction
  simp only
  split <;> exact ⟨.same, rfl, belong _ rfl⟩

instance lawful : Accumulates.Lawful where
  nothing _ := of_same rfl rfl rfl
  andThen := Gains.trans
  advance state := by
    apply of_same <;> · rw [Compilation.advance]; split <;> rfl
  stop _ _ _ := of_same rfl rfl rfl
  write _ _ _ := of_same rfl rfl rfl
  declare _ name := ⟨.declare .same name, rfl, id⟩
  finish := finishFunction

/-- Too deep a text changes nothing either. -/
instance expressionWithin (levels : Nat) (least : Precedence) :
    Has Accumulates (expressionWithin levels least) := by
  induction levels generalizing least with
  | zero => exact ⟨fun _ => of_same rfl rfl rfl⟩
  | succ levels induction => exact Has.operators least

instance codeWithin (levels : Nat) (form : CodeForm) :
    Has Accumulates (codeWithin levels form) := by
  induction levels generalizing form with
  | zero => exact ⟨fun _ => of_same rfl rfl rfl⟩
  | succ levels induction => exact Has.body form

theorem script (levels : Nat) (mode : CompileMode) (state : Compilation) :
    Gains state (script levels mode state).2 :=
  (inferInstance : Has Accumulates (Compiler.script levels mode)).has state

end Accumulates

end Compiler

/-- The table of a module after a compilation, also after one that failed. -/
theorem grows_compile
    (mode : CompileMode)
    (source : String)
    (table : Module)
    (home firstFunction : Nat) :
    Module.Grows table (compile mode source table home firstFunction).table := by
  unfold compile
  split
  · exact .same
  · rename_i tokens _
    have gains := Compiler.Accumulates.script Compiler.maxNesting mode
      (Compiler.start tokens table home firstFunction)
    unfold Compiler.compileTokens
    split
    · rename_i final outcome
      rw [outcome] at gains
      exact gains.table
    · rename_i final outcome
      rw [outcome] at gains
      exact gains.table

/-- The functions of a text belong to the module for which it was compiled. -/
theorem home_of_compile
    {mode : CompileMode}
    {source : String}
    {table : Module}
    {home firstFunction : Nat}
    {functions : Array Function}
    (success : (compile mode source table home firstFunction).functions = .ok functions) :
    ∀ function ∈ functions, function.home = home := by
  unfold compile at success
  split at success
  · cases success
  · rename_i tokens _
    have gains := Compiler.Accumulates.script Compiler.maxNesting mode
      (Compiler.start tokens table home firstFunction)
    unfold Compiler.compileTokens at success
    split at success
    · rename_i final outcome
      rw [outcome] at gains
      cases success
      exact gains.finished nofun
    · cases success

end ScriptEngine
