import ScriptEngine.Compilation.Statement
import ScriptEngine.Proofs.Code.Function
import ScriptEngine.Proofs.Compiler.Expression
import ScriptEngine.Proofs.Compiler.ExpressionFlow
import ScriptEngine.Proofs.Syntax.Soundness

/-!
# The invariant of a compilation

Between two statements the scope is settled: all its variables are initialised,
and the height of the stack is their number.  `Compilation.Sound` collects what
holds at every place of a compilation, also while the initialiser of a variable
is compiled; `Adds` says what a part of a compilation adds to the state.
-/

namespace ScriptEngine

namespace Scope

/--
All variables are initialised, and slot zero has a name that no variable can have.  The others
have been declared in blocks.
-/
structure Settled (scope : Scope) : Prop where
  slotZero :
    ∃ inner zero,
      scope.locals = inner ++ [zero] ∧
        ¬ IsVariableName zero.name ∧ ∀ entry ∈ inner, 0 < entry.depth
  initialized : ∀ entry ∈ scope.locals, entry.initialized = true
  shallow : ∀ entry ∈ scope.locals, entry.depth ≤ scope.depth
  few : scope.locals.length ≤ maxLocals

theorem settled_reserving {name : String} (reserved : ¬ IsVariableName name) :
    (reserving name).Settled where
  slotZero := ⟨[], _, rfl, reserved, nofun⟩
  initialized entry member := by
    rw [List.mem_singleton.mp member]
  shallow entry member := by
    rw [List.mem_singleton.mp member]
    exact Nat.le_refl _
  few := show 1 ≤ maxLocals by decide

theorem resolveIn_eq_some
    {name : String}
    {locals : List LocalVariable}
    {slot : Nat}
    (resolved : resolveIn name locals = .ok (some slot)) :
    ∃ later entry earlier,
      locals = later ++ entry :: earlier ∧
        entry.name = name ∧ entry.initialized = true ∧ slot = earlier.length := by
  induction locals with
  | nil => cases resolved
  | cons latest earlier induction =>
      rw [resolveIn] at resolved
      split at resolved
      · rename_i same
        split at resolved
        · rename_i ready
          cases resolved
          exact ⟨[], latest, earlier, rfl, by simpa using same, ready, rfl⟩
        · cases resolved
      · obtain ⟨later, entry, before, rfl, found⟩ := induction resolved
        exact ⟨latest :: later, entry, before, rfl, found⟩

/-- Every variable of a settled scope lies below the height, also while another is declared. -/
theorem Settled.fits_of_resolve
    {scope other : Scope}
    (settled : scope.Settled)
    (finds :
      ∀ name slot,
        other.resolve name = .ok (some slot) →
          ∃ later entry earlier,
            scope.locals = later ++ entry :: earlier ∧
              entry.name = name ∧ slot = earlier.length) :
    other.Fits scope.locals.length := by
  obtain ⟨inner, zero, split, reserved, -⟩ := settled.slotZero
  have few := settled.few
  refine ⟨by simp [split], ?_, ?_⟩
  · intro name slot resolved
    obtain ⟨later, entry, earlier, found, -, rfl⟩ := finds name slot resolved
    rw [found] at few ⊢
    simp at few ⊢
    omega
  · intro name resolved isVariable
    obtain ⟨later, entry, earlier, found, rfl, none⟩ := finds name 0 resolved
    have empty : earlier = [] := List.length_eq_zero_iff.mp none.symm
    rw [empty, split] at found
    obtain ⟨-, last⟩ := List.append_inj' found rfl
    injection last with same
    rw [same] at reserved
    exact reserved isVariable

theorem Settled.fits {scope : Scope} (settled : scope.Settled) :
    scope.Fits scope.locals.length := by
  refine settled.fits_of_resolve fun name slot resolved => ?_
  obtain ⟨later, entry, earlier, split, named, -, position⟩ := resolveIn_eq_some resolved
  exact ⟨later, entry, earlier, split, named, position⟩

/-- The scope with a variable whose initialiser is still to come. -/
def pending (scope : Scope) (name : String) : Scope :=
  { scope with locals := { name, depth := scope.depth, initialized := false } :: scope.locals }

/-- The scope with another variable. -/
def declared (scope : Scope) (name : String) : Scope :=
  { scope with locals := { name, depth := scope.depth, initialized := true } :: scope.locals }

@[simp]
theorem depth_markInitialized (scope : Scope) : scope.markInitialized.depth = scope.depth := by
  unfold markInitialized
  split <;> rfl

@[simp]
theorem resolve_declared (scope : Scope) (name : String) :
    (scope.declared name).resolve name = .ok (some scope.locals.length) := by
  simp [declared, resolve, resolveIn]

@[simp]
theorem markInitialized_pending (scope : Scope) (name : String) :
    (scope.pending name).markInitialized = scope.declared name := rfl

theorem Settled.fits_pending {scope : Scope} (settled : scope.Settled) (name : String) :
    (scope.pending name).Fits scope.locals.length := by
  refine settled.fits_of_resolve fun used slot resolved => ?_
  obtain ⟨later, entry, earlier, split, named, ready, position⟩ := resolveIn_eq_some resolved
  cases later with
  | nil =>
      obtain ⟨same, -⟩ := List.cons.inj split
      rw [← same] at ready
      cases ready
  | cons first others =>
      obtain ⟨-, rest⟩ := List.cons.inj split
      exact ⟨others, entry, earlier, rest, named, position⟩

/-- Variables have been declared in the present block. -/
structure Declares (before after : Scope) : Prop where
  depth : after.depth = before.depth
  added :
    ∃ new,
      after.locals = new ++ before.locals ∧
        ∀ entry ∈ new,
          entry.depth = before.depth ∧ 0 < entry.depth ∧ entry.initialized = true
  few : after.locals.length ≤ maxLocals

namespace Declares

variable {before between after : Scope}

theorem refl (settled : before.Settled) : Declares before before :=
  ⟨rfl, ⟨[], rfl, by simp⟩, settled.few⟩

theorem trans (first : Declares before between) (second : Declares between after) :
    Declares before after := by
  obtain ⟨new, split, fresh⟩ := first.added
  obtain ⟨newer, newerSplit, newerFresh⟩ := second.added
  refine ⟨second.depth.trans first.depth, ⟨newer ++ new, ?_, ?_⟩, second.few⟩
  · rw [newerSplit, split, List.append_assoc]
  · intro entry member
    rcases List.mem_append.mp member with isNewer | isNew
    · rw [← first.depth]
      exact newerFresh entry isNewer
    · exact fresh entry isNew

theorem settled (declares : Declares before after) (settled : before.Settled) :
    after.Settled := by
  obtain ⟨depth, ⟨new, split, fresh⟩, few⟩ := declares
  obtain ⟨inner, zero, zeroSplit, reserved, deep⟩ := settled.slotZero
  refine ⟨⟨new ++ inner, zero, by rw [split, zeroSplit, List.append_assoc], reserved, ?_⟩, ?_, ?_,
    few⟩
  · intro entry member
    rcases List.mem_append.mp member with isNew | old
    · exact (fresh entry isNew).2.1
    · exact deep entry old
  · intro entry member
    rw [split] at member
    rcases List.mem_append.mp member with isNew | old
    · exact (fresh entry isNew).2.2
    · exact settled.initialized entry old
  · intro entry member
    rw [split] at member
    rw [depth]
    rcases List.mem_append.mp member with isNew | old
    · exact Nat.le_of_eq (fresh entry isNew).1
    · exact settled.shallow entry old

theorem length_le (declares : Declares before after) :
    before.locals.length ≤ after.locals.length := by
  obtain ⟨new, split, -⟩ := declares.added
  rw [split, List.length_append]
  exact Nat.le_add_left _ _

theorem declared
    (deep : 0 < before.depth)
    (room : before.locals.length < maxLocals)
    (name : String) :
    Declares before (before.declared name) := by
  refine ⟨rfl, ⟨[_], rfl, fun entry member => ?_⟩, room⟩
  rw [List.mem_singleton.mp member]
  exact ⟨rfl, deep, rfl⟩

end Declares

theorem Settled.enter {scope : Scope} (settled : scope.Settled) : scope.enter.Settled where
  slotZero := settled.slotZero
  initialized := settled.initialized
  shallow entry member := Nat.le_succ_of_le (settled.shallow entry member)
  few := settled.few

/-- Outside all blocks there are no local variables. -/
theorem Settled.resolve_of_depth
    {scope : Scope}
    (settled : scope.Settled)
    (outside : scope.depth = 0)
    {name : String}
    (isVariable : IsVariableName name) :
    scope.resolve name = .ok none := by
  obtain ⟨inner, zero, split, reserved, deep⟩ := settled.slotZero
  cases inner with
  | nil =>
      have other : (zero.name == name) = false := by
        rw [beq_eq_false_iff_ne]
        rintro rfl
        exact reserved isVariable
      simp [resolve, split, resolveIn, other]
  | cons first rest =>
      have shallow := settled.shallow first (by simp [split])
      have positive := deep first (List.mem_cons_self ..)
      omega

/-- A block that is left takes its variables with it and no others. -/
theorem leave_of_declares
    {before after : Scope}
    (settled : before.Settled)
    (declares : Declares before.enter after) :
    after.leave = (after.locals.length - before.locals.length, before) := by
  obtain ⟨depth, ⟨new, split, fresh⟩, -⟩ := declares
  have newOnes : ∀ entry ∈ new, (entry.depth == after.depth) = true := by
    intro entry member
    rw [(fresh entry member).1, depth]
    exact beq_self_eq_true _
  have oldOnes :
      before.locals.takeWhile (fun entry => entry.depth == after.depth) = [] ∧
        before.locals.dropWhile (fun entry => entry.depth == after.depth) = before.locals := by
    cases locals : before.locals with
    | nil => exact ⟨rfl, rfl⟩
    | cons first rest =>
        have shallow := settled.shallow first (by rw [locals]; exact List.mem_cons_self ..)
        have outside : (first.depth == after.depth) = false := by
          rw [depth]
          simp only [enter, beq_eq_false_iff_ne, ne_eq]
          omega
        simp [outside]
  have locals : after.locals = new ++ before.locals := split
  have ending : after.locals.takeWhile (fun entry => entry.depth == after.depth) = new := by
    rw [locals, List.takeWhile_append_of_pos newOnes, oldOnes.1, List.append_nil]
  have remaining :
      after.locals.dropWhile (fun entry => entry.depth == after.depth) = before.locals := by
    rw [locals, List.dropWhile_append_of_pos newOnes, oldOnes.2]
  have counted : new.length = after.locals.length - before.locals.length := by simp [locals]
  simp only [leave, ending, remaining, counted]
  rw [depth]
  rfl

/-- What declaring a local variable does. -/
theorem declare_eq_ok
    {scope after : Scope}
    {name : String}
    (success : scope.declare name = .ok after) :
    after = scope.pending name ∧ scope.locals.length < maxLocals := by
  unfold declare at success
  split at success
  · cases success
  · split at success
    · rename_i room
      cases success
      exact ⟨rfl, room⟩
    · cases success

end Scope

open Syntax

namespace Compilation

/-- What operands of the present function can refer to. -/
def context (state : Compilation) : CodeContext :=
  state.resources.context

/-- The functions that this compilation has finished, by their positions in the heap. -/
def Knows (state : Compilation) (id : Nat) : Prop :=
  state.firstFunction ≤ id ∧ id < state.firstFunction + state.finished.size

/-- What holds at every place of a compilation. -/
structure Sound (state : Compilation) : Prop where
  resources : state.resources.Sound
  names :
    ∀ token ∈ state.tokens, ∀ name, token.kind = .identifier name → IsVariableName name
  constants : ∀ value ∈ state.draft.chunk.constants, value.IsConstant state.Knows
  finished : ∀ function ∈ state.finished, function.WellTyped state.table.size state.Knows
  /-- The body of a function is a block. -/
  nested : state.draft.role = .script ∨ 0 < state.draft.scope.depth

/-- The identifier that is read next is the name of a variable. -/
theorem Sound.isVariableName_current
    {state : Compilation}
    (sound : state.Sound)
    {name : String}
    (kind : state.current.kind = .identifier name) :
    IsVariableName name := by
  have upcoming : TokenKind.identifier name ∈ state.upcoming := by
    rw [upcoming_eq_cons (by simp [kind, TokenKind.isEnd]), kind]
    exact List.mem_cons_self ..
  obtain ⟨token, inside, same⟩ := List.mem_map.mp upcoming
  exact sound.names token (Array.mem_toList_iff.mp (List.mem_of_mem_drop inside)) name same

/-- The state without what statements can change. -/
def frame (state : Compilation) : Compilation :=
  { state with
    position := 0
    table := default
    finished := #[]
    draft := { state.draft with chunk := {}, scope := { locals := [], depth := 0 } } }

/-- What a part of a compilation adds to the state. -/
structure Adds (before after : Compilation) (instructions : List Instruction) : Prop where
  frame : after.frame = before.frame
  sound : after.Sound
  context : before.context.Extends after.context
  finished : before.finished.toList <+: after.finished.toList
  written : after.written = before.written ++ Instruction.encode instructions

namespace Adds

variable {before between after : Compilation} {first second : List Instruction}

theorem refl (sound : before.Sound) : Adds before before [] :=
  ⟨rfl, sound, .refl _, List.prefix_refl _, by simp⟩

theorem trans (start : Adds before between first) (rest : Adds between after second) :
    Adds before after (first ++ second) where
  frame := rest.frame.trans start.frame
  sound := rest.sound
  context := start.context.trans rest.context
  finished := start.finished.trans rest.finished
  written := by
    rw [rest.written, start.written, Instruction.encode_append, List.append_assoc]

theorem tokens (adds : Adds before after first) : after.tokens = before.tokens :=
  congrArg (fun state => state.tokens) adds.frame

theorem enclosing (adds : Adds before after first) : after.enclosing = before.enclosing :=
  congrArg (fun state => state.enclosing) adds.frame

theorem role (adds : Adds before after first) : after.draft.role = before.draft.role :=
  congrArg (fun state => state.draft.role) adds.frame

theorem arity (adds : Adds before after first) : after.draft.arity = before.draft.arity :=
  congrArg (fun state => state.draft.arity) adds.frame

theorem firstFunction (adds : Adds before after first) :
    after.firstFunction = before.firstFunction :=
  congrArg (fun state => state.firstFunction) adds.frame

/-- Known functions stay known. -/
theorem knows (adds : Adds before after first) (id : Nat) (known : before.Knows id) :
    after.Knows id := by
  have more : before.finished.size ≤ after.finished.size := by
    simpa using adds.finished.length_le
  have same := adds.firstFunction
  unfold Knows at known ⊢
  omega

end Adds

theorem Writes.scope
    {before after : Compilation}
    {instructions : List Instruction}
    (writes : Writes before after instructions) :
    after.draft.scope = before.draft.scope :=
  congrArg (fun state => state.draft.scope) writes.skeleton

/-- A change of code, constants and module variables keeps the invariant. -/
theorem Writes.addsConstants
    {before after : Compilation}
    {instructions : List Instruction}
    (writes : Writes before after instructions)
    (sound : before.Sound)
    (resources : after.resources.Sound)
    (context : before.context.Extends after.context)
    (constants :
      ∀ value ∈ after.draft.chunk.constants,
        value ∈ before.draft.chunk.constants ∨ value.IsConstant before.Knows) :
    Adds before after instructions := by
  have tokens : after.tokens = before.tokens :=
    congrArg (fun state => state.tokens) writes.skeleton
  have finished : after.finished = before.finished :=
    congrArg (fun state => state.finished) writes.skeleton
  have firstFunction : after.firstFunction = before.firstFunction :=
    congrArg (fun state => state.firstFunction) writes.skeleton
  have role : after.draft.role = before.draft.role :=
    congrArg (fun state => state.draft.role) writes.skeleton
  have knows : after.Knows = before.Knows := by
    funext id
    simp [Knows, finished, firstFunction]
  refine ⟨?_, ⟨resources, ?_, ?_, ?_, ?_⟩, context, ?_, writes.written⟩
  · have same := congrArg (fun state => state.frame) writes.skeleton
    simpa [Compilation.frame, Compilation.skeleton] using same
  · rw [tokens]
    exact sound.names
  · intro value member
    rw [knows]
    rcases constants value member with old | isConstant
    · exact sound.constants value old
    · exact isConstant
  · intro function member
    rw [finished] at member
    rw [knows]
    exact (sound.finished function member).mono context.slots fun _ => id
  · rw [role, writes.scope]
    exact sound.nested
  · exact finished ▸ List.prefix_refl _

/-- A change that expressions make as well keeps the invariant. -/
theorem Writes.adds
    {before after : Compilation}
    {instructions : List Instruction}
    (writes : Writes before after instructions)
    (sound : before.Sound)
    (grows : Syntax.Resources.Grows before.resources after.resources) :
    Adds before after instructions :=
  writes.addsConstants sound grows.sound grows.context fun value member =>
    (grows.added value member).imp id .inl

theorem adds_advance {state : Compilation} (sound : state.Sound) :
    Adds state state.advance [] :=
  (Writes.advance state).adds sound (by rw [resources_advance]; exact .refl sound.resources)

@[simp]
theorem scope_advance (state : Compilation) : state.advance.draft.scope = state.draft.scope :=
  (Writes.advance state).scope

/-- Another scope keeps the invariant. -/
theorem adds_withScope
    {state : Compilation}
    (sound : state.Sound)
    {scope : Scope}
    (nested : state.draft.role = .script ∨ 0 < scope.depth) :
    Adds state (state.withScope scope) [] :=
  ⟨rfl, ⟨sound.resources, sound.names, sound.constants, sound.finished, nested⟩, .refl _,
    List.prefix_refl _, by simp [written, withScope]⟩

theorem adds_enter {state : Compilation} (sound : state.Sound) :
    Adds state (state.withScope state.draft.scope.enter) [] :=
  adds_withScope sound (.inr (Nat.succ_pos _))

theorem Appends.adds
    {before after : Compilation}
    {instructions : List Instruction}
    (appends : Appends before after instructions)
    (sound : before.Sound) :
    Adds before after instructions :=
  appends.writes.adds sound (by rw [appends.resources]; exact .refl sound.resources)

end Compilation

end ScriptEngine
