import Mathlib
import ScriptEngine.Proofs.Compiler.Accumulation
import ScriptEngine.Proofs.Compiler.Observed

/-!
# Lexical scoping

The functions around a place of a text and their blocks form an environment, a path in the
tree of the text.  A name means the innermost visible declaration, unless that belongs to a
surrounding function; `Lexical.Happens` says how the environment changes and what the names
mean that are met on the way.

The compiler keeps one list of local variables for every function.  The list is the blocks of
the environment put together (`Lexical.FunctionLevel.Describes`).
-/

namespace ScriptEngine

namespace Lexical

open Compiler (Reference)

/-- A name that has been declared. -/
structure Declaration where
  name : String
  /-- Whether its initialiser is complete. -/
  complete : Bool

/-- The declarations of a block, latest first. -/
abbrev Block := List Declaration

/-- A function around a place, with its blocks around the place, innermost first. -/
structure FunctionLevel where
  role : Role
  /-- The outermost block holds nothing but slot zero. -/
  blocks : List Block

/-- The functions around a place, innermost first. -/
abbrev Environment := List FunctionLevel

/-- What slot zero is called. -/
def slotZero (role : Role) : Declaration :=
  { name := if role.hasReceiver then "this" else "", complete := true }

/-- The environment at the level of the module. -/
def top : Environment :=
  [{ role := .script, blocks := [[slotZero .script]] }]

/-- Number of variables that are alive in blocks. -/
def slots (blocks : List Block) : Nat :=
  (blocks.map List.length).sum

/-- The declaration of a name in a block, with the number of declarations before it. -/
def declaredIn (name : String) : Block → Option (Nat × Declaration)
  | [] => none
  | latest :: earlier =>
    if latest.name = name then some (earlier.length, latest) else declaredIn name earlier

/-- The innermost declaration of a name, with the number of declarations before it. -/
def innermost (name : String) : List Block → Option (Nat × Declaration)
  | [] => none
  | block :: outer =>
    match declaredIn name block with
    | some (before, declaration) => some (before + slots outer, declaration)
    | none => innermost name outer

/--
What a name means at a place: a slot of the present function, or a variable of the module, or
why it cannot be used.
-/
def meaning (name : String) : Environment → Except CompileProblem (Option Nat)
  | [] => .ok none
  | present :: around =>
    match innermost name present.blocks with
    | some (slot, declaration) =>
      if declaration.complete then .ok (some slot) else .error (.scope .readInInitializer)
    | none =>
      if around.any fun level => (innermost name level.blocks).isSome then
        .error (.capture name)
      else
        .ok none

/-- How an environment changes, and what names mean, if the module has a given table in the end. -/
inductive Happens (table : Module) : Environment → NameEvent → Environment → Prop where
  | functionBegins {around : Environment} {role : Role} :
      Happens table around (.functionBegins role)
        ({ role, blocks := [[], [slotZero role]] } :: around)
  | functionEnds {ended outer : FunctionLevel} {around : Environment} :
      Happens table (ended :: outer :: around) .functionEnds (outer :: around)
  | blockBegins {role : Role} {blocks : List Block} {around : Environment} :
      Happens table ({ role, blocks } :: around) .blockBegins
        ({ role, blocks := [] :: blocks } :: around)
  | blockEnds {role : Role} {ended outer : Block} {blocks : List Block} {around : Environment} :
      Happens table ({ role, blocks := ended :: outer :: blocks } :: around) .blockEnds
        ({ role, blocks := outer :: blocks } :: around)
  | moduleDeclaration {block : Block} {around : Environment} {name : String} :
      Happens table ({ role := .script, blocks := [block] } :: around) (.moduleDeclaration name)
        ({ role := .script, blocks := [block] } :: around)
  | localDeclaration
      {role : Role} {block : Block} {outer : List Block} {around : Environment} {name : String}
      (isNew : ∀ declaration ∈ block, declaration.name ≠ name)
      (room : slots (block :: outer) < Scope.maxLocals) :
      Happens table ({ role, blocks := block :: outer } :: around) (.localDeclaration name none)
        ({ role, blocks := ({ name, complete := false } :: block) :: outer } :: around)
  | alreadyDeclared
      {role : Role} {block : Block} {outer : List Block} {around : Environment} {name : String}
      (isOld : ∃ declaration ∈ block, declaration.name = name) :
      Happens table ({ role, blocks := block :: outer } :: around)
        (.localDeclaration name (some (.scope .alreadyDeclared)))
        ({ role, blocks := block :: outer } :: around)
  | tooManyLocals
      {role : Role} {block : Block} {outer : List Block} {around : Environment} {name : String}
      (isNew : ∀ declaration ∈ block, declaration.name ≠ name)
      (full : Scope.maxLocals ≤ slots (block :: outer)) :
      Happens table ({ role, blocks := block :: outer } :: around)
        (.localDeclaration name (some (.scope .tooManyLocals)))
        ({ role, blocks := block :: outer } :: around)
  | initialization
      {role : Role} {block : Block} {outer : List Block} {around : Environment} {name : String} :
      Happens table
        ({ role, blocks := ({ name, complete := false } :: block) :: outer } :: around)
        (.initialization name)
        ({ role, blocks := ({ name, complete := true } :: block) :: outer } :: around)
  | localUse {environment : Environment} {name : String} {slot : Nat}
      (isLocal : meaning name environment = .ok (some slot)) :
      Happens table environment (.use name (.ok (.localSlot slot))) environment
  | refusedUse {environment : Environment} {name : String} {problem : CompileProblem}
      (refused : meaning name environment = .error problem) :
      Happens table environment (.use name (.error problem)) environment
  | moduleUse {environment : Environment} {name : String} {slot : Nat}
      (unbound : meaning name environment = .ok none)
      (found : table.find? name = some slot) :
      Happens table environment (.use name (.ok (.moduleSlot slot))) environment
  | moduleFull {environment : Environment} {name : String}
      (unbound : meaning name environment = .ok none)
      (missing : table.find? name = none)
      (full : Module.maxVariables ≤ table.size) :
      Happens table environment (.use name (.error .tooManyModuleVariables)) environment

/-- Events, latest first, that lead from the level of the module to an environment. -/
inductive Journal (table : Module) : List NameEvent → Environment → Prop where
  | start : Journal table [] top
  | next {earlier : List NameEvent} {event : NameEvent} {before after : Environment}
      (journal : Journal table earlier before)
      (happens : Happens table before event after) :
      Journal table (event :: earlier) after

/-- One of the functions declares a name. -/
def Declares (environment : Environment) (name : String) : Prop :=
  ∃ level ∈ environment, ∃ found, innermost name level.blocks = some found

/-- How a name that is used in a function is answered. -/
structure Answers
    (table : Module)
    (present : FunctionLevel)
    (around : Environment)
    (name : String)
    (answer : Except CompileProblem Reference) :
    Prop where
  isLocal :
    ∀ slot,
      answer = .ok (.localSlot slot) ↔
        ∃ declaration,
          innermost name present.blocks = some (slot, declaration) ∧ declaration.complete = true
  isUnfinished :
    answer = .error (.scope .readInInitializer) ↔
      ∃ slot declaration,
        innermost name present.blocks = some (slot, declaration) ∧ declaration.complete = false
  isCapture :
    answer = .error (.capture name) ↔
      innermost name present.blocks = none ∧ Declares around name
  isVariable :
    ∀ slot,
      answer = .ok (.moduleSlot slot) ↔
        ¬ Declares (present :: around) name ∧ table.find? name = some slot
  /-- The module has no room for a variable with the name. -/
  isFull :
    answer = .error .tooManyModuleVariables ↔
      ¬ Declares (present :: around) name ∧ table.find? name = none

theorem Happens.answers
    {table : Module}
    {present : FunctionLevel}
    {around after : Environment}
    {name : String}
    {answer : Except CompileProblem Reference}
    (happens : Happens table (present :: around) (.use name answer) after) :
    Answers table present around name answer := by
  have outside :
      (around.any fun level => (innermost name level.blocks).isSome) = true ↔
        Declares around name := by
    simp [Declares, Option.isSome_iff_exists]
  have everywhere :
      Declares (present :: around) name ↔
        (∃ found, innermost name present.blocks = some found) ∨ Declares around name := by
    simp [Declares]
  rcases found : innermost name present.blocks with _ | ⟨slot, declaration⟩
  · by_cases captured : Declares around name
    · have means : meaning name (present :: around) = .error (.capture name) := by
        simp only [meaning, found, outside, captured, if_true]
      cases happens with
      | refusedUse refused =>
          cases means.symm.trans refused
          constructor <;> simp [found, everywhere, captured]
      | localUse isLocal => cases means.symm.trans isLocal
      | moduleUse unbound | moduleFull unbound => cases means.symm.trans unbound
    · have means : meaning name (present :: around) = .ok none := by
        simp only [meaning, found, outside, captured, if_false]
      cases happens with
      | refusedUse refused => cases means.symm.trans refused
      | localUse isLocal => cases means.symm.trans isLocal
      | moduleUse _ isVariable => constructor <;> simp [found, everywhere, captured, isVariable]
      | moduleFull _ missing => constructor <;> simp [found, everywhere, captured, missing]
  · rcases complete : declaration.complete with _ | _
    · have means : meaning name (present :: around) = .error (.scope .readInInitializer) := by
        simp [meaning, found, complete]
      cases happens with
      | refusedUse refused =>
          cases means.symm.trans refused
          constructor <;> simp [found, everywhere, complete]
      | localUse isLocal => cases means.symm.trans isLocal
      | moduleUse unbound | moduleFull unbound => cases means.symm.trans unbound
    · have means : meaning name (present :: around) = .ok (some slot) := by
        simp [meaning, found, complete]
      cases happens with
      | refusedUse refused => cases means.symm.trans refused
      | localUse isLocal =>
          cases means.symm.trans isLocal
          constructor <;> simp [found, everywhere, complete]
      | moduleUse unbound | moduleFull unbound => cases means.symm.trans unbound

/-- A declaration is refused as the second one exactly if the innermost block has the name. -/
theorem Happens.declares_twice
    {table : Module}
    {before after : Environment}
    {name : String}
    {problem : Option CompileProblem}
    (happens : Happens table before (.localDeclaration name problem) after) :
    ∃ role block outer around,
      before = { role, blocks := block :: outer } :: around ∧
        (problem = some (.scope .alreadyDeclared) ↔
          ∃ declaration ∈ block, declaration.name = name) := by
  cases happens with
  | localDeclaration isNew =>
      refine ⟨_, _, _, _, rfl, nofun, ?_⟩
      rintro ⟨declaration, member, same⟩
      exact absurd same (isNew declaration member)
  | alreadyDeclared isOld => exact ⟨_, _, _, _, rfl, fun _ => isOld, fun _ => rfl⟩
  | tooManyLocals isNew =>
      refine ⟨_, _, _, _, rfl, nofun, ?_⟩
      rintro ⟨declaration, member, same⟩
      exact absurd same (isNew declaration member)

/-- No function of an environment has too many variables. -/
def Bounded (environment : Environment) : Prop :=
  ∀ level ∈ environment, slots level.blocks ≤ Scope.maxLocals

theorem Happens.bounded
    {table : Module}
    {before after : Environment}
    {event : NameEvent}
    (happens : Happens table before event after)
    (bounded : Bounded before) :
    Bounded after := by
  have others {present other : FunctionLevel} {around : Environment}
      (bounded : Bounded (present :: around))
      (fits : slots other.blocks ≤ Scope.maxLocals) :
      Bounded (other :: around) := by
    intro level member
    rcases List.mem_cons.mp member with rfl | isAround
    · exact fits
    · exact bounded level (List.mem_cons_of_mem _ isAround)
  cases happens with
  | functionBegins =>
      intro level member
      rcases List.mem_cons.mp member with rfl | isAround
      · show 1 ≤ Scope.maxLocals
        decide
      · exact bounded level isAround
  | functionEnds => exact fun level member => bounded level (List.mem_cons_of_mem _ member)
  | blockBegins =>
      refine others bounded ?_
      have fits := bounded _ List.mem_cons_self
      simpa [slots] using fits
  | blockEnds =>
      refine others bounded ?_
      have fits := bounded _ List.mem_cons_self
      simp only [slots, List.map_cons, List.sum_cons] at fits ⊢
      omega
  | localDeclaration isNew room =>
      refine others bounded ?_
      simp only [slots, List.map_cons, List.sum_cons, List.length_cons] at room ⊢
      omega
  | initialization =>
      have fits := bounded _ List.mem_cons_self
      exact others bounded fits
  | moduleDeclaration | alreadyDeclared | tooManyLocals | localUse | refusedUse | moduleUse
  | moduleFull => exact bounded

theorem Journal.bounded
    {table : Module}
    {events : List NameEvent}
    {environment : Environment}
    (journal : Journal table events environment) :
    Bounded environment := by
  induction journal with
  | start =>
      intro level member
      rw [List.mem_singleton.mp member]
      show 1 ≤ Scope.maxLocals
      decide
  | next _ happens induction => exact happens.bounded induction

/-- The level of the module is never left. -/
theorem Journal.exists_level
    {table : Module}
    {events : List NameEvent}
    {environment : Environment}
    (journal : Journal table events environment) :
    ∃ present around, environment = present :: around := by
  induction journal with
  | start => exact ⟨_, _, rfl⟩
  | next _ happens induction =>
      rcases induction with ⟨present, around, rfl⟩
      cases happens <;> exact ⟨_, _, rfl⟩

/-- A part of a journal is a journal, up to what happens next. -/
theorem Journal.of_suffix
    {table : Module}
    {events earlier : List NameEvent}
    {environment : Environment}
    {event : NameEvent}
    (journal : Journal table events environment)
    (suffix : event :: earlier <:+ events) :
    ∃ before after, Journal table earlier before ∧ Happens table before event after := by
  induction journal with
  | start => cases List.suffix_nil.mp suffix
  | next journal happens induction =>
      rcases List.suffix_cons_iff.mp suffix with same | inside
      · cases same
        exact ⟨_, _, journal, happens⟩
      · exact induction inside

/-! ## The list of local variables -/

/-- The variables of blocks as the compiler keeps them. -/
def localsOf : List Block → List LocalVariable
  | [] => []
  | block :: outer =>
    block.map (fun declaration =>
      { name := declaration.name, depth := outer.length, initialized := declaration.complete }) ++
      localsOf outer

theorem length_localsOf (blocks : List Block) : (localsOf blocks).length = slots blocks := by
  induction blocks with
  | nil => rfl
  | cons block outer induction => simp [localsOf, slots, induction]

theorem depth_localsOf
    {blocks : List Block}
    {entry : LocalVariable}
    (member : entry ∈ localsOf blocks) :
    entry.depth < blocks.length := by
  induction blocks with
  | nil => cases member
  | cons block outer induction =>
      rcases List.mem_append.mp member with isHere | isOuter
      · rcases List.mem_map.mp isHere with ⟨declaration, -, rfl⟩
        exact Nat.lt_succ_self _
      · exact Nat.lt_succ_of_lt (induction isOuter)

/-- What the compiler finds in its list is the innermost declaration. -/
theorem resolveIn_localsOf (name : String) (blocks : List Block) :
    Scope.resolveIn name (localsOf blocks) =
      match innermost name blocks with
      | some (slot, declaration) =>
        if declaration.complete then .ok (some slot) else .error .readInInitializer
      | none => .ok none := by
  induction blocks with
  | nil => rfl
  | cons block outer induction =>
      induction block with
      | nil => exact induction
      | cons latest earlier inBlock =>
          by_cases same : latest.name = name
          · have length :
                (List.map (fun declaration : Declaration =>
                    ({ name := declaration.name, depth := outer.length,
                        initialized := declaration.complete } : LocalVariable)) earlier ++
                      localsOf outer).length =
                  earlier.length + slots outer := by
              rw [List.length_append, List.length_map, length_localsOf]
            simp [localsOf, Scope.resolveIn, innermost, declaredIn, same, length]
          · have skips :
                innermost name ((latest :: earlier) :: outer) =
                  innermost name (earlier :: outer) := by
              simp [innermost, declaredIn, same]
            rw [skips, ← inBlock]
            simp [localsOf, Scope.resolveIn, same]

/-- The list has a name if one of the blocks declares it. -/
theorem contains_localsOf (name : String) (blocks : List Block) :
    ((localsOf blocks).any fun entry => entry.name == name) =
      (innermost name blocks).isSome := by
  induction blocks with
  | nil => rfl
  | cons block outer induction =>
      induction block with
      | nil => exact induction
      | cons latest earlier inBlock =>
          by_cases same : latest.name = name
          · simp [localsOf, innermost, declaredIn, same]
          · have skips :
                innermost name ((latest :: earlier) :: outer) =
                  innermost name (earlier :: outer) := by
              simp [innermost, declaredIn, same]
            rw [skips, ← inBlock]
            simp [localsOf, same]

/-- Only the innermost block counts for a declaration. -/
theorem declaredSince_localsOf (name : String) (block : Block) (outer : List Block) :
    Scope.declaredSince outer.length name (localsOf (block :: outer)) =
      block.any fun declaration => declaration.name == name := by
  have outside (locals : List LocalVariable)
      (shallow : ∀ entry ∈ locals, entry.depth < outer.length) :
      Scope.declaredSince outer.length name locals = false := by
    cases locals with
    | nil => rfl
    | cons latest earlier =>
        rw [Scope.declaredSince, if_pos (shallow latest List.mem_cons_self)]
  induction block with
  | nil => exact outside (localsOf outer) fun _ => depth_localsOf
  | cons latest earlier induction =>
      simp only [localsOf, List.map_cons, List.cons_append, Scope.declaredSince, Nat.lt_irrefl,
        if_false, List.any_cons]
      exact congrArg (_ || ·) induction

/-- The block that ends is at the beginning of the list. -/
theorem leave_localsOf (block : Block) (outer : List Block) :
    ({ locals := localsOf (block :: outer), depth := outer.length } : Scope).leave.2 =
      { locals := localsOf outer, depth := outer.length - 1 } := by
  have outside :
      (localsOf outer).dropWhile (fun entry => entry.depth == outer.length) = localsOf outer := by
    cases isOuter : localsOf outer with
    | nil => rfl
    | cons latest earlier =>
        have shallow : latest.depth < outer.length :=
          depth_localsOf (by rw [isOuter]; exact List.mem_cons_self)
        rw [List.dropWhile_cons, if_neg]
        simpa using Nat.ne_of_lt shallow
  have inside :
      (localsOf (block :: outer)).dropWhile (fun entry => entry.depth == outer.length) =
        localsOf outer := by
    induction block with
    | nil => exact outside
    | cons latest earlier induction => simpa [localsOf] using induction
  simp [Scope.leave, inside]

/-- The compiler keeps the variables of a function as its blocks say. -/
structure FunctionLevel.Describes (level : FunctionLevel) (draft : Draft) : Prop where
  role : draft.role = level.role
  locals : draft.scope.locals = localsOf level.blocks
  depth : draft.scope.depth + 1 = level.blocks.length

/-- The compiler keeps the variables of the functions that have been begun as they say. -/
def Describes (environment : Environment) (state : Compilation) : Prop :=
  List.Forall₂ FunctionLevel.Describes environment (state.draft :: state.enclosing)

end Lexical

end ScriptEngine
