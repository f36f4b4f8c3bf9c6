import ScriptEngine.Proofs.Compiler.FollowingRoutines
import ScriptEngine.Proofs.Compiler.Lexical

/-!
# Names are resolved by lexical scoping

What happens to names during a compilation is a journal of lexical scoping, and the compiler's
lists of local variables are the blocks of the environment at every place.  An operand or a
statement leaves the environment as it is, a declaration adds to the innermost block
(`Session.Scoped`).  So every name that is met means what the declarations around it say
(`Observed.names_resolve_lexically`).
-/

set_option synthInstance.maxSize 100000

namespace ScriptEngine

open Compiler

/-! ## How the compiler resolves a name -/

namespace Compiler

variable {state : Compilation} {name : String}

theorem resolve_refused
    {problem : ScopeProblem}
    (refused : state.draft.scope.resolve name = .error problem) :
    ∃ error, resolve name state = (.error error, state) ∧ error.problem = .scope problem := by
  unfold resolve
  rw [look_bind, refused]
  exact ⟨_, rfl, rfl⟩

theorem resolve_local
    {slot : Nat}
    (found : state.draft.scope.resolve name = .ok (some slot)) :
    resolve name state = (.ok (.localSlot slot), state) := by
  unfold resolve
  rw [look_bind, found]
  rfl

theorem resolve_captured
    (missing : state.draft.scope.resolve name = .ok none)
    (captured : (state.enclosing.any fun draft => draft.scope.contains name) = true) :
    ∃ error, resolve name state = (.error error, state) ∧ error.problem = .capture name := by
  unfold resolve
  rw [look_bind, missing]
  simp only
  rw [look_bind, if_pos captured]
  exact ⟨_, rfl, rfl⟩

theorem resolve_free
    (missing : state.draft.scope.resolve name = .ok none)
    (free : (state.enclosing.any fun draft => draft.scope.contains name) = false) :
    resolve name state =
      (do return .moduleSlot (← moduleSlot name) : Compiler Reference) state := by
  unfold resolve
  rw [look_bind, missing]
  simp only
  rw [look_bind, free, if_neg Bool.false_ne_true]

theorem declareLocal_eq (state : Compilation) (name : String) :
    declareLocal name state =
      (match state.draft.scope.declare name with
        | .ok scope => changeScope fun _ => scope
        | .error problem => fail (.scope problem) : Compiler Unit) state :=
  rfl

/-- A refused declaration changes nothing. -/
theorem declareLocal_refused
    {error : CompileError}
    (refused : (declareLocal name state).1 = .error error) :
    (declareLocal name state).2 = state := by
  rcases declares : state.draft.scope.declare name with problem | scope
  · rw [declareLocal_eq, declares]
    rfl
  · rw [declareLocal_eq, declares] at refused
    cases refused

/-- A variable of the module is found or declared, unless there are too many. -/
theorem moduleSlot_cases (state : Compilation) (name : String) :
    (∃ slot table,
        moduleSlot name state = (.ok slot, state.withTable table) ∧
          state.table.Grows table ∧ table.find? name = some slot) ∨
      ∃ error,
        moduleSlot name state = (.error error, state) ∧
          error.problem = .tooManyModuleVariables ∧ state.table.find? name = none ∧
            Module.maxVariables ≤ state.table.size := by
  have outcome
      {slot? : Option Nat}
      {table : Module}
      (declared : state.table.declare name = (slot?, table)) :
      moduleSlot name state =
        (slot?.elim (fail .tooManyModuleVariables) pure : Compiler Nat)
          (state.withTable table) := by
    simp only [moduleSlot, bind, ExceptT.bind, ExceptT.mk, StateT.bind, ExceptT.bindCont,
      declared]
    cases slot? <;> rfl
  rcases state.table.declare_cases name with
    ⟨slot, found, same⟩ | ⟨missing, -, appended⟩ | ⟨missing, full, same⟩
  · exact .inl ⟨slot, state.table, outcome same, .same, found⟩
  · refine .inl ⟨state.table.size, state.table.append name, outcome appended, ?_, ?_⟩
    · have grows : state.table.Grows (state.table.declare name).2 := .declare .same name
      rwa [appended] at grows
    · rw [Module.find?_append, if_pos rfl]
  · exact .inr ⟨_, outcome same, rfl, missing, Nat.le_of_not_lt full⟩

end Compiler

namespace Lexical

/-- More declarations in the innermost block. -/
def declared (more : Block) : Environment → Environment
  | { role, blocks := block :: outer } :: around =>
    { role, blocks := (more ++ block) :: outer } :: around
  | environment => environment

@[simp]
theorem declared_nil (environment : Environment) : declared [] environment = environment := by
  unfold declared
  split <;> rfl

theorem declared_declared (first second : Block) (environment : Environment) :
    declared second (declared first environment) = declared (second ++ first) environment := by
  rcases environment with _ | ⟨⟨role, _ | ⟨block, outer⟩⟩, around⟩ <;> simp [declared]

variable {environment : Environment} {state : Compilation}

/-- A place is inside a block of a function. -/
theorem Describes.exists_block (describes : Describes environment state) :
    ∃ role block outer around,
      environment = { role, blocks := block :: outer } :: around ∧
        state.draft.role = role ∧
        state.draft.scope = { locals := localsOf (block :: outer), depth := outer.length } ∧
        List.Forall₂ FunctionLevel.Describes around state.enclosing := by
  cases describes with
  | @cons level _ around _ present rest =>
      rcases level with ⟨role, blocks⟩
      rcases blocks with _ | ⟨block, outer⟩
      · cases present.depth
      · refine ⟨role, block, outer, around, rfl, present.role, ?_, rest⟩
        rcases scope : state.draft.scope with ⟨locals, depth⟩
        have sameLocals := present.locals
        have sameDepth := present.depth
        rw [scope] at sameLocals sameDepth
        have depth_eq : depth = outer.length := Nat.succ.inj sameDepth
        rw [depth_eq]
        exact congrArg (Scope.mk · outer.length) sameLocals

theorem describes_of_block
    {role : Role}
    {block : Block}
    {outer : List Block}
    {around : Environment}
    (isRole : state.draft.role = role)
    (scope : state.draft.scope = { locals := localsOf (block :: outer), depth := outer.length })
    (rest : List.Forall₂ FunctionLevel.Describes around state.enclosing) :
    Describes ({ role, blocks := block :: outer } :: around) state :=
  .cons ⟨isRole, by rw [scope], by rw [scope]; rfl⟩ rest

/-- What does not concern names leaves the environment as it is. -/
theorem Describes.remains
    (describes : Describes environment state)
    {after : Compilation}
    (remains : state.Remains after) :
    Describes environment after := by
  rcases describes.exists_block with ⟨role, block, outer, around, rfl, isRole, scope, rest⟩
  refine describes_of_block (remains.role.trans isRole) (remains.scope.trans scope) ?_
  rwa [remains.enclosing]

/-- A name is captured if a function around the present one declares it. -/
theorem captures
    {around : Environment}
    {drafts : List Draft}
    (describes : List.Forall₂ FunctionLevel.Describes around drafts)
    (name : String) :
    (drafts.any fun draft => draft.scope.contains name) =
      around.any fun level => (innermost name level.blocks).isSome := by
  induction describes with
  | nil => rfl
  | cons present _ induction =>
      rw [List.any_cons, List.any_cons, induction, Scope.contains, present.locals,
        contains_localsOf]

/-! ## Single steps -/

variable {table : Module}

/-- What a name means is found out as the environment says. -/
theorem resolve_happens
    (describes : Describes environment state)
    (name : String)
    (grows : (resolve name state).2.table.Grows table) :
    Happens table environment
        (.use name ((resolve name state).1.mapError (·.problem))) environment ∧
      Describes environment (resolve name state).2 := by
  rcases describes.exists_block with ⟨role, block, outer, around, rfl, isRole, scope, rest⟩
  have resolves := resolveIn_localsOf name (block :: outer)
  have same :
      state.draft.scope.resolve name = Scope.resolveIn name (localsOf (block :: outer)) := by
    rw [scope]
    rfl
  rw [← same] at resolves
  have captured := captures rest name
  rcases found : innermost name (block :: outer) with _ | ⟨slot, declaration⟩
  · rw [found] at resolves
    by_cases isOutside : (state.enclosing.any fun draft => draft.scope.contains name) = true
    · rcases resolve_captured resolves isOutside with ⟨error, outcome, problem⟩
      rw [outcome]
      refine ⟨.refusedUse ?_, describes⟩
      simp [meaning, found, ← captured, isOutside, problem]
    · have free := Bool.eq_false_iff.mpr isOutside
      have unbound :
          meaning name ({ role, blocks := block :: outer } :: around) = .ok none := by
        simp [meaning, found, ← captured, free]
      rw [resolve_free resolves free] at grows ⊢
      rcases moduleSlot_cases state name with
        ⟨slot, larger, outcome, -, isSlot⟩ | ⟨error, outcome, problem, missing, full⟩
      · rw [Compiler.bind_of_ok outcome] at grows ⊢
        exact ⟨.moduleUse unbound (grows.find? isSlot), describes_of_block isRole scope rest⟩
      · rw [Compiler.bind_of_error outcome] at grows ⊢
        have same := grows.eq_of_full full
        subst same
        show Happens _ _ (.use name (.error error.problem)) _ ∧ _
        rw [problem]
        exact ⟨.moduleFull unbound missing full, describes_of_block isRole scope rest⟩
  · rw [found] at resolves
    by_cases complete : declaration.complete = true
    · simp only [complete, if_true] at resolves
      rw [resolve_local resolves]
      refine ⟨.localUse ?_, describes⟩
      simp [meaning, found, complete]
    · simp only [complete] at resolves
      rcases resolve_refused resolves with ⟨error, outcome, problem⟩
      rw [outcome]
      refine ⟨.refusedUse ?_, describes⟩
      simp [meaning, found, complete, problem]

/--
A declaration is refused because the block has the name or the function has too many variables.
-/
theorem refuse_happens
    (describes : Describes environment state)
    {name : String}
    {error : CompileError}
    (refused : (declareLocal name state).1 = .error error) :
    Happens table environment (.localDeclaration name (some error.problem)) environment ∧
      Describes environment (declareLocal name state).2 := by
  refine ⟨?_, by rwa [declareLocal_refused refused]⟩
  rcases describes.exists_block with ⟨role, block, outer, around, rfl, -, scope, -⟩
  have known := declaredSince_localsOf name block outer
  have taken := length_localsOf (block :: outer)
  rw [declareLocal_eq, scope] at refused
  simp only [Scope.declare, known, taken] at refused
  by_cases isOld : (block.any fun declaration => declaration.name == name) = true
  · rw [if_pos isOld] at refused
    cases refused
    exact .alreadyDeclared (by simpa using isOld)
  · rw [if_neg isOld] at refused
    have isNew : ∀ declaration ∈ block, declaration.name ≠ name := by simpa using isOld
    by_cases room : slots (block :: outer) < Scope.maxLocals
    · rw [if_pos room] at refused
      cases refused
    · rw [if_neg room] at refused
      cases refused
      exact .tooManyLocals isNew (Nat.le_of_not_lt room)

/-- A declaration that is accepted goes to the innermost block. -/
theorem declare_happens
    (describes : Describes environment state)
    {name : String}
    (accepted : (declareLocal name state).1 = .ok ()) :
    Happens table environment (.localDeclaration name none)
        (declared [{ name, complete := false }] environment) ∧
      Describes (declared [{ name, complete := false }] environment)
        (declareLocal name state).2 := by
  rcases describes.exists_block with ⟨role, block, outer, around, rfl, isRole, scope, rest⟩
  have known := declaredSince_localsOf name block outer
  have taken := length_localsOf (block :: outer)
  rw [declareLocal_eq] at accepted ⊢
  rcases result : state.draft.scope.declare name with problem | larger
  · rw [result] at accepted
    cases accepted
  · have declares := result
    rw [scope] at declares
    simp only [Scope.declare, known, taken] at declares
    by_cases isOld : (block.any fun declaration => declaration.name == name) = true
    · rw [if_pos isOld] at declares
      cases declares
    · rw [if_neg isOld] at declares
      by_cases room : slots (block :: outer) < Scope.maxLocals
      · rw [if_pos room] at declares
        cases declares
        exact ⟨.localDeclaration (by simpa using isOld) room, describes_of_block isRole rfl rest⟩
      · rw [if_neg room] at declares
        cases declares

/-- The initialiser of the latest variable is complete. -/
theorem complete_happens
    {role : Role}
    {block : Block}
    {outer : List Block}
    {around : Environment}
    {name : String}
    (describes :
      Describes ({ role, blocks := ({ name, complete := false } :: block) :: outer } :: around)
        state) :
    Happens table
        ({ role, blocks := ({ name, complete := false } :: block) :: outer } :: around)
        (.initialization name)
        ({ role, blocks := ({ name, complete := true } :: block) :: outer } :: around) ∧
      Describes ({ role, blocks := ({ name, complete := true } :: block) :: outer } :: around)
        (changeScope Scope.markInitialized state).2 := by
  rcases describes.exists_block with ⟨_, _, _, _, same, isRole, scope, rest⟩
  cases same
  refine ⟨.initialization, describes_of_block isRole ?_ rest⟩
  show state.draft.scope.markInitialized = _
  rw [scope]
  rfl

theorem enter_happens (describes : Describes environment state) :
    ∃ role block outer around,
      environment = { role, blocks := block :: outer } :: around ∧
        Happens table environment .blockBegins
          ({ role, blocks := [] :: block :: outer } :: around) ∧
        Describes ({ role, blocks := [] :: block :: outer } :: around) (enterBlock state).2 := by
  rcases describes.exists_block with ⟨role, block, outer, around, rfl, isRole, scope, rest⟩
  refine ⟨role, block, outer, around, rfl, .blockBegins, describes_of_block isRole ?_ rest⟩
  show state.draft.scope.enter = _
  rw [scope]
  rfl

theorem leave_happens
    {role : Role}
    {ended block : Block}
    {outer : List Block}
    {around : Environment}
    (describes : Describes ({ role, blocks := ended :: block :: outer } :: around) state) :
    Happens table ({ role, blocks := ended :: block :: outer } :: around) .blockEnds
        ({ role, blocks := block :: outer } :: around) ∧
      Describes ({ role, blocks := block :: outer } :: around) (leaveBlock state).2 := by
  rcases describes.exists_block with ⟨_, _, _, _, same, isRole, scope, rest⟩
  cases same
  have left :
      Describes ({ role, blocks := block :: outer } :: around)
        (state.withScope state.draft.scope.leave.2) := by
    refine describes_of_block isRole ?_ rest
    show state.draft.scope.leave.2 = _
    rw [scope]
    exact leave_localsOf ended (block :: outer)
  have pops : Has Stays (emitAll (List.replicate state.draft.scope.leave.1 .pop)) := inferInstance
  exact ⟨.blockEnds, left.remains (pops.has (state.withScope state.draft.scope.leave.2))⟩

theorem begin_happens
    (describes : Describes environment state)
    (name : String)
    (role : Role) :
    Happens table environment (.functionBegins role)
        ({ role, blocks := [[], [slotZero role]] } :: environment) ∧
      Describes ({ role, blocks := [[], [slotZero role]] } :: environment)
        ((do
          beginFunction name role
          enterBlock : Compiler Unit) state).2 :=
  ⟨.functionBegins, .cons ⟨rfl, rfl, rfl⟩ describes⟩

theorem finish_happens
    {ended : FunctionLevel}
    (describes : Describes (ended :: environment) state)
    (inside : environment ≠ []) :
    Happens table (ended :: environment) .functionEnds environment ∧
      Describes environment (finishFunction state).2 := by
  rcases environment with _ | ⟨outer, around⟩
  · exact absurd rfl inside
  · refine ⟨.functionEnds, ?_⟩
    cases describes with
    | cons _ rest =>
        rcases enclosing : state.enclosing with _ | ⟨draft, drafts⟩
        · rw [enclosing] at rest
          cases rest
        · rw [enclosing] at rest
          unfold finishFunction
          simp only [enclosing]
          exact rest

end Lexical

/-! ## Sessions -/

namespace Session

open Lexical

/-- The journal of a session leads to an environment that describes the present place. -/
structure Scans (table : Module) (session : Session) (environment : Lexical.Environment) :
    Prop where
  journal : Lexical.Journal table session.events environment
  describes : Describes environment session.state
  slots : ∀ moment ∈ session.moments, moment.slots ≤ Scope.maxLocals

namespace Scans

variable {table : Module} {session : Session} {environment after : Lexical.Environment}

theorem mark (scans : session.Scans table environment) : session.mark.Scans table environment where
  journal := scans.journal
  describes := scans.describes
  slots := by
    rintro moment (_ | ⟨_, old⟩)
    · rcases scans.describes.exists_block with ⟨role, block, outer, around, rfl, -, scope, -⟩
      have fits := scans.journal.bounded _ List.mem_cons_self
      show session.state.draft.scope.locals.length ≤ Scope.maxLocals
      rw [scope]
      exact Nat.le_trans (Nat.le_of_eq (length_localsOf _)) fits
    · exact scans.slots moment old

theorem reach
    (scans : session.Scans table environment)
    {state : Compilation}
    (describes : Describes environment state) :
    (session.reach state).Scans table environment :=
  mark { scans with describes }

theorem note
    (scans : session.Scans table environment)
    {event : NameEvent}
    {state : Compilation}
    (happens : Happens table environment event after)
    (describes : Describes after state) :
    (session.note event state).Scans table after :=
  mark { journal := .next scans.journal happens, describes, slots := scans.slots }

end Scans

/--
A part of a session is lexically scoped: it adds declarations of an allowed kind to the
innermost block, and only its last event can be a refusal, for the problem that it stops with.
-/
structure Scoped
    (allowed : Block → Prop)
    (before : Session)
    (problem : Option CompileProblem)
    (after : Session) :
    Prop where
  table : before.state.table.Grows after.state.table
  refusals :
    ∀ event ∈ after.events,
      event ∈ before.events ∨ ∀ refusal, event.refusal? = some refusal → problem = some refusal
  scans :
    ∀ table environment,
      after.state.table.Grows table → before.Scans table environment →
        ∃ last,
          after.Scans table last ∧
            (problem = none → ∃ more, allowed more ∧ last = declared more environment)

namespace Scoped

variable
  {allowed : Block → Prop}
  {before halfway after session : Session}
  {problem : Option CompileProblem}

theorem andThen
    (append : ∀ first second, allowed first → allowed second → allowed (second ++ first))
    (start : Scoped allowed before none halfway)
    (rest : Scoped allowed halfway problem after) :
    Scoped allowed before problem after where
  table := start.table.trans rest.table
  refusals event member := by
    rcases rest.refusals event member with isHalfway | isLast
    · rcases start.refusals event isHalfway with isBefore | noRefusal
      · exact .inl isBefore
      · refine .inr fun refusal refuses => ?_
        cases noRefusal refusal refuses
    · exact .inr isLast
  scans table environment grows scans := by
    rcases start.scans table environment (rest.table.trans grows) scans with
      ⟨_, middle, succeeds⟩
    rcases succeeds rfl with ⟨first, isAllowed, rfl⟩
    rcases rest.scans table _ grows middle with ⟨last, lastScans, ends⟩
    refine ⟨last, lastScans, fun isNone => ?_⟩
    rcases ends isNone with ⟨second, isAllowedToo, rfl⟩
    exact ⟨second ++ first, append first second isAllowed isAllowedToo,
      declared_declared first second environment⟩

/--
A part of a session between two events, one that opens a place of its own for it and one that
closes the place unless the part has failed.
-/
theorem between
    {inner outer : Block → Prop}
    {opening closing : NameEvent}
    (opensSilently : opening.refusal? = none)
    (closesSilently : closing.refusal? = none)
    {opened closed : Compilation}
    (opens : session.state.table.Grows opened.table)
    (closes : after.state.table.Grows closed.table)
    (inside : Scoped inner (session.note opening opened) problem after)
    (leads :
      ∀ table environment,
        Describes environment session.state →
          ∃ first,
            Happens table environment opening first ∧
              Describes first opened ∧
              ∀ more,
                inner more → Describes (declared more first) after.state →
                  ∃ others,
                    outer others ∧
                      Happens table (declared more first) closing (declared others environment) ∧
                      Describes (declared others environment) closed) :
    Scoped outer session problem
      (if problem.isSome then after else after.note closing closed) := by
  have refusals :
      ∀ event ∈ after.events,
        event ∈ session.events ∨
          ∀ refusal, event.refusal? = some refusal → problem = some refusal := by
    intro event member
    rcases inside.refusals event member with isBefore | noRefusal
    · rcases List.mem_cons.mp isBefore with rfl | old
      · refine .inr fun refusal refuses => ?_
        rw [opensSilently] at refuses
        cases refuses
      · exact .inl old
    · exact .inr noRefusal
  have grows : session.state.table.Grows after.state.table := opens.trans inside.table
  rcases problem with _ | problem
  · refine ⟨grows.trans closes, ?_, ?_⟩
    · intro event member
      rcases List.mem_cons.mp member with rfl | old
      · refine .inr fun refusal refuses => ?_
        rw [closesSilently] at refuses
        cases refuses
      · exact refusals event old
    · intro table environment growsOn scans
      rcases leads table environment scans.describes with ⟨first, begins, describes, ends⟩
      rcases inside.scans table first (closes.trans growsOn) (scans.note begins describes) with
        ⟨_, lastScans, succeeds⟩
      rcases succeeds rfl with ⟨more, isInner, rfl⟩
      rcases ends more isInner lastScans.describes with ⟨others, isOuter, finishes, described⟩
      exact ⟨_, lastScans.note finishes described, fun _ => ⟨others, isOuter, rfl⟩⟩
  · refine ⟨grows, refusals, ?_⟩
    intro table environment growsOn scans
    rcases leads table environment scans.describes with ⟨first, begins, describes, -⟩
    rcases inside.scans table first growsOn (scans.note begins describes) with ⟨last, lastScans, -⟩
    refine ⟨last, lastScans, fun succeeds => ?_⟩
    cases succeeds

/-- Nothing happens to names, and the environment stays as it is. -/
theorem of_same
    (nothing : allowed [])
    (table : before.state.table.Grows after.state.table)
    (events : after.events = before.events)
    (scans :
      ∀ table environment, before.Scans table environment → after.Scans table environment) :
    Scoped allowed before problem after where
  table := table
  refusals event member := by
    rw [events] at member
    exact .inl member
  scans table environment _ holds :=
    ⟨environment, scans table environment holds, fun _ => ⟨[], nothing, (declared_nil _).symm⟩⟩

/-- One thing happens to a name. -/
theorem note
    {event : NameEvent}
    {state : Compilation}
    (grows : session.state.table.Grows state.table)
    (refusal : ∀ refusal, event.refusal? = some refusal → problem = some refusal)
    (happens :
      ∀ table environment,
        state.table.Grows table → Describes environment session.state →
          ∃ last,
            Happens table environment event last ∧ Describes last state ∧
              (problem = none → ∃ more, allowed more ∧ last = declared more environment)) :
    Scoped allowed session problem (session.note event state) where
  table := grows
  refusals other member := by
    rcases List.mem_cons.mp member with rfl | old
    · exact .inr refusal
    · exact .inl old
  scans table environment grows scans := by
    rcases happens table environment grows scans.describes with ⟨last, happens, describes, ends⟩
    exact ⟨last, scans.note happens describes, ends⟩

theorem steps
    (nothing : allowed [])
    (append : ∀ first second, allowed first → allowed second → allowed (second ++ first)) :
    Steps (Scoped allowed) where
  nothing session := .of_same nothing .same rfl fun _ _ => id
  andThen := andThen append
  observe session state problem remains := by
    refine of_same nothing ?_ rfl fun table environment scans => ?_
    · show session.state.table.Grows state.table
      rw [remains.table]
      exact .same
    · exact scans.reach (scans.describes.remains remains)
  nested {session after problem} _ _ inside :=
    { table := inside.table
      refusals := inside.refusals
      scans := fun table environment grows scans => by
        have deeper : session.deeper.Scans table environment :=
          Scans.mark ⟨scans.journal, scans.describes, scans.slots⟩
        rcases inside.scans table environment grows deeper with ⟨last, lastScans, ends⟩
        exact ⟨last, Scans.mark ⟨lastScans.journal, lastScans.describes, lastScans.slots⟩, ends⟩ }
  resolve session name := by
    have gains : Has Accumulates (resolve name) := inferInstance
    refine note (gains.has session.state).table ?_ fun table environment grows describes => ?_
    · intro refusal refuses
      rcases outcome : (resolve name session.state).1 with error | reference
      · rw [outcome] at refuses
        exact refuses
      · rw [outcome] at refuses
        cases refuses
    · rcases resolve_happens describes name grows with ⟨happens, after⟩
      exact ⟨environment, happens, after, fun _ => ⟨[], nothing, (declared_nil _).symm⟩⟩

end Scoped

/-- Operands and statements declare nothing, declarations declare something. -/
def scoping : Relations where
  steady := Scoped (· = [])
  passes := Scoped fun _ => True

theorem scoped_steady : Steps (Scoped (· = [])) :=
  Scoped.steps rfl (by rintro _ _ rfl rfl; rfl)

theorem scoped_passes : Steps (Scoped fun _ => True) :=
  Scoped.steps trivial fun _ _ _ _ => trivial

instance scoping_passage : Passage scoping where
  steadySteps := scoped_steady
  passesSteps := scoped_passes
  weaken steady :=
    { table := steady.table
      refusals := steady.refusals
      scans := fun table environment grows scans => by
        rcases steady.scans table environment grows scans with ⟨last, lastScans, ends⟩
        refine ⟨last, lastScans, fun isNone => ?_⟩
        rcases ends isNone with ⟨more, -, isLast⟩
        exact ⟨more, trivial, isLast⟩ }
  declareInModule session name isModule := by
    have gains : Has Accumulates (moduleSlot name) := inferInstance
    refine Scoped.note (gains.has session.state).table nofun fun table environment _ describes => ?_
    rcases describes.exists_block with ⟨role, block, outer, around, rfl, isRole, scope, rest⟩
    have level : session.state.draft.role = .script ∧ session.state.draft.scope.depth = 0 := by
      have both :
          (decide (session.state.draft.role = .script) &&
            decide (session.state.draft.scope.depth = 0)) = true :=
        Except.ok.inj isModule
      simpa using both
    rw [scope] at level
    rcases List.length_eq_zero_iff.mp level.2 with rfl
    rcases isRole.symm.trans level.1 with rfl
    refine ⟨_, .moduleDeclaration, ?_, fun _ => ⟨[], trivial, (declared_nil _).symm⟩⟩
    rcases moduleSlot_cases session.state name with
      ⟨slot, larger, outcome, -⟩ | ⟨error, outcome, -⟩
    all_goals
      rw [outcome]
      exact describes_of_block level.1 scope rest
  refuse session name error refused := by
    have gains : Has Accumulates (declareLocal name) := inferInstance
    refine Scoped.note (gains.has session.state).table ?_ fun table environment _ describes => ?_
    · intro refusal refuses
      rw [refused] at refuses
      exact refuses
    · rw [refused]
      rcases refuse_happens describes refused with ⟨happens, after⟩
      exact ⟨environment, happens, after, nofun⟩
  declare {session after problem} name accepted inside := by
    have gains : Has Accumulates (declareLocal name) := inferInstance
    have silent :
        (NameEvent.localDeclaration name (problem? (declareLocal name session.state).1)).refusal? =
          none := by
      rw [accepted]
      rfl
    refine Scoped.between silent rfl (gains.has session.state).table .same inside ?_
    intro table environment describes
    rcases declare_happens describes accepted with ⟨happens, declares⟩
    rw [accepted]
    refine ⟨_, happens, declares, ?_⟩
    rintro _ rfl described
    rcases describes.exists_block with ⟨role, block, outer, around, rfl, -⟩
    rw [declared_nil] at described ⊢
    rcases complete_happens described with ⟨completes, last⟩
    exact ⟨[{ name, complete := true }], trivial, completes, last⟩
  block {session after problem} inside := by
    have gains : Has Accumulates leaveBlock := inferInstance
    have opens : session.state.table.Grows (enterBlock session.state).2.table := .same
    change Scoped _ (session.note .blockBegins _) problem after at inside
    refine Scoped.between rfl rfl opens (gains.has after.state).table inside ?_
    intro table environment describes
    rcases enter_happens describes with
      ⟨role, block, outer, around, rfl, happens, entered⟩
    refine ⟨_, happens, entered, fun more _ described => ?_⟩
    rcases leave_happens described with ⟨ends, left⟩
    exact ⟨[], rfl, ends, left⟩
  function {session after problem} name role inside := by
    have gains : Has Accumulates finishFunction := inferInstance
    have opens :
        session.state.table.Grows
          ((do
            beginFunction name role
            enterBlock : Compiler Unit) session.state).2.table :=
      .same
    change Scoped _ (session.note (.functionBegins role) _) problem after at inside
    refine Scoped.between rfl rfl opens (gains.has after.state).table inside ?_
    intro table environment describes
    rcases begin_happens describes name role with ⟨happens, begun⟩
    refine ⟨_, happens, begun, fun more _ described => ?_⟩
    rcases describes.exists_block with ⟨_, _, _, _, rfl, -⟩
    rcases finish_happens described (List.cons_ne_nil _ _) with ⟨ends, finished⟩
    exact ⟨[], rfl, ends, finished⟩

theorem Scans.start (table : Module) (tokens : Array Token) (first : Module) (home id : Nat) :
    (Session.start (Compiler.start tokens first home id)).Scans table top :=
  Scans.mark
    { journal := .start
      describes := .cons ⟨rfl, rfl, rfl⟩ .nil
      slots := nofun }

/-- The function of a text is finished at the level of the module, which stays. -/
theorem Scans.ending
    {table : Module}
    {session : Session}
    {level : FunctionLevel}
    (scans : session.Scans table [level]) :
    session.ending.Scans table [level] := by
  refine scans.reach ?_
  have present := scans.describes
  unfold Describes at present ⊢
  rcases enclosing : session.state.enclosing with _ | ⟨draft, drafts⟩
  · unfold finishFunction
    simp only [enclosing]
    rwa [enclosing] at present
  · rw [enclosing] at present
    rcases present with _ | ⟨-, _ | _⟩

end Session

namespace Observed

open Lexical

/--
What happens to names in a text, accepted or not, is a journal of lexical scoping that begins
at the level of the module.  A name that is used is answered by the declarations around it;
only the last thing that happens can be a refusal, and it is the problem of the text; and no
function has more than 256 variables, slot zero included.
-/
theorem names_resolve_lexically
    (mode : CompileMode)
    (tokens : Array Token)
    (table : Module)
    (home firstFunction calls rounds : Nat)
    (enoughCalls : maxNesting < calls)
    (enoughRounds : tokens.size < rounds) :
    ∃ outcome after environment,
      script calls mode rounds (.start (start tokens table home firstFunction)) =
          some (outcome, after) ∧
        Compiler.script maxNesting mode (start tokens table home firstFunction) =
          (outcome, after.state) ∧
        Lexical.Journal after.state.table after.events environment ∧
        (problem? outcome = none →
          ∃ block, environment = [{ role := .script, blocks := [block] }]) ∧
        (∀ earlier event,
          event :: earlier <:+ after.events →
            ∃ present around last,
              Lexical.Journal after.state.table earlier (present :: around) ∧
                Bounded (present :: around) ∧
                Happens after.state.table (present :: around) event last ∧
                (∀ name answer,
                  event = .use name answer →
                    Lexical.Answers after.state.table present around name answer) ∧
                (∀ refusal, event.refusal? = some refusal → problem? outcome = some refusal)) ∧
        ∀ moment ∈ after.moments, moment.slots ≤ 256 := by
  have enough : (start tokens table home firstFunction).remaining < rounds :=
    Nat.lt_of_le_of_lt (Nat.sub_le _ _) enoughRounds
  rcases script_follows Session.scoping mode (rfl : (Session.start _).depth = 0) enoughCalls
      enough with
    ⟨outcome, written, after, runs, compiles, passes, -, isAfter⟩
  -- The end of the function of the text adds nothing to the journal.
  have whole :
      after.events = written.events ∧
        ∃ environment,
          after.Scans after.state.table environment ∧
            (problem? outcome = none →
              ∃ block, environment = [{ role := .script, blocks := [block] }]) := by
    rcases problem : problem? outcome with _ | refusal
    · rw [problem] at isAfter passes
      subst isAfter
      have gains : Has Accumulates finishFunction := inferInstance
      rcases passes.scans _ _ (gains.has written.state).table (.start _ _ _ _ _) with
        ⟨_, scans, succeeds⟩
      rcases succeeds rfl with ⟨more, -, rfl⟩
      exact ⟨rfl, _, scans.ending, fun _ => ⟨_, rfl⟩⟩
    · rw [problem] at isAfter passes
      subst isAfter
      rcases passes.scans _ _ .same (.start _ _ _ _ _) with ⟨environment, scans, -⟩
      refine ⟨rfl, environment, scans, fun succeeds => ?_⟩
      cases succeeds
  rcases whole with ⟨sameEvents, environment, scans, atTop⟩
  refine ⟨outcome, after, environment, runs, compiles, scans.journal, atTop, ?_, scans.slots⟩
  intro earlier event suffix
  rcases scans.journal.of_suffix suffix with ⟨before, last, journal, happens⟩
  rcases journal.exists_level with ⟨present, around, rfl⟩
  refine ⟨present, around, last, journal, journal.bounded, happens, ?_, ?_⟩
  · rintro name answer rfl
    exact happens.answers
  · intro refusal refuses
    rw [sameEvents] at suffix
    rcases passes.refusals event (suffix.subset List.mem_cons_self) with old | isLast
    · cases old
    · exact isLast refusal refuses

/-- A variable of an inner block that is initialised with its own name. -/
def shadowingSource : String := "\x7bvar a;\x7bvar a=a;\x7d\x7d"

/-- The tokens of the text. -/
def shadowingTokens : Array Token :=
  #[⟨.punctuation .leftBrace, 0, 1, 1, "\x7b"⟩, ⟨.keyword .varWord, 1, 4, 1, "var"⟩,
    ⟨.identifier "a", 5, 6, 1, "a"⟩, ⟨.punctuation .semicolon, 6, 7, 1, ";"⟩,
    ⟨.punctuation .leftBrace, 7, 8, 1, "\x7b"⟩, ⟨.keyword .varWord, 8, 11, 1, "var"⟩,
    ⟨.identifier "a", 12, 13, 1, "a"⟩, ⟨.punctuation .equal, 13, 14, 1, "="⟩,
    ⟨.identifier "a", 14, 15, 1, "a"⟩, ⟨.punctuation .semicolon, 15, 16, 1, ";"⟩,
    ⟨.punctuation .rightBrace, 16, 17, 1, "\x7d"⟩, ⟨.punctuation .rightBrace, 17, 18, 1, "\x7d"⟩,
    ⟨.endOfInput, 18, 18, 1, ""⟩]

/-- What happens to names in the text, latest first. -/
def shadowingEvents : List NameEvent :=
  [.use "a" (.error (.scope .readInInitializer)), .localDeclaration "a" none, .blockBegins,
    .initialization "a", .localDeclaration "a" none, .blockBegins]

/--
In its own initialiser the inner variable is not the outer one of the same name, and the text
is refused.
-/
theorem shadowingSource_resolves_lexically :
    Token.scan shadowingSource = .ok shadowingTokens ∧
      maxNesting < 257 ∧
        shadowingTokens.size < 14 ∧
          ∃ outcome after environment present around,
            script 257 .run 14 (.start (start shadowingTokens { name := "main" } 0 0)) =
                some (outcome, after) ∧
              problem? outcome = some (.scope .readInInitializer) ∧
                after.events = shadowingEvents ∧
                  Lexical.Journal after.state.table shadowingEvents environment ∧
                    Lexical.Answers after.state.table present around "a"
                        (.error (.scope .readInInitializer)) ∧
                      ∀ moment ∈ after.moments, moment.slots ≤ 256 := by
  have observed :
      (script 257 .run 14 (.start (start shadowingTokens { name := "main" } 0 0))).map
          (fun result => (problem? result.1, result.2.events)) =
        some (some (.scope .readInInitializer), shadowingEvents) := by
    cbv
  rcases names_resolve_lexically .run shadowingTokens { name := "main" } 0 0 257 14 (by decide)
      (by decide) with
    ⟨outcome, after, environment, runs, -, journal, -, events, slots⟩
  rw [runs] at observed
  have problem : problem? outcome = some (.scope .readInInitializer) :=
    congrArg Prod.fst (Option.some.inj observed)
  have isEvents : after.events = shadowingEvents := congrArg Prod.snd (Option.some.inj observed)
  rw [isEvents] at events journal
  rcases events shadowingEvents.tail _ (List.suffix_refl shadowingEvents) with
    ⟨present, around, last, -, -, -, answers, -⟩
  exact ⟨by cbv, by decide, by decide, outcome, after, environment, present, around, runs, problem,
    isEvents, journal, answers _ _ rfl, slots⟩

end Observed

end ScriptEngine
