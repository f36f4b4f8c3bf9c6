import ScriptEngine.Proofs.Code.Flow
import ScriptEngine.Proofs.Code.Pool
import ScriptEngine.Proofs.Compiler.Emission

/-!
# The code of an expression is typed

The code of a tree leads from any height of the stack to the next one.  The
constants and module variables that it refers to exist, and so do the local
variables, if all names of the scope lie below the height.
-/

namespace ScriptEngine

/-- Whether a name can be that of a variable; slot zero of a function has another one. -/
def IsVariableName (name : String) : Prop :=
  name ≠ "" ∧ name ≠ "this"

/-- Every local variable that can be used lies below a height. -/
structure Scope.Fits (scope : Scope) (height : Nat) : Prop where
  positive : 0 < height
  inside :
    ∀ name slot,
      scope.resolve name = .ok (some slot) → slot < height ∧ slot < Scope.maxLocals
  notZero :
    ∀ name, scope.resolve name = .ok (some 0) → ¬ IsVariableName name

theorem Scope.Fits.mono
    {scope : Scope}
    {height higher : Nat}
    (fits : scope.Fits height)
    (bound : height ≤ higher) :
    scope.Fits higher where
  positive := Nat.lt_of_lt_of_le fits.positive bound
  inside name slot resolved :=
    ⟨Nat.lt_of_lt_of_le (fits.inside name slot resolved).1 bound,
      (fits.inside name slot resolved).2⟩
  notZero := fits.notZero

namespace Syntax

namespace Resources

/-- What operands can refer to. -/
def context (resources : Resources) : CodeContext where
  constants := resources.pool.constants
  slots := resources.table.size

/-- Constants and variables are where they are remembered to be. -/
structure Sound (resources : Resources) : Prop where
  pool : resources.pool.Remembers
  table : resources.table.Indexed

/-- Constants and variables have been added; the constants are numbers and texts. -/
structure Grows (before after : Resources) : Prop where
  sound : after.Sound
  context : before.context.Extends after.context
  added :
    ∀ value ∈ after.pool.constants, value ∈ before.pool.constants ∨ value.isLiteral = true

theorem Grows.refl {resources : Resources} (sound : resources.Sound) :
    Grows resources resources :=
  ⟨sound, .refl _, fun _ => .inl⟩

theorem Grows.trans
    {before between after : Resources}
    (first : Grows before between)
    (second : Grows between after) :
    Grows before after :=
  ⟨second.sound, first.context.trans second.context, fun value member =>
    (second.added value member).elim (first.added value) .inr⟩

end Resources

open Resources

/-- Instructions that lead from a height to another one, as the annotations show. -/
def Leads (context : CodeContext) (height : Nat) (instructions : List Instruction)
    (higher : Nat) : Prop :=
  ∃ code,
    Annotated.erase code = instructions ∧
      Fragment context (.plain height) code (.plain higher)

namespace Leads

variable
  {context later : CodeContext}
  {height between higher : Nat}
  {first second : List Instruction}

theorem extend (leads : Leads context height first higher) (extends_ : context.Extends later) :
    Leads later height first higher := by
  obtain ⟨code, erased, fragment⟩ := leads
  exact ⟨code, erased, fragment.extend extends_⟩

theorem nil (context : CodeContext) (height : Nat) : Leads context height [] height :=
  ⟨[], rfl, .nil _ _⟩

theorem append (start : Leads context height first between)
    (rest : Leads context between second higher) :
    Leads context height (first ++ second) higher := by
  obtain ⟨startCode, rfl, startFragment⟩ := start
  obtain ⟨restCode, rfl, restFragment⟩ := rest
  exact ⟨startCode ++ restCode, by simp, startFragment.append restFragment⟩

/-- An instruction that has nothing to do with classes and is followed by the next one. -/
theorem single
    {instruction : Instruction}
    (ordinary : instruction.isOrdinary = true)
    (takes : instruction.takes < height)
    (operands : context.Admits height instruction)
    (result : height - instruction.takes + instruction.gives = higher) :
    Leads context height [instruction] higher := by
  have shape : instruction.after (.plain height) = .plain higher := by
    rw [Instruction.after_plain ordinary, result]
  have straight := Instruction.isStraight_of_isOrdinary ordinary
  have attaches := Instruction.not_attaches_of_isOrdinary ordinary
  refine ⟨[(.plain height, instruction)], rfl, ?_⟩
  rw [← shape]
  exact .single straight takes (.inr operands) (by simp [attaches])

/-- The class of arrays is read from its slot, whether the module has it or not. -/
theorem arrayClass (context : CodeContext) (positive : 0 < height) :
    Leads context height [.getModule (UInt16.ofNat Compiler.arraySlot)] (height + 1) :=
  ⟨[(.plain height, .getModule 0)], rfl, .single rfl positive (.inl rfl) nofun⟩

/-- The instruction that pushes a constant. -/
theorem pushConstant
    {index : Nat}
    (positive : 0 < height)
    (inside : index < context.constants.size)
    (bounded : index < Chunk.maxConstants) :
    Leads context height [Generator.pushConstant index] (height + 1) := by
  unfold Generator.pushConstant
  split
  · rename_i small
    refine single rfl positive ?_ rfl
    show (UInt8.ofNat index).toNat < _
    rwa [UInt8.toNat_ofNat', Nat.mod_eq_of_lt small]
  · refine single rfl positive ?_ rfl
    show (UInt16.ofNat index).toNat < _
    rwa [toNat_ofNat_of_near (Nat.le_of_lt_succ bounded)]

/-- Code that is skipped if the value on top of the stack fails. -/
theorem skip
    (leads : Leads context height first height)
    (above : 1 < height)
    (near : Instruction.totalLength first ≤ Chunk.maxDistance) :
    Leads context height
      (.jumpIfFalse (UInt16.ofNat (Instruction.totalLength first)) :: first) height := by
  obtain ⟨code, rfl, fragment⟩ := leads
  exact ⟨_, rfl, fragment.skip above near⟩

/-- Two alternatives for a value on top of the stack that is tested. -/
theorem branch
    (consequence : Leads context height first higher)
    (alternative : Leads context height second higher)
    (above : 1 < height)
    (positive : 0 < higher)
    (consequenceNear : Instruction.totalLength first + 3 ≤ Chunk.maxDistance)
    (alternativeNear : Instruction.totalLength second ≤ Chunk.maxDistance) :
    Leads context height
      (.jumpIfFalse (UInt16.ofNat (Instruction.totalLength first + 3)) ::
        (first ++ .jump (UInt16.ofNat (Instruction.totalLength second)) :: second))
      higher := by
  obtain ⟨firstCode, rfl, firstFragment⟩ := consequence
  obtain ⟨secondCode, rfl, secondFragment⟩ := alternative
  refine ⟨_, ?_, firstFragment.branch secondFragment above positive consequenceNear
    alternativeNear⟩
  simp [Annotated.size]

end Leads

/-! ## The parts of the generator -/

namespace Generator

variable {resources after : Resources}

theorem constantIndex_grows
    (sound : resources.Sound)
    {value : Value}
    (literal : value.isLiteral = true)
    {index : Nat}
    (generated : constantIndex value resources = some (index, after)) :
    Grows resources after ∧ after.pool.constants[index]? = some value := by
  unfold constantIndex at generated
  split at generated
  · rename_i position pool added
    cases generated
    have adds := Chunk.addConstant_adds sound.pool added
    refine ⟨⟨⟨adds.remembers, sound.table⟩, ⟨adds.grows, Nat.le_refl _⟩, ?_⟩,
      adds.found⟩
    intro other member
    rcases adds.nothingElse _ member with old | rfl
    · exact .inl old
    · exact .inr literal
  · cases generated

theorem lt_max_of_found
    (sound : after.Sound)
    {index : Nat}
    {value : Value}
    (found : after.pool.constants[index]? = some value) :
    index < Chunk.maxConstants :=
  Nat.lt_of_lt_of_le (Array.getElem?_eq_some_iff.mp found).1 sound.pool.size_le

/-- The name stands at its position among the constants. -/
theorem nameIndex_found
    (sound : resources.Sound)
    {name : String}
    {index : UInt16}
    (generated : nameIndex name resources = some (index, after)) :
    Grows resources after ∧ after.pool.constants[index.toNat]? = some (.string name) := by
  simp only [nameIndex, bind_apply, pure_apply, Option.bind_eq_some_iff, Option.some.injEq,
    Prod.mk.injEq] at generated
  obtain ⟨⟨position, between⟩, found, rfl, rfl⟩ := generated
  obtain ⟨grows, isName⟩ := constantIndex_grows sound rfl found
  have bounded := lt_max_of_found grows.sound isName
  refine ⟨grows, ?_⟩
  rw [toNat_ofNat_of_near (Nat.le_of_lt_succ bounded)]
  exact isName

theorem nameIndex_grows
    (sound : resources.Sound)
    {name : String}
    {index : UInt16}
    (generated : nameIndex name resources = some (index, after)) :
    Grows resources after ∧ after.context.HasName index := by
  obtain ⟨grows, found⟩ := nameIndex_found sound generated
  exact ⟨grows, name, found⟩

theorem constant_leads
    (sound : resources.Sound)
    {value : Value}
    (literal : value.isLiteral = true)
    {instruction : Instruction}
    (generated : constant value resources = some (instruction, after))
    {height : Nat}
    (positive : 0 < height) :
    Grows resources after ∧ Leads after.context height [instruction] (height + 1) := by
  simp only [constant, bind_apply, pure_apply, Option.bind_eq_some_iff, Option.some.injEq,
    Prod.mk.injEq] at generated
  obtain ⟨⟨position, between⟩, found, rfl, rfl⟩ := generated
  obtain ⟨grows, isValue⟩ := constantIndex_grows sound literal found
  exact ⟨grows, .pushConstant positive (Array.getElem?_eq_some_iff.mp isValue).1
    (lt_max_of_found grows.sound isValue)⟩

theorem moduleSlot_grows
    (sound : resources.Sound)
    {name : String}
    {slot : Nat}
    (generated : moduleSlot name resources = some (slot, after)) :
    Grows resources after ∧ slot < after.table.size := by
  unfold moduleSlot at generated
  split at generated
  · rename_i position table declared
    cases generated
    have size := Module.size_le_declare resources.table name
    have indexed := sound.table.declare name
    rw [declared] at size indexed
    exact ⟨⟨⟨sound.pool, indexed⟩,
      ⟨List.prefix_refl _, size⟩, fun _ => .inl⟩,
      Module.lt_size_of_declare sound.table declared⟩
  · cases generated

/-- A variable has its slot afterwards. -/
theorem moduleSlot_found
    {name : String}
    {slot : Nat}
    (generated : moduleSlot name resources = some (slot, after)) :
    after.table.find? name = some slot := by
  unfold moduleSlot at generated
  split at generated
  · rename_i position table declared
    cases generated
    exact Module.find?_of_declare declared
  · cases generated

theorem require_eq
    {condition : Bool}
    {result : Unit}
    (generated : require condition resources = some (result, after)) :
    condition = true ∧ after = resources := by
  unfold require at generated
  split at generated
  · rename_i holds
    cases generated
    exact ⟨holds, rfl⟩
  · cases generated

/-- A reference is to something that exists. -/
def Refers (after : Resources) (scope : Scope) (name : String) : Compiler.Reference → Prop
  | .moduleSlot slot => slot < after.table.size
  | .localSlot slot => scope.resolve name = .ok (some slot)

theorem reference_grows
    {surroundings : Surroundings}
    (sound : resources.Sound)
    {name : String}
    {target : Compiler.Reference}
    (generated : reference surroundings name resources = some (target, after)) :
    Grows resources after ∧ Refers after surroundings.scope name target := by
  rcases resolved : surroundings.scope.resolve name with problem | (_ | slot)
  · simp only [reference, resolved] at generated
    cases generated
  · simp only [reference, resolved, bind_apply, pure_apply, Option.bind_eq_some_iff,
      Option.some.injEq, Prod.mk.injEq] at generated
    obtain ⟨⟨_, between⟩, required, ⟨slot, final⟩, declared, rfl, rfl⟩ := generated
    obtain ⟨-, rfl⟩ := require_eq required
    exact moduleSlot_grows sound declared
  · simp only [reference, resolved, pure_apply, Option.some.injEq, Prod.mk.injEq] at generated
    obtain ⟨rfl, rfl⟩ := generated
    exact ⟨.refl sound, resolved⟩

theorem reference_of_local
    {surroundings : Surroundings}
    {name : String}
    {slot : Nat}
    {target : Compiler.Reference}
    (resolved : surroundings.scope.resolve name = .ok (some slot))
    (generated : reference surroundings name resources = some (target, after)) :
    target = .localSlot slot := by
  simp only [reference, resolved, pure_apply, Option.some.injEq, Prod.mk.injEq] at generated
  exact generated.1.symm

theorem reference_of_module
    {surroundings : Surroundings}
    {name : String}
    {slot : Nat}
    {target : Compiler.Reference}
    (resolved : surroundings.scope.resolve name = .ok none)
    (known : resources.table.find? name = some slot)
    (generated : reference surroundings name resources = some (target, after)) :
    target = .moduleSlot slot := by
  simp only [reference, resolved, bind_apply, pure_apply, Option.bind_eq_some_iff,
    Option.some.injEq, Prod.mk.injEq] at generated
  obtain ⟨⟨_, between⟩, required, ⟨other, final⟩, declared, rfl, rfl⟩ := generated
  obtain ⟨-, rfl⟩ := require_eq required
  simp only [moduleSlot, Module.declare, known, Option.some.injEq, Prod.mk.injEq] at declared
  rw [declared.1]

theorem toNat_moduleSlot
    (sound : after.Sound)
    {slot : Nat}
    (inside : slot < after.table.size) :
    (UInt16.ofNat slot).toNat = slot :=
  toNat_ofNat_of_near (Nat.le_of_lt_succ (Nat.lt_of_lt_of_le inside sound.table.bounded))

theorem toNat_localSlot {slot : Nat} (small : slot < Scope.maxLocals) :
    (UInt8.ofNat slot).toNat = slot := by
  rw [UInt8.toNat_ofNat']
  exact Nat.mod_eq_of_lt small

theorem read_leads
    (sound : after.Sound)
    {scope : Scope}
    {height : Nat}
    (fits : scope.Fits height)
    {name : String}
    {target : Compiler.Reference}
    (refers : Refers after scope name target) :
    Leads after.context height [target.read] (height + 1) := by
  cases target with
  | moduleSlot slot =>
      refine .single rfl fits.positive ?_ rfl
      show (UInt16.ofNat slot).toNat < after.table.size
      rw [toNat_moduleSlot sound refers]
      exact refers
  | localSlot slot =>
      obtain ⟨inside, small⟩ := fits.inside name slot refers
      refine .single rfl fits.positive ?_ rfl
      show (UInt8.ofNat slot).toNat < height
      rw [toNat_localSlot small]
      exact inside

theorem write_leads
    (sound : after.Sound)
    {scope : Scope}
    {height : Nat}
    (fits : scope.Fits height)
    {name : String}
    (isVariable : IsVariableName name)
    {target : Compiler.Reference}
    (refers : Refers after scope name target) :
    Leads after.context (height + 1) [target.write] (height + 1) := by
  have positive := fits.positive
  cases target with
  | moduleSlot slot =>
      refine .single rfl (Nat.succ_lt_succ positive) ?_ rfl
      show (UInt16.ofNat slot).toNat < after.table.size
      rw [toNat_moduleSlot sound refers]
      exact refers
  | localSlot slot =>
      obtain ⟨inside, small⟩ := fits.inside name slot refers
      have same := toNat_localSlot small
      refine .single rfl (Nat.succ_lt_succ positive) ⟨?_, ?_⟩ rfl
      · intro zero
        have isZero : slot = 0 := by
          rw [← same, zero]
          rfl
        subst isZero
        exact fits.notZero name refers isVariable
      · rw [same]
        exact Nat.lt_succ_of_lt inside

theorem requireWritable_eq
    {target : Compiler.Reference}
    {result : Unit}
    (generated : requireWritable target resources = some (result, after)) :
    after = resources := by
  unfold requireWritable at generated
  split at generated
  · cases generated
    rfl
  · cases generated

theorem jumpOver_eq
    {jump : ForwardJump}
    {skipped : List Instruction}
    {instruction : Instruction}
    (generated : jumpOver jump skipped resources = some (instruction, after)) :
    Instruction.totalLength skipped ≤ Chunk.maxDistance ∧
      instruction = jump.past (UInt16.ofNat (Instruction.totalLength skipped)) ∧
      after = resources := by
  simp only [jumpOver, bind_apply, pure_apply, Option.bind_eq_some_iff, Option.some.injEq,
    Prod.mk.injEq] at generated
  obtain ⟨⟨_, between⟩, required, rfl, rfl⟩ := generated
  obtain ⟨near, rfl⟩ := require_eq required
  exact ⟨of_decide_eq_true near, rfl, rfl⟩

end Generator

/-! ## Trees -/

open Generator

theorem popLeads (context : CodeContext) {height : Nat} (positive : 0 < height) :
    Leads context (height + 1) [.pop] height :=
  .single rfl (Nat.succ_lt_succ positive) trivial rfl

theorem toNat_argumentCount {count : Nat} (few : count ≤ Compiler.maxArguments) :
    (UInt8.ofNat count).toNat = count := by
  rw [UInt8.toNat_ofNat']
  exact Nat.mod_eq_of_lt (Nat.lt_succ_of_le few)

theorem Generator.Refers.mono
    {before after : Resources}
    {scope : Scope}
    {name : String}
    {target : Compiler.Reference}
    (refers : Refers before scope name target)
    (grows : Grows before after) :
    Refers after scope name target := by
  cases target with
  | moduleSlot slot => exact Nat.lt_of_lt_of_le refers grows.context.slots
  | localSlot slot => exact refers

theorem binaryInstructions_lead
    (context : CodeContext)
    {height : Nat}
    (positive : 0 < height)
    (operator : BinaryOperator) :
    Leads context (height + 1 + 1) (binaryInstructions operator) (height + 1) := by
  have one :
      ∀ instruction : Instruction,
        instruction.isOrdinary = true → instruction.takes = 2 → instruction.gives = 1 →
        context.Admits (height + 1 + 1) instruction →
          Leads context (height + 1 + 1) [instruction] (height + 1) := by
    intro instruction ordinary takes gives admits
    exact .single ordinary (by omega) admits (by omega)
  have negated : Leads context (height + 1) [.negateTruth] (height + 1) :=
    .single rfl (Nat.succ_lt_succ positive) trivial rfl
  cases operator with
  | notEqual => exact (one .equal rfl rfl rfl trivial).append negated
  | greaterEqual => exact (one .less rfl rfl rfl trivial).append negated
  | lessEqual => exact (one .greater rfl rfl rfl trivial).append negated
  | _ => exact one _ rfl rfl rfl trivial

/-- What the code of an expression does with the height of the stack and the resources. -/
structure Generates
    (height : Nat)
    (before : Resources)
    (instructions : List Instruction)
    (after : Resources)
    (higher : Nat) :
    Prop where
  grows : Grows before after
  leads : Leads after.context height instructions higher

namespace Generates

variable
  {height between higher : Nat}
  {start middle final : Resources}
  {first second : List Instruction}

theorem append
    (generates : Generates height start first middle between)
    (following : Generates between middle second final higher) :
    Generates height start (first ++ second) final higher :=
  ⟨generates.grows.trans following.grows,
    (generates.leads.extend following.grows.context).append following.leads⟩

/-- Instructions at the end that need no further resources. -/
theorem appendLeads
    (generates : Generates height start first final between)
    (following : Leads final.context between second higher) :
    Generates height start (first ++ second) final higher :=
  ⟨generates.grows, generates.leads.append following⟩

/-- Resources that grow before the code is written. -/
theorem afterGrowth
    (growth : Grows start middle)
    (generates : Generates height middle first final higher) :
    Generates height start first final higher :=
  ⟨growth.trans generates.grows, generates.leads⟩

end Generates

section Trees

variable {surroundings : Surroundings} {allowed : String → Prop}

mutual

/-- The code of an expression pushes one value. -/
theorem Expr.code_generates
    (tree : Expr)
    (assigns : tree.Assigns IsVariableName)
    {height : Nat}
    (fits : surroundings.scope.Fits height)
    {before after : Resources}
    (sound : before.Sound)
    {instructions : List Instruction}
    (generated : tree.code surroundings before = some (instructions, after)) :
    Generates height before instructions after (height + 1) := by
  have positive := fits.positive
  have fitsAbove := fits.mono (Nat.le_succ height)
  cases tree with
  | number value =>
      simp only [Expr.code, bind_apply, Option.bind_eq_some_iff, pure_apply, Option.some.injEq,
        Prod.mk.injEq] at generated
      obtain ⟨⟨instruction, _⟩, found, rfl, rfl⟩ := generated
      obtain ⟨grows, leads⟩ := constant_leads sound rfl found positive
      exact ⟨grows, leads⟩
  | string content =>
      simp only [Expr.code, bind_apply, Option.bind_eq_some_iff, pure_apply, Option.some.injEq,
        Prod.mk.injEq] at generated
      obtain ⟨⟨instruction, _⟩, found, rfl, rfl⟩ := generated
      obtain ⟨grows, leads⟩ := constant_leads sound rfl found positive
      exact ⟨grows, leads⟩
  | literal word =>
      simp only [Expr.code, pure_apply, Option.some.injEq, Prod.mk.injEq] at generated
      obtain ⟨rfl, rfl⟩ := generated
      refine ⟨.refl sound, ?_⟩
      cases word <;> exact .single rfl positive trivial rfl
  | named name =>
      simp only [Expr.code, bind_apply, Option.bind_eq_some_iff, pure_apply, Option.some.injEq,
        Prod.mk.injEq] at generated
      obtain ⟨⟨target, _⟩, found, rfl, rfl⟩ := generated
      obtain ⟨grows, refers⟩ := reference_grows sound found
      exact ⟨grows, read_leads grows.sound fits refers⟩
  | receiver =>
      simp only [Expr.code, bind_apply, Option.bind_eq_some_iff, pure_apply, Option.some.injEq,
        Prod.mk.injEq] at generated
      obtain ⟨⟨_, _⟩, required, rfl, rfl⟩ := generated
      obtain ⟨-, rfl⟩ := require_eq required
      exact ⟨.refl sound, .single rfl positive positive rfl⟩
  | grouping inner =>
      rw [Expr.code] at generated
      exact inner.code_generates assigns fits sound generated
  | array elements =>
      simp only [Expr.code, bind_apply, Option.bind_eq_some_iff, pure_apply, Option.some.injEq,
        Prod.mk.injEq] at generated
      obtain ⟨⟨push, named⟩, pushFound, ⟨filling, _⟩, filled, rfl, rfl⟩ := generated
      obtain ⟨pushGrows, isName⟩ := nameIndex_grows sound pushFound
      have fill := itemsCode_generates elements assigns 0 [.invoke push 1] fitsAbove
        pushGrows.sound
        (by
          intro later higher extends_ bound
          refine .single rfl ?_ (extends_.hasName isName) ?_
          · show 2 < higher + 1
            omega
          · show higher + 1 - 2 + 1 = higher + 0
            omega)
        filled
      have called : Leads named.context (height + 1) [.call 0] (height + 1) :=
        .single rfl (Nat.succ_lt_succ positive) trivial rfl
      have whole := Generates.append
        ⟨pushGrows, (Leads.arrayClass named.context positive).append called⟩ fill
      simpa using whole
  | unary operator operand =>
      simp only [Expr.code, bind_apply, Option.bind_eq_some_iff, pure_apply, Option.some.injEq,
        Prod.mk.injEq] at generated
      obtain ⟨⟨operandCode, _⟩, found, rfl, rfl⟩ := generated
      have inner := operand.code_generates assigns fits sound found
      refine inner.appendLeads ?_
      cases operator <;> exact .single rfl (Nat.succ_lt_succ positive) trivial rfl
  | binary operator left right =>
      simp only [Expr.code, bind_apply, Option.bind_eq_some_iff, pure_apply, Option.some.injEq,
        Prod.mk.injEq] at generated
      obtain ⟨⟨leftCode, _⟩, leftFound, ⟨rightCode, _⟩, rightFound, rfl, rfl⟩ := generated
      have first := left.code_generates assigns.1 fits sound leftFound
      have second := right.code_generates assigns.2 fitsAbove first.grows.sound rightFound
      exact (first.append second).appendLeads (binaryInstructions_lead _ positive operator)
  | conjunction left right =>
      simp only [Expr.code, bind_apply, Option.bind_eq_some_iff, pure_apply, Option.some.injEq,
        Prod.mk.injEq] at generated
      obtain ⟨⟨leftCode, _⟩, leftFound, ⟨rightCode, _⟩, rightFound, ⟨jump, _⟩, jumpFound, rfl,
        rfl⟩ := generated
      obtain ⟨near, rfl, rfl⟩ := jumpOver_eq jumpFound
      have first := left.code_generates assigns.1 fits sound leftFound
      have second := right.code_generates assigns.2 fits first.grows.sound rightFound
      refine ⟨first.grows.trans second.grows, (first.leads.extend second.grows.context).append ?_⟩
      exact ((popLeads _ positive).append second.leads).skip (Nat.succ_lt_succ positive) near
  | disjunction left right =>
      simp only [Expr.code, bind_apply, Option.bind_eq_some_iff, pure_apply, Option.some.injEq,
        Prod.mk.injEq] at generated
      obtain ⟨⟨leftCode, _⟩, leftFound, ⟨rightCode, _⟩, rightFound, ⟨jump, _⟩, jumpFound, rfl,
        rfl⟩ := generated
      obtain ⟨near, rfl, rfl⟩ := jumpOver_eq jumpFound
      have first := left.code_generates assigns.1 fits sound leftFound
      have second := right.code_generates assigns.2 fits first.grows.sound rightFound
      refine ⟨first.grows.trans second.grows, (first.leads.extend second.grows.context).append ?_⟩
      exact (Leads.nil _ _).branch ((popLeads _ positive).append second.leads)
        (Nat.succ_lt_succ positive) (Nat.succ_pos _) (by decide) near
  | call callee arguments =>
      simp only [Expr.code, bind_apply, Option.bind_eq_some_iff, pure_apply, Option.some.injEq,
        Prod.mk.injEq] at generated
      obtain ⟨⟨calleeCode, _⟩, calleeFound, ⟨argumentCode, _⟩, argumentsFound, ⟨_, _⟩, required,
        rfl, rfl⟩ := generated
      obtain ⟨few, rfl⟩ := require_eq required
      have first := callee.code_generates assigns.1 fits sound calleeFound
      have second := itemsCode_generates arguments assigns.2 1 [] fitsAbove first.grows.sound
        (fun _ _ _ _ => .nil _ _) argumentsFound
      have count := toNat_argumentCount (of_decide_eq_true few)
      refine (first.append second).appendLeads (.single rfl ?_ trivial ?_)
      · show (UInt8.ofNat arguments.length).toNat + 1 < _
        omega
      · show _ - ((UInt8.ofNat arguments.length).toNat + 1) + 1 = _
        omega
  | property owner name =>
      simp only [Expr.code, bind_apply, Option.bind_eq_some_iff, pure_apply, Option.some.injEq,
        Prod.mk.injEq] at generated
      obtain ⟨⟨ownerCode, _⟩, ownerFound, ⟨index, _⟩, nameFound, rfl, rfl⟩ := generated
      have first := owner.code_generates assigns fits sound ownerFound
      obtain ⟨grows, isName⟩ := nameIndex_grows first.grows.sound nameFound
      exact ⟨first.grows.trans grows, (first.leads.extend grows.context).append
        (.single rfl (Nat.succ_lt_succ positive) isName rfl)⟩
  | invocation owner name arguments =>
      simp only [Expr.code, bind_apply, Option.bind_eq_some_iff, pure_apply, Option.some.injEq,
        Prod.mk.injEq] at generated
      obtain ⟨⟨ownerCode, _⟩, ownerFound, ⟨index, _⟩, nameFound, ⟨argumentCode, _⟩,
        argumentsFound, ⟨_, _⟩, required, rfl, rfl⟩ := generated
      obtain ⟨few, rfl⟩ := require_eq required
      have first := owner.code_generates assigns.1 fits sound ownerFound
      obtain ⟨grows, isName⟩ := nameIndex_grows first.grows.sound nameFound
      have named : Generates height before ownerCode _ (height + 1) :=
        ⟨first.grows.trans grows, first.leads.extend grows.context⟩
      have second := itemsCode_generates arguments assigns.2 1 [] fitsAbove grows.sound
        (fun _ _ _ _ => .nil _ _) argumentsFound
      have count := toNat_argumentCount (of_decide_eq_true few)
      refine (named.append second).appendLeads
        (.single rfl ?_ (second.grows.context.hasName isName) ?_)
      · show (UInt8.ofNat arguments.length).toNat + 1 < _
        omega
      · show _ - ((UInt8.ofNat arguments.length).toNat + 1) + 1 = _
        omega
  | subscript owner index =>
      simp only [Expr.code, bind_apply, Option.bind_eq_some_iff, pure_apply, Option.some.injEq,
        Prod.mk.injEq] at generated
      obtain ⟨⟨ownerCode, _⟩, ownerFound, ⟨indexCode, _⟩, indexFound, rfl, rfl⟩ := generated
      have first := owner.code_generates assigns.1 fits sound ownerFound
      have second := index.code_generates assigns.2 fitsAbove first.grows.sound indexFound
      exact (first.append second).appendLeads
        (.single rfl (Nat.succ_lt_succ (Nat.succ_lt_succ positive)) trivial rfl)
  | assignName name value =>
      simp only [Expr.code, bind_apply, Option.bind_eq_some_iff, pure_apply, Option.some.injEq,
        Prod.mk.injEq] at generated
      obtain ⟨⟨target, _⟩, found, ⟨_, _⟩, writable, ⟨valueCode, _⟩, valueFound, rfl, rfl⟩ :=
        generated
      obtain rfl := requireWritable_eq writable
      obtain ⟨grows, refers⟩ := reference_grows sound found
      have second := value.code_generates assigns.2 fits grows.sound valueFound
      refine (second.afterGrowth grows).appendLeads ?_
      exact write_leads second.grows.sound fits assigns.1 (refers.mono second.grows)
  | assignProperty owner name value =>
      simp only [Expr.code, bind_apply, Option.bind_eq_some_iff, pure_apply, Option.some.injEq,
        Prod.mk.injEq] at generated
      obtain ⟨⟨ownerCode, _⟩, ownerFound, ⟨index, _⟩, nameFound, ⟨valueCode, _⟩, valueFound,
        rfl, rfl⟩ := generated
      have first := owner.code_generates assigns.1 fits sound ownerFound
      obtain ⟨grows, isName⟩ := nameIndex_grows first.grows.sound nameFound
      have named : Generates height before ownerCode _ (height + 1) :=
        ⟨first.grows.trans grows, first.leads.extend grows.context⟩
      have second := value.code_generates assigns.2 fitsAbove grows.sound valueFound
      exact (named.append second).appendLeads
        (.single rfl (Nat.succ_lt_succ (Nat.succ_lt_succ positive))
          (second.grows.context.hasName isName) rfl)
  | assignSubscript owner index value =>
      simp only [Expr.code, bind_apply, Option.bind_eq_some_iff, pure_apply, Option.some.injEq,
        Prod.mk.injEq] at generated
      obtain ⟨⟨ownerCode, _⟩, ownerFound, ⟨indexCode, _⟩, indexFound, ⟨valueCode, _⟩,
        valueFound, rfl, rfl⟩ := generated
      have first := owner.code_generates assigns.1 fits sound ownerFound
      have second := index.code_generates assigns.2.1 fitsAbove first.grows.sound indexFound
      have third := value.code_generates assigns.2.2 (fitsAbove.mono (Nat.le_succ _))
        second.grows.sound valueFound
      exact ((first.append second).append third).appendLeads
        (.single rfl (Nat.succ_lt_succ (Nat.succ_lt_succ (Nat.succ_lt_succ positive))) trivial rfl)

/-- Expressions one after the other, each of which leaves `gain` values together with its suffix. -/
theorem itemsCode_generates
    (items : List Expr)
    (assigns : AllAssign IsVariableName items)
    (gain : Nat)
    (suffix : List Instruction)
    {height : Nat}
    (fits : surroundings.scope.Fits height)
    {before after : Resources}
    (sound : before.Sound)
    (suffixLeads :
      ∀ later higher,
        before.context.Extends later →
        height ≤ higher →
          Leads later (higher + 1) suffix (higher + gain))
    {instructions : List Instruction}
    (generated :
      itemsCode surroundings suffix items before = some (instructions, after)) :
    Generates height before instructions after (height + gain * items.length) := by
  cases items with
  | nil =>
      simp only [itemsCode, pure_apply, Option.some.injEq, Prod.mk.injEq] at generated
      obtain ⟨rfl, rfl⟩ := generated
      exact ⟨.refl sound, .nil _ _⟩
  | cons first rest =>
      simp only [itemsCode, bind_apply, Option.bind_eq_some_iff, pure_apply, Option.some.injEq,
        Prod.mk.injEq] at generated
      obtain ⟨⟨firstCode, between⟩, firstFound, ⟨restCode, _⟩, restFound, rfl, rfl⟩ := generated
      have start := first.code_generates assigns.1 fits sound firstFound
      have ended := start.appendLeads
        (suffixLeads between.context height start.grows.context (Nat.le_refl _))
      have others := itemsCode_generates rest assigns.2 gain suffix
        (fits.mono (Nat.le_add_right height gain)) start.grows.sound
        (fun later higher extends_ bound =>
          suffixLeads later higher (start.grows.context.trans extends_) (by omega))
        restFound
      have whole := ended.append others
      have total : height + gain + gain * rest.length =
          height + gain * (first :: rest).length := by
        rw [List.length_cons, Nat.mul_succ]
        omega
      rw [total] at whole
      exact whole

end

end Trees

end Syntax

end ScriptEngine
