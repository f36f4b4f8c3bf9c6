import ScriptEngine.Proofs.Compiler.FunctionFlow

/-!
# Class declarations

Between the instruction that makes a class and its last method the shape of the
stack says where the class is, so that every method finds it.
-/

namespace ScriptEngine

open Syntax Compilation

/-- A class is on top of the stack. -/
abbrev Shape.classTop (height : Nat) : Shape :=
  { height, mark := .classOnTop }

namespace Syntax

/-- Instructions that lead from one shape to another, as the annotations show. -/
def Carries (context : CodeContext) (first : Shape) (instructions : List Instruction)
    (last : Shape) : Prop :=
  ∃ code, Annotated.erase code = instructions ∧ Fragment context first code last

namespace Carries

variable
  {context later : CodeContext}
  {first between last : Shape}
  {instructions others : List Instruction}

theorem extend (carries : Carries context first instructions last)
    (extends_ : context.Extends later) :
    Carries later first instructions last := by
  obtain ⟨code, erased, fragment⟩ := carries
  exact ⟨code, erased, fragment.extend extends_⟩

theorem nil (context : CodeContext) (shape : Shape) : Carries context shape [] shape :=
  ⟨[], rfl, .nil _ _⟩

theorem append
    (start : Carries context first instructions between)
    (rest : Carries context between others last) :
    Carries context first (instructions ++ others) last := by
  obtain ⟨startCode, rfl, startFragment⟩ := start
  obtain ⟨restCode, rfl, restFragment⟩ := rest
  exact ⟨startCode ++ restCode, by simp, startFragment.append restFragment⟩

/-- An instruction after which the next one follows. -/
theorem single
    {instruction : Instruction}
    (straight : instruction.isStraight = true)
    (takes : instruction.takes < first.height)
    (operands : context.Admits first.height instruction)
    (attaches : instruction.attaches = true → first.mark = .classBelowTop)
    (result : instruction.after first = last) :
    Carries context first [instruction] last := by
  subst result
  exact ⟨[(first, instruction)], rfl, .single straight takes (.inr operands) attaches⟩

/-- A constant above a class. -/
theorem pushAboveClass
    {index height : Nat}
    (positive : 0 < height)
    (inside : index < context.constants.size)
    (bounded : index < Chunk.maxConstants) :
    Carries context (.classTop height) [Generator.pushConstant index]
      { height := height + 1, mark := .classBelowTop } := by
  unfold Generator.pushConstant
  split
  · rename_i small
    refine single rfl positive ?_ nofun rfl
    show (UInt8.ofNat index).toNat < _
    rwa [UInt8.toNat_ofNat', Nat.mod_eq_of_lt small]
  · refine single rfl positive ?_ nofun rfl
    show (UInt16.ofNat index).toNat < _
    rwa [toNat_ofNat_of_near (Nat.le_of_lt_succ bounded)]

/-- A method is attached to the class under it. -/
theorem attach
    {instruction : Instruction}
    {height : Nat}
    {name : UInt16}
    (isMethod : instruction = .method name ∨ instruction = .staticMethod name)
    (above : 1 < height)
    (named : context.HasName name) :
    Carries context { height := height + 1, mark := .classBelowTop } [instruction]
      (.classTop height) := by
  have height_eq : height + 1 - 2 + 1 = height := by omega
  have result := congrArg Shape.classTop height_eq
  rcases isMethod with rfl | rfl
  · exact single rfl (Nat.succ_lt_succ above) named (fun _ => rfl) result
  · exact single rfl (Nat.succ_lt_succ above) named (fun _ => rfl) result

end Carries

end Syntax

namespace Compiler

variable {inner : Inner}

/-- A method leaves the class on top of the stack. -/
theorem method_compiles
    (compiles : inner.Compiles)
    {state : Compilation}
    {height : Nat}
    (sound : state.Sound)
    (above : 1 < height) :
    Guarantees inner.method state
      (fun _ after =>
        (∃ instructions,
          Adds state after instructions ∧
            Carries after.context (.classTop height) instructions (.classTop height)) ∧
          after.draft.scope = state.draft.scope)
      (fun _ => True) := by
  -- Whether the method is static decides only its role and the last instruction.
  have finish :
      ∀ isStatic between,
        between.Sound →
          Guarantees
            (do
              let name ← consumeIdentifier "method name"
              let index ← nameIndex name
              inner.function name (Inner.methodRole isStatic name)
              emit (if isStatic then .staticMethod index else .method index))
            between
            (fun _ after =>
              (∃ instructions,
                Adds between after instructions ∧
                  Carries after.context (.classTop height) instructions (.classTop height)) ∧
                after.draft.scope = between.draft.scope)
            (fun _ => True) := by
    intro isStatic between betweenSound
    have entered := adds_advance betweenSound
    refine .bind (guarantees_consumeIdentifier (fun name _ => ?_) fun _ => trivial)
    refine .bind (guarantees_nameAdds entered.sound (fun index ready readied named scope => ?_)
      fun _ => trivial)
    rw [scope_advance] at scope
    refine .bind ((function_compiles compiles readied.sound name _).mono ?_ fun _ => id)
    rintro - pushed ⟨⟨position, pushes, inside, bounded⟩, pushedScope⟩
    refine guarantees_append fun after attaching => ?_
    have attached := attaching.adds pushes.sound
    have body := Carries.pushAboveClass (Nat.lt_of_succ_lt above) inside bounded
    have attach :
        Carries after.context { height := height + 1, mark := .classBelowTop }
          [if isStatic then .staticMethod index else .method index] (.classTop height) := by
      refine .attach ?_ above ((pushes.context.trans attached.context).hasName named)
      cases isStatic with
      | false => exact .inl rfl
      | true => exact .inr rfl
    refine ⟨⟨_, ((entered.trans readied).trans pushes).trans attached,
      (body.extend attached.context).append attach⟩, ?_⟩
    rw [attaching.writes.scope, pushedScope, scope]
  refine .bind (guarantees_matchKind (fun _ => ?_) fun _ => ?_)
  · have entered := adds_advance sound
    refine (finish true _ entered.sound).mono ?_ fun _ => id
    rintro - after ⟨⟨instructions, added, carries⟩, scope⟩
    exact ⟨⟨instructions, entered.trans added, carries⟩, scope.trans (scope_advance state)⟩
  · exact finish false state sound

/-- The use of a name reads what the name refers to. -/
theorem guarantees_readVariable
    {operand : OperandCompiler}
    {state : Compilation}
    {name : String}
    {onSuccess : Unit → Compilation → Prop}
    (sound : state.Sound)
    (success :
      ∀ target after,
        Generator.reference state.surroundings name state.resources =
          some (target, after.resources) →
        Adds state after [target.read] →
        after.draft.scope = state.draft.scope →
          onSuccess () after) :
    Guarantees (namedVariable operand name false) state onSuccess (fun _ => True) := by
  refine .bind (guarantees_resolve (fun target table resolved => ?_) fun _ _ => trivial)
  refine .bind (.pure (guarantees_append fun after appends => ?_))
  obtain ⟨grows, -⟩ := Generator.reference_grows sound.resources resolved
  have found := (Writes.withTable state table).adds sound grows
  have resolvedAfter := resolved
  rw [← appends.resources] at resolvedAfter
  exact success target after resolvedAfter (found.trans (appends.adds found.sound))
    appends.writes.scope

/-- The body of a class, whose methods find it on top of the stack. -/
theorem classBody_compiles
    (compiles : inner.Compiles)
    {state named : Compilation}
    {opening : List Instruction}
    (settled : state.draft.scope.Settled)
    (added : Adds state named opening)
    (carries :
      Carries named.context (.plain state.height) opening (.classTop (named.height + 1)))
    (declares : state.draft.scope.Declares named.draft.scope) :
    Guarantees
      (do
        consume .leftBrace "'\x7b' before class body"
        repeatWhile (fun _ => do
          if (← atMark .rightBrace) || (← atEnd) then
            return (false, ())
          else
            inner.method
            return (true, ())) ()
        consume .rightBrace "'\x7d' after class body"
        emit .pop)
      named (fun _ after => DeclarationDone state after) (fun _ => True) := by
  have positive : 0 < named.height := (declares.settled settled).fits.positive
  refine .bind (guarantees_expect (fun _ _ _ => ?_) fun _ => trivial)
  refine .bind ((guarantees_repeatInvariant
    (fun _ between =>
      (∃ instructions,
        Adds state between instructions ∧
          Carries between.context (.plain state.height) instructions
            (.classTop (named.height + 1))) ∧
        between.draft.scope = named.draft.scope) ?_ ?_).mono ?_ fun _ => id)
  · have entered := adds_advance added.sound
    refine ⟨⟨_, added.trans entered, ?_⟩, scope_advance named⟩
    rw [List.append_nil]
    exact carries.extend entered.context
  · rintro - between ⟨⟨instructions, betweenAdded, betweenCarries⟩, scope⟩
    refine .bind (guarantees_look (.bind (guarantees_look ?_)))
    split
    · exact .pure ⟨⟨instructions, betweenAdded, betweenCarries⟩, scope⟩
    · refine .bind ((method_compiles compiles betweenAdded.sound
        (Nat.succ_lt_succ positive)).mono ?_ fun _ => id)
      rintro - after ⟨⟨more, moreAdded, moreCarries⟩, afterScope⟩
      exact .pure ⟨⟨_, betweenAdded.trans moreAdded,
        (betweenCarries.extend moreAdded.context).append moreCarries⟩, afterScope.trans scope⟩
  · rintro - between ⟨⟨instructions, betweenAdded, betweenCarries⟩, scope⟩
    refine .bind (guarantees_expect (fun _ _ _ => ?_) fun _ => trivial)
    refine guarantees_append fun after popping => ?_
    have closed := adds_advance betweenAdded.sound
    have popped := popping.adds closed.sound
    have scopeAfter : after.draft.scope = named.draft.scope := by
      rw [popping.writes.scope, scope_advance, scope]
    have pops : Carries after.context (.classTop (named.height + 1)) [.pop] (.plain named.height) :=
      .single rfl (Nat.succ_lt_succ positive) trivial nofun rfl
    refine ⟨⟨_, (betweenAdded.trans closed).trans popped, ?_⟩, by rwa [scopeAfter]⟩
    have whole := (betweenCarries.extend (closed.context.trans popped.context)).append pops
    rw [List.append_nil, height_of_scope scopeAfter]
    exact whole

theorem classDeclaration_compiles (compiles : inner.Compiles) :
    CompilesDeclaration inner.classDeclaration := by
  intro state sound _ settled
  have positive : 0 < state.height := settled.fits.positive
  refine .bind (guarantees_consumeIdentifier (fun name isName => ?_) fun _ => trivial)
  have entered := adds_advance sound
  refine .bind (guarantees_nameAdds entered.sound (fun index ready readied named scope => ?_)
    fun _ => trivial)
  rw [scope_advance] at scope
  have readySettled : ready.draft.scope.Settled := by rwa [scope]
  have height_eq := height_of_scope scope
  suffices
      Guarantees
        (do
          let binding ← declareVariable name
          emit (.makeClass index)
          defineVariable binding
          namedVariable inner.operand name false
          consume .leftBrace "'\x7b' before class body"
          repeatWhile (fun _ => do
            if (← atMark .rightBrace) || (← atEnd) then
              return (false, ())
            else
              inner.method
              return (true, ())) ()
          consume .rightBrace "'\x7d' after class body"
          emit .pop)
        ready (fun _ after => DeclarationDone ready after) (fun _ => True) from
    this.mono (fun _ _ => .afterwards (entered.trans readied) scope) fun _ => id
  refine .bind (guarantees_declareVariable readied.sound (fun binding declared awaits => ?_)
    fun _ => trivial)
  refine .bind (guarantees_append fun made making => ?_)
  have madeAdds := making.adds awaits.adds.sound
  have makes :
      Carries made.context (.plain ready.height) [.makeClass index]
        (.classTop (ready.height + 1)) :=
    .single rfl (by rw [height_eq]; exact positive)
      ((awaits.adds.context.trans madeAdds.context).hasName named) nofun rfl
  cases awaits with
  | @moduleSlot slot adds same outside found =>
      refine .bind (guarantees_append fun defined defining => ?_)
      have definedAdds := defining.adds madeAdds.sound
      have definedScope : defined.draft.scope = ready.draft.scope := by
        rw [defining.writes.scope, making.writes.scope, same]
      have known : defined.table.find? name = some slot := by
        have tables := defining.resources.trans making.resources
        rw [show defined.table = declared.table from congrArg Resources.table tables]
        exact found
      refine .bind (guarantees_readVariable definedAdds.sound fun target read generated readAdds
        readScope => ?_)
      have isSlot : target = .moduleSlot slot := by
        refine Generator.reference_of_module ?_ known generated
        show defined.draft.scope.resolve name = _
        rw [definedScope]
        exact readySettled.resolve_of_depth outside (sound.isVariableName_current isName)
      subst isSlot
      have inside := definedAdds.sound.resources.table.inside _ _ known
      have defines :
          Carries defined.context (.classTop (ready.height + 1))
            [.defineModule (UInt16.ofNat slot)]
            { height := ready.height, mark := .classInSlot (UInt16.ofNat slot) } :=
        .single rfl (Nat.succ_lt_succ (by rw [height_eq]; exact positive))
          (definedAdds.sound.slotOperand_lt inside) nofun rfl
      have reads :
          Carries read.context
            { height := ready.height, mark := .classInSlot (UInt16.ofNat slot) }
            [.getModule (UInt16.ofNat slot)] (.classTop (ready.height + 1)) :=
        .single rfl (by rw [height_eq]; exact positive)
          (readAdds.sound.slotOperand_lt (Nat.lt_of_lt_of_le inside readAdds.context.slots)) nofun
          (by simp [Instruction.after, Instruction.markAfter]; rfl)
      have scopeRead : read.draft.scope = ready.draft.scope := readScope.trans definedScope
      refine classBody_compiles compiles readySettled
        (((adds.trans madeAdds).trans definedAdds).trans readAdds) ?_ ?_
      · rw [height_of_scope scopeRead]
        exact ((makes.extend (definedAdds.context.trans readAdds.context)).append
          (defines.extend readAdds.context)).append reads
      · rw [scopeRead]
        exact .refl readySettled
  | newLocal adds same deep room =>
      have defining : made.draft.scope.markInitialized = ready.draft.scope.declared name := by
        rw [making.writes.scope, same, Scope.markInitialized_pending]
      refine .bind (guarantees_change ?_)
      show Guarantees _ (made.withScope made.draft.scope.markInitialized) _ _
      rw [defining]
      have definedAdds : Adds made (made.withScope (ready.draft.scope.declared name)) [] :=
        adds_withScope madeAdds.sound (.inr deep)
      refine .bind (guarantees_readVariable definedAdds.sound fun target read generated readAdds
        readScope => ?_)
      have isSlot : target = .localSlot ready.height :=
        Generator.reference_of_local (Scope.resolve_declared _ _) generated
      subst isSlot
      have small : (UInt8.ofNat ready.height).toNat = ready.height :=
        Generator.toNat_localSlot room
      have reads :
          Carries read.context (.classTop (ready.height + 1))
            [.getLocal (UInt8.ofNat ready.height)] (.classTop (ready.height + 2)) := by
        refine .single rfl (Nat.succ_pos _) ?_ nofun ?_
        · show (UInt8.ofNat ready.height).toNat < _
          rw [small]
          exact Nat.lt_succ_self _
        · simp [Instruction.after, Instruction.markAfter, small]
          rfl
      refine classBody_compiles compiles readySettled
        (((adds.trans madeAdds).trans definedAdds).trans readAdds) ?_ ?_
      · rw [height_of_scope readScope]
        exact (makes.extend (definedAdds.context.trans readAdds.context)).append reads
      · rw [readScope]
        exact .declared deep room name

end Compiler

end ScriptEngine
