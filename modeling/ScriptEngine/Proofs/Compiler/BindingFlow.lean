import ScriptEngine.Proofs.Compiler.StatementFlow

/-!
# Declarations of variables and imports

A declared name waits for its value: a variable of the module has its slot, and
a local variable is in the scope but cannot be used yet.  When the value is on
the stack, the variable of the module takes it away, and the local variable is
the value itself.
-/

namespace ScriptEngine

open Syntax Compilation

namespace Compilation

/-- A name has been declared and waits for its value. -/
inductive Awaits (state after : Compilation) (name : String) : Compiler.Binding → Prop where
  | moduleSlot
      {slot : Nat}
      (adds : Adds state after [])
      (scope : after.draft.scope = state.draft.scope)
      (outside : state.draft.scope.depth = 0)
      (found : after.table.find? name = some slot) :
      Awaits state after name (.moduleSlot slot)
  | newLocal
      (adds : Adds state after [])
      (scope : after.draft.scope = state.draft.scope.pending name)
      (deep : 0 < state.draft.scope.depth)
      (room : state.draft.scope.locals.length < Scope.maxLocals) :
      Awaits state after name .newLocal

namespace Awaits

variable
  {state after : Compilation}
  {name : String}
  {binding : Compiler.Binding}

theorem adds (awaits : Awaits state after name binding) : Adds state after [] := by
  cases awaits with
  | moduleSlot adds _ _ _ => exact adds
  | newLocal adds _ _ _ => exact adds

/-- The value is computed at the height before the declaration. -/
theorem fits (awaits : Awaits state after name binding) (settled : state.draft.scope.Settled) :
    after.draft.scope.Fits state.height := by
  cases awaits with
  | moduleSlot _ scope _ _ =>
      rw [scope]
      exact settled.fits
  | newLocal _ scope _ _ =>
      rw [scope]
      exact settled.fits_pending name

end Awaits

/-- The slot of a variable of the module is an operand. -/
theorem Sound.slotOperand_lt
    {state : Compilation}
    (sound : state.Sound)
    {slot : Nat}
    (inside : slot < state.table.size) :
    (UInt16.ofNat slot).toNat < state.context.slots := by
  rw [Generator.toNat_moduleSlot sound.resources inside]
  exact inside

end Compilation

namespace Compiler

/-! ## Names -/

section Names

variable {state : Compilation} {onError : CompileProblem → Prop}

theorem guarantees_nameAdds
    {name : String}
    {onSuccess : UInt16 → Compilation → Prop}
    (sound : state.Sound)
    (success :
      ∀ index after,
        Adds state after [] →
        after.context.HasName index →
        after.draft.scope = state.draft.scope →
          onSuccess index after)
    (error : ∀ problem, onError problem) :
    Guarantees (nameIndex name) state onSuccess onError := by
  refine guarantees_nameIndex (fun index chunk generated writes => ?_) fun problem _ =>
    error problem
  obtain ⟨grows, hasName⟩ := Generator.nameIndex_grows sound.resources generated
  exact success index _ (writes.adds sound grows) hasName writes.scope

theorem guarantees_declareLocal
    {name : String}
    {onSuccess : Unit → Compilation → Prop}
    (success :
      state.draft.scope.locals.length < Scope.maxLocals →
        onSuccess () (state.withScope (state.draft.scope.pending name)))
    (error : ∀ problem, onError problem) :
    Guarantees (declareLocal name) state onSuccess onError := by
  refine .bind (guarantees_look ?_)
  rcases declared : state.draft.scope.declare name with problem | scope
  · exact guarantees_fail (error _)
  · obtain ⟨rfl, room⟩ := Scope.declare_eq_ok declared
    exact guarantees_change (success room)

theorem guarantees_declareVariable
    {name : String}
    {onSuccess : Binding → Compilation → Prop}
    (sound : state.Sound)
    (success : ∀ binding after, Awaits state after name binding → onSuccess binding after)
    (error : ∀ problem, onError problem) :
    Guarantees (declareVariable name) state onSuccess onError := by
  refine .bind (guarantees_look ?_)
  split
  · rename_i atModuleLevel
    simp only [Bool.and_eq_true, decide_eq_true_eq] at atModuleLevel
    refine .bind (guarantees_moduleSlot (fun slot table generated => ?_) fun problem _ =>
      error problem)
    obtain ⟨grows, -⟩ := Generator.moduleSlot_grows sound.resources generated
    have found := Generator.moduleSlot_found generated
    refine .bind (.bind (guarantees_look ?_))
    split
    · exact guarantees_fail (error _)
    · exact .pure (success _ _ (.moduleSlot ((Writes.withTable state table).adds sound grows) rfl
        atModuleLevel.2 found))
  · rename_i inBlock
    simp only [Bool.and_eq_true, decide_eq_true_eq, not_and] at inBlock
    have deep : 0 < state.draft.scope.depth := by
      rcases sound.nested with isScript | deep
      · exact Nat.pos_of_ne_zero (inBlock isScript)
      · exact deep
    refine .bind (guarantees_declareLocal (fun room => ?_) error)
    exact .pure (success _ _ (.newLocal (adds_withScope sound (.inr deep)) rfl deep room))

end Names

/-- A declared variable gets the value on top of the stack. -/
theorem defineVariable_compiles
    {state declared between : Compilation}
    {name : String}
    {binding : Binding}
    {instructions : List Instruction}
    (settled : state.draft.scope.Settled)
    (awaits : Awaits state declared name binding)
    (value : Compiles declared between state.height instructions (state.height + 1))
    (scope : between.draft.scope = declared.draft.scope) :
    Guarantees (defineVariable binding) between (fun _ after => DeclarationDone state after)
      (fun _ => True) := by
  have positive : 0 < state.height := settled.fits.positive
  have whole := value.afterwards awaits.adds
  cases awaits with
  | moduleSlot adds same outside found =>
      refine guarantees_append fun after appends => ?_
      have scopeAfter : after.draft.scope = state.draft.scope := by
        rw [appends.writes.scope, scope, same]
      have sound := (appends.adds value.adds.sound).sound
      have defines : Leads after.context (state.height + 1) [.defineModule _] state.height :=
        .single rfl (Nat.succ_lt_succ positive)
          (sound.slotOperand_lt (Nat.lt_of_lt_of_le
            (adds.sound.resources.table.inside _ _ found)
            (value.adds.context.trans (appends.adds value.adds.sound).context).slots)) rfl
      exact StatementDone.declaration ⟨⟨_, whole.appendLeads appends defines⟩, scopeAfter⟩ settled
  | newLocal adds same deep room =>
      have scopeAfter : between.draft.scope.markInitialized = state.draft.scope.declared name := by
        rw [scope, same, Scope.markInitialized_pending]
      refine guarantees_change ⟨⟨instructions, ?_⟩, ?_⟩
      · have added : Adds between (between.withScope between.draft.scope.markInitialized) [] :=
          adds_withScope whole.adds.sound (.inr (by rw [scopeAfter]; exact deep))
        have height : (between.withScope between.draft.scope.markInitialized).height =
            state.height + 1 := by
          rw [scopeAfter]
          rfl
        have final := whole.silently added
        rw [← height] at final
        exact final
      · show Scope.Declares _ between.draft.scope.markInitialized
        rw [scopeAfter]
        exact .declared deep room name

theorem variableDeclaration_compiles {inner : Inner} (compiles : inner.Compiles) :
    CompilesDeclaration inner.variableDeclaration := by
  intro state sound _ settled
  have positive : 0 < state.height := settled.fits.positive
  refine .bind (guarantees_consumeIdentifier (fun name _ => ?_) fun _ => trivial)
  have entered := adds_advance sound
  refine .bind (guarantees_declareVariable entered.sound (fun binding declared awaits => ?_)
    fun _ => trivial)
  -- Whether there is an initialiser or not, the value is on the stack now.
  have finish :
      ∀ instructions valued,
        Compiles declared valued state.height instructions (state.height + 1) →
        valued.draft.scope = declared.draft.scope →
          Guarantees
            (do
              consume .semicolon "';' after variable declaration"
              defineVariable binding)
            valued (fun _ after => DeclarationDone state after) (fun _ => True) := by
    intro instructions valued value scope
    refine .bind (guarantees_expect (fun _ _ _ => ?_) fun _ => trivial)
    have done := defineVariable_compiles (by rwa [scope_advance]) awaits
      (by rw [height_advance]; exact value.silently (adds_advance value.adds.sound))
      (by rw [scope_advance, scope])
    exact done.mono (fun _ _ => .afterwards entered (scope_advance state)) fun _ _ => trivial
  have fits := awaits.fits (by rwa [scope_advance])
  rw [height_advance] at fits
  refine .bind (guarantees_matchMark (fun _ _ begins => ?_) fun _ => ?_)
  · have initial := adds_advance awaits.adds.sound
    refine .bind ((compiles.expression _ _ initial.sound begins (by rwa [scope_advance])).mono ?_
      fun _ _ => trivial)
    rintro - valued ⟨⟨instructions, value⟩, scope⟩
    exact finish instructions valued (value.afterwards initial) (by rw [scope, scope_advance])
  · refine .bind (guarantees_append fun valued appends => ?_)
    have value : Leads valued.context state.height [.pushNull] (state.height + 1) :=
      .single rfl positive trivial rfl
    exact finish _ valued ⟨appends.adds awaits.adds.sound, value⟩ appends.writes.scope

/-! ## Imports -/

theorem importModule_leads
    {context : CodeContext}
    {index : UInt16}
    (named : context.HasName index)
    {height : Nat}
    (positive : 0 < height) :
    Leads context height [.importModule index] (height + 1) :=
  .single rfl positive named rfl

/-- Loading a module and binding it to a name. -/
theorem importedModule_compiles
    {state : Compilation}
    {moduleIndex : UInt16}
    {name : String}
    (sound : state.Sound)
    (settled : state.draft.scope.Settled)
    (named : state.context.HasName moduleIndex)
    {rest : Compiler α}
    {onSuccess : α → Compilation → Prop}
    (next :
      ∀ after,
        DeclarationDone state after → Guarantees rest after onSuccess (fun _ => True)) :
    Guarantees
      (do
        let binding ← declareVariable name
        emit (.importModule moduleIndex)
        defineVariable binding
        rest)
      state onSuccess (fun _ => True) := by
  refine .bind (guarantees_declareVariable sound (fun binding declared awaits => ?_)
    fun _ => trivial)
  refine .bind (guarantees_append fun imported importing => ?_)
  have added := importing.adds awaits.adds.sound
  have leads := importModule_leads
    ((awaits.adds.context.trans added.context).hasName named) settled.fits.positive
  refine .bind ((defineVariable_compiles settled awaits ⟨added, leads⟩ importing.writes.scope).mono
    (fun _ => next) fun _ => id)

theorem importedVariable_compiles
    {state : Compilation}
    {moduleIndex : UInt16}
    (sound : state.Sound)
    (settled : state.draft.scope.Settled)
    (named : state.context.HasName moduleIndex) :
    Guarantees (Inner.importedVariable moduleIndex) state
      (fun _ after => DeclarationDone state after) (fun _ => True) := by
  have positive : 0 < state.height := settled.fits.positive
  refine .bind (guarantees_consumeIdentifier (fun name _ => ?_) fun _ => trivial)
  have entered := adds_advance sound
  refine .bind (guarantees_nameAdds entered.sound (fun index ready readied hasName scope => ?_)
    fun _ => trivial)
  rw [scope_advance] at scope
  refine .bind (guarantees_declareVariable readied.sound (fun binding declared awaits => ?_)
    fun _ => trivial)
  refine .bind (guarantees_append fun imported importing => ?_)
  have importedAdds := importing.adds awaits.adds.sound
  refine .bind (guarantees_append fun read reading => ?_)
  have before := entered.trans readied
  have height := height_of_scope scope
  have imports := importModule_leads
    ((before.context.trans (awaits.adds.context.trans importedAdds.context)).hasName named)
    positive
  have readAdds := reading.adds importedAdds.sound
  have reads : Leads read.context (state.height + 1) [.getProperty index] (state.height + 1) :=
    .single rfl (Nat.succ_lt_succ positive)
      ((awaits.adds.context.trans (importedAdds.context.trans readAdds.context)).hasName hasName)
      rfl
  have value := Compiles.appendLeads ⟨importedAdds, imports⟩ reading reads
  have done := defineVariable_compiles (by rwa [scope]) awaits (by rw [height]; exact value)
    (reading.writes.scope.trans importing.writes.scope)
  exact done.mono (fun _ _ => .afterwards before scope) fun _ _ => trivial

/-- The variables that an import names and the semicolon. -/
theorem importList_compiles
    {state between : Compilation}
    {moduleIndex : UInt16}
    (settled : state.draft.scope.Settled)
    (done : DeclarationDone state between)
    (named : between.context.HasName moduleIndex) :
    Guarantees
      (do
        if ← matchWord .forWord then
          repeatWhile (fun _ => do
            Inner.importedVariable moduleIndex
            return (← matchMark .comma, ())) ()
        consume .semicolon "';' after import")
      between (fun _ after => DeclarationDone state after) (fun _ => True) := by
  have finish :
      ∀ listed,
        DeclarationDone state listed →
          Guarantees (consume .semicolon "';' after import") listed
            (fun _ after => DeclarationDone state after) (fun _ => True) :=
    fun listed listedDone => guarantees_expect (fun _ _ _ => listedDone.advance) fun _ => trivial
  refine .bind (guarantees_matchKind (fun _ => ?_) fun _ => finish between done)
  have later := (adds_advance done.sound).context.hasName named
  refine .bind ((guarantees_repeatInvariant
    (fun _ listed => DeclarationDone state listed ∧ listed.context.HasName moduleIndex)
    ⟨done.advance, later⟩ ?_).mono (fun _ listed kept => finish listed kept.1) fun _ => id)
  rintro - listed ⟨listedDone, listedNamed⟩
  refine .bind ((importedVariable_compiles listedDone.sound (listedDone.settled settled)
    listedNamed).mono ?_ fun _ => id)
  intro _ after added
  have whole := listedDone.trans added
  have stillNamed := added.context.hasName listedNamed
  refine .bind (guarantees_matchKind (fun _ => .pure ?_) fun _ => .pure ⟨whole, stillNamed⟩)
  exact ⟨whole.advance, (adds_advance whole.sound).context.hasName stillNamed⟩

theorem importDeclaration_compiles : CompilesDeclaration Inner.importDeclaration := by
  intro state sound _ settled
  have positive : 0 < state.height := settled.fits.positive
  refine .bind (guarantees_look ?_)
  split
  · rename_i moduleName _
    refine .bind (guarantees_advance ?_)
    have entered := adds_advance sound
    refine .bind (guarantees_nameAdds entered.sound (fun index ready readied named scope => ?_)
      fun _ => trivial)
    rw [scope_advance] at scope
    refine .bind (guarantees_append fun imported importing => ?_)
    refine .bind (guarantees_append fun dropped dropping => ?_)
    have before := entered.trans readied
    have both := importing.trans dropping
    have added := both.adds readied.sound
    have leads : Leads dropped.context state.height _ state.height :=
      (importModule_leads (added.context.hasName named) positive).append
        (popLeads _ positive)
    have loaded : DeclarationDone state dropped :=
      StatementDone.declaration
        ⟨⟨_, before.trans added, leads⟩, both.writes.scope.trans scope⟩ settled
    have namedLater := added.context.hasName named
    refine .bind (guarantees_matchKind (fun _ => ?_) fun _ => ?_)
    · have entering := loaded.advance
      refine .bind (guarantees_consumeIdentifier (fun name _ => ?_) fun _ => trivial)
      have inside := entering.advance
      have namedInside := (adds_advance entering.sound).context.hasName
        ((adds_advance loaded.sound).context.hasName namedLater)
      refine importedModule_compiles inside.sound (inside.settled settled) namedInside ?_
      intro bound imports
      exact importList_compiles settled (inside.trans imports)
        (imports.context.hasName namedInside)
    · exact importList_compiles settled loaded namedLater
  · exact guarantees_failAtCurrent trivial

end Compiler

end ScriptEngine
